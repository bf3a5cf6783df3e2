import Clarc.Core.HeaderText
import Clarc.Core.Loops
import Clarc.Http.MicroCurl

/-!
# The response headers, line by line

libcurl hands over the response headers in chunks, `curlResponseHeadersCallback` puts them behind
one another, and `parseHeaders` cuts the text at its line feeds.  Every turn of its loop records at
most one header, so the whole is what the turns record (`parseHeaderLines_eq_some`).

* `received_headers` — the chunks make the text, wherever libcurl cut it;
* `parseHeaders_written` — **parsing undoes writing**: what was written as `name: value` is
  recorded, with the name in lower case, and `getHeader` finds the first of each name;
* `readsHeaders_iff` — **the text is read as it should be exactly when** every line that is taken
  for a header has a colon before its last character, and a blank or nothing behind its first colon.
-/

namespace Clarc

open Bytes

/-! ## The text -/

/-- What the callback keeps of the response headers: the buffer and `headersSize`. -/
structure CurlResponse where
  headers : Bytes
  headersSize : ℕ
  deriving DecidableEq, Repr

/-- `go` begins with an empty string. -/
def CurlResponse.empty : CurlResponse := { headers := [0], headersSize := 0 }

/-- `curlResponseHeadersCallback`: the chunk goes behind what is there, and a terminator behind the
chunk. -/
def curlResponseHeadersCallback (curlResponse : CurlResponse) (contents : Bytes) : CurlResponse :=
  { headers := curlResponse.headers.take curlResponse.headersSize ++ contents ++ [0]
    headersSize := curlResponse.headersSize + contents.length }

/-- What is there after so many chunks. -/
def received (chunks : List Bytes) : CurlResponse :=
  chunks.foldl curlResponseHeadersCallback CurlResponse.empty

/-- The buffer holds a text and its terminator. -/
def CurlResponse.Holds (curlResponse : CurlResponse) (text : Bytes) : Prop :=
  curlResponse.headers = text ++ [0] ∧ curlResponse.headersSize = text.length

/-- A chunk makes the text longer by itself. -/
lemma CurlResponse.Holds.callback {curlResponse : CurlResponse} {text : Bytes}
    (h : curlResponse.Holds text) (contents : Bytes) :
    (curlResponseHeadersCallback curlResponse contents).Holds (text ++ contents) := by
  obtain ⟨hheaders, hsize⟩ := h
  refine ⟨?_, ?_⟩
  · rw [curlResponseHeadersCallback, hheaders, hsize, List.take_left]
  · rw [curlResponseHeadersCallback, hsize, List.length_append]

/-- **The chunks make the text**, wherever it was cut. -/
theorem received_headers (chunks : List Bytes) :
    (received chunks).headers = chunks.flatten ++ [0] := by
  have h : CurlResponse.empty.Holds [] := ⟨rfl, rfl⟩
  have hall : (received chunks).Holds ([] ++ chunks.flatten) :=
    Loops.foldl_appends_flatten (fun text curlResponse => CurlResponse.Holds curlResponse text)
      (fun _ _ chunk hholds => hholds.callback chunk) h chunks
  exact hall.1

/-- The lines of what was received are those of the chunks together. -/
lemma headerLines_received {chunks : List Bytes} (h : 0 ∉ chunks.flatten) :
    headerLines (received chunks).headers = chunks.flatten.splitOn 10 := by
  rw [headerLines, received_headers, cString_append_zero h]

/-- A text that begins with a line. -/
lemma headerLines_append {line : Bytes} (hline : 10 ∉ line) (hnul : 0 ∉ line) (rest : Bytes) :
    headerLines (line ++ 10 :: rest) = line :: headerLines rest := by
  have hcString : cString (line ++ 10 :: rest) = line ++ 10 :: cString rest := by
    rw [cString, List.takeWhile_append_of_pos (all_ne hnul), List.takeWhile_cons_of_pos (by decide)]
    rfl
  rw [headerLines, hcString, List.splitOn_append_cons_self_of_not_mem hline, headerLines]

/-! ## One turn of the loop -/

/-- What `parseHeaders` records for one line; `none` when it follows a pointer that `strsep` left
absent. -/
def parseHeaderLine (token : Bytes) : Option (List (Bytes × Bytes)) :=
  if token.length < 2 then some []
  else if ascii "HTTP/1" <+: token then some []
  else (splitColon token.dropLast).map fun h => [(h.1.map tolower, h.2.drop 1)]

lemma parseHeaderLines_cons (token : Bytes) (rest : List Bytes) :
    parseHeaderLines (token :: rest) =
      (parseHeaderLine token).bind fun h => (parseHeaderLines rest).map (h ++ ·) := by
  rw [parseHeaderLines, parseHeaderLine]
  split_ifs with hshort hstatus
  · simp
  · simp
  · cases splitColon token.dropLast with
    | none => rfl
    | some h => simp

/-- **The loop records what its turns record**, when none of them is lost. -/
theorem parseHeaderLines_eq_some {lines : List Bytes} {headers : List (Bytes × Bytes)} :
    parseHeaderLines lines = some headers ↔
      ∃ records, List.Forall₂ (fun line h => parseHeaderLine line = some h) lines records ∧
        records.flatten = headers := by
  induction lines generalizing headers with
  | nil =>
      constructor
      · intro h
        exact ⟨[], List.Forall₂.nil, Option.some.inj h⟩
      · rintro ⟨records, hrecords, rfl⟩
        cases hrecords
        rfl
  | cons line rest ih =>
      rw [parseHeaderLines_cons, Option.bind_eq_some_iff]
      constructor
      · rintro ⟨first, hfirst, hrest⟩
        obtain ⟨others, hothers, rfl⟩ := Option.map_eq_some_iff.mp hrest
        obtain ⟨records, hrecords, rfl⟩ := ih.mp hothers
        exact ⟨first :: records, List.Forall₂.cons hfirst hrecords, rfl⟩
      · rintro ⟨records, hrecords, rfl⟩
        obtain ⟨first, others, hfirst, hothers, rfl⟩ := List.forall₂_cons_left_iff.mp hrecords
        exact ⟨first, hfirst, Option.map_eq_some_iff.mpr ⟨_, ih.mpr ⟨others, hothers, rfl⟩, rfl⟩⟩

/-- The first colon of a text. -/
lemma splitColon_append {name : Bytes} (h : 58 ∉ name) (rest : Bytes) :
    splitColon (name ++ 58 :: rest) = some (name, rest) := by
  rw [splitColon, if_pos (by simp), takeWhile_ne h, dropWhile_ne h]
  rfl

lemma splitColon_eq_some {token : Bytes} {h : Bytes × Bytes} (hcut : h ∈ splitColon token) :
    58 ∉ h.1 ∧ token = h.1 ++ 58 :: h.2 := by
  have hmem : 58 ∈ token := by
    by_contra hnone
    rw [splitColon, if_neg hnone] at hcut
    cases hcut
  obtain ⟨name, rest, rfl, hname⟩ := List.eq_append_cons_of_mem hmem
  rw [splitColon_append hname] at hcut
  obtain rfl := Option.some.inj hcut
  exact ⟨hname, rfl⟩

lemma splitColon_eq_none {token : Bytes} : splitColon token = none ↔ 58 ∉ token := by
  unfold splitColon
  split_ifs with h <;> simp [h]

lemma parseHeaderLine_short {token : Bytes} (h : token.length < 2) :
    parseHeaderLine token = some [] := if_pos h

lemma parseHeaderLine_status {token : Bytes} (h : ascii "HTTP/1" <+: token) :
    parseHeaderLine token = some [] := by
  unfold parseHeaderLine
  rw [if_pos h, ite_self]

/-- A line with a colon, and one more character. -/
lemma parseHeaderLine_colon {name rest : Bytes} {last : UInt8} (hname : 58 ∉ name)
    (hstatus : ¬ ascii "HTTP/1" <+: name ++ 58 :: rest ++ [last]) :
    parseHeaderLine (name ++ 58 :: rest ++ [last]) =
      some [(name.map tolower, rest.drop 1)] := by
  have hlong : ¬ (name ++ 58 :: rest ++ [last]).length < 2 := by
    simp only [List.length_append, List.length_cons]
    omega
  rw [parseHeaderLine, if_neg hlong, if_neg hstatus, List.dropLast_concat,
    splitColon_append hname]
  rfl

/-- The turn is lost on any other line. -/
lemma parseHeaderLine_eq_none {token : Bytes} : parseHeaderLine token = none ↔
    2 ≤ token.length ∧ ¬ ascii "HTTP/1" <+: token ∧ 58 ∉ token.dropLast := by
  unfold parseHeaderLine
  split_ifs with hshort hstatus
  · simp [hshort]
  · simp [hstatus]
  · rw [Option.map_eq_none_iff, splitColon_eq_none]
    exact ⟨fun h => ⟨Nat.le_of_not_lt hshort, hstatus, h⟩, fun h => h.2.2⟩

/-! ## Reading what was written -/

/-- A header that has a line of its own: its name has no colon and does not look like a status line,
and neither part ends the line or the text. -/
structure OnOneLine (h : Bytes × Bytes) : Prop where
  nameNonempty : h.1 ≠ []
  name : 58 ∉ h.1 ∧ 13 ∉ h.1 ∧ 10 ∉ h.1 ∧ 0 ∉ h.1
  noStatus : ¬ ascii "HTTP/1" <+: h.1
  value : 13 ∉ h.2 ∧ 10 ∉ h.2 ∧ 0 ∉ h.2

/-- A header with its name in lower case. -/
def lowerName (h : Bytes × Bytes) : Bytes × Bytes := (h.1.map tolower, h.2)

/-- A text with a colon begins like a status line only if what precedes the colon does. -/
lemma status_prefix_of_colon {name rest : Bytes} (h : ascii "HTTP/1" <+: name ++ 58 :: rest) :
    ascii "HTTP/1" <+: name := by
  by_cases hlength : (ascii "HTTP/1").length ≤ name.length
  · exact List.prefix_of_prefix_length_le h (List.prefix_append name _) hlength
  · -- the colon would be one of the characters of `HTTP/1`
    obtain ⟨tail, htail⟩ := h
    have hget : (ascii "HTTP/1")[name.length]? = some 58 := by
      have hcolon : (ascii "HTTP/1" ++ tail)[name.length]? = some 58 := by
        rw [htail]
        simp
      rwa [List.getElem?_append_left (Nat.lt_of_not_le hlength)] at hcolon
    have hmem : (58 : UInt8) ∈ ascii "HTTP/1" := List.mem_of_getElem? hget
    exact absurd hmem (by decide)

/-- The line of a header is read as that header. -/
lemma parseHeaderLine_written {h : Bytes × Bytes} (hh : OnOneLine h) :
    parseHeaderLine (h.1 ++ 58 :: 32 :: h.2 ++ [13]) = some [lowerName h] := by
  refine parseHeaderLine_colon hh.name.1 fun hstatus => hh.noStatus ?_
  rw [List.append_assoc, List.cons_append] at hstatus
  exact status_prefix_of_colon hstatus

/-- The lines that were written for headers are read as these headers. -/
lemma parseHeaderLines_written {headers : List (Bytes × Bytes)}
    (hheaders : ∀ h ∈ headers, OnOneLine h) :
    parseHeaderLines (headerLines (HeaderText.write headers ++ [13, 10])) =
      some (headers.map lowerName) := by
  induction headers with
  | nil => rfl
  | cons h headers ih =>
      have hh := hheaders h List.mem_cons_self
      have htext : HeaderText.write (h :: headers) ++ [13, 10] =
          (h.1 ++ 58 :: 32 :: h.2 ++ [13]) ++ 10 :: (HeaderText.write headers ++ [13, 10]) := by
        simp [HeaderText.write, HeaderText.writeLine]
      have hline : 10 ∉ h.1 ++ 58 :: 32 :: h.2 ++ [13] := by
        simp [hh.name.2.2.1, hh.value.2.1]
      have hnul : 0 ∉ h.1 ++ 58 :: 32 :: h.2 ++ [13] := by
        simp [hh.name.2.2.2, hh.value.2.2]
      rw [htext, headerLines_append hline hnul, parseHeaderLines_cons, parseHeaderLine_written hh,
        ih fun g hg => hheaders g (List.mem_cons_of_mem h hg)]
      rfl

/-- Behind a status line, the headers that were written are read. -/
lemma parseHeaders_lines {statusLine : Bytes} {headers : List (Bytes × Bytes)}
    (hstatus : ascii "HTTP/1" <+: statusLine) (hline : 10 ∉ statusLine ∧ 0 ∉ statusLine)
    (hheaders : ∀ h ∈ headers, OnOneLine h) :
    parseHeaders (statusLine ++ [13, 10] ++ HeaderText.write headers ++ [13, 10]) =
      some (headers.map lowerName) := by
  have htext : statusLine ++ [13, 10] ++ HeaderText.write headers ++ [13, 10] =
      (statusLine ++ [13]) ++ 10 :: (HeaderText.write headers ++ [13, 10]) := by
    simp
  have hlf : 10 ∉ statusLine ++ [13] := by simp [hline.1]
  have hnul : 0 ∉ statusLine ++ [13] := by simp [hline.2]
  have hfirst : ascii "HTTP/1" <+: statusLine ++ [13] := hstatus.trans (List.prefix_append _ _)
  rw [parseHeaders, htext, headerLines_append hlf hnul, parseHeaderLines_cons,
    parseHeaderLine_status hfirst, parseHeaderLines_written hheaders]
  rfl

/-- **Parsing undoes writing.**  Behind a status line, the headers that were written are recorded in
their order with their names in lower case, and `getHeader` returns the value of the first header of
a name. -/
theorem parseHeaders_written {statusLine : Bytes} {headers : List (Bytes × Bytes)}
    (hstatus : ascii "HTTP/1" <+: statusLine) (hline : 10 ∉ statusLine ∧ 0 ∉ statusLine)
    (hheaders : ∀ h ∈ headers, OnOneLine h) {r : Response}
    (hr : r.headers = statusLine ++ [13, 10] ++ HeaderText.write headers ++ [13, 10]) :
    ∃ t, r.go = some t ∧
      t.resultingHeaders = headers.map (fun h => (h.1.map tolower, h.2)) ∧
      ∀ n, t.getHeader n = (headers.find? fun h => h.1.map tolower == n).map Prod.snd := by
  have hparse : parseHeaders r.headers = some (headers.map lowerName) := by
    rw [hr, parseHeaders_lines hstatus hline hheaders]
  refine ⟨_, by rw [Response.go, hparse], rfl, ?_⟩
  intro n
  rw [Transfer.getHeader, List.find?_map, Option.map_map]
  rfl

/-- Two cookies, a value with a colon and an empty one. -/
theorem parseHeaders_written_cookies :
    ∃ t, Response.go ⟨.ok, 200, ascii "HTTP/1.1 200 OK" ++ [13, 10] ++ HeaderText.write
          [(ascii "Set-Cookie", ascii "a: 1"), (ascii "set-cookie", ascii "b"),
            (ascii "X-Empty", [])] ++ [13, 10], .unparsable, []⟩ = some t ∧
      t.resultingHeaders = [(ascii "set-cookie", ascii "a: 1"), (ascii "set-cookie", ascii "b"),
        (ascii "x-empty", [])] ∧
      t.getHeader (ascii "set-cookie") = some (ascii "a: 1") := by
  have hheaders : ∀ h ∈ [(ascii "Set-Cookie", ascii "a: 1"), (ascii "set-cookie", ascii "b"),
      (ascii "X-Empty", [])], OnOneLine h := by
    intro h hh
    simp only [List.mem_cons, List.not_mem_nil, or_false] at hh
    rcases hh with rfl | rfl | rfl
    · exact ⟨by decide, by decide, by decide, by decide⟩
    · exact ⟨by decide, by decide, by decide, by decide⟩
    · exact ⟨by decide, by decide, by decide, by decide⟩
  have hstatus : ascii "HTTP/1" <+: ascii "HTTP/1.1 200 OK" := by decide
  obtain ⟨t, ht, hrecorded, hget⟩ := parseHeaders_written (r := ⟨_, _, _, _, _⟩) hstatus
    (by decide) hheaders rfl
  exact ⟨t, ht, hrecorded, (hget _).trans (by decide)⟩

/-! ## Reading any text -/

/-- A value without the one blank a server may put in front of it. -/
def dropBlank : Bytes → Bytes
  | [] => []
  | c :: value => if HeaderText.isBlank c then value else c :: value

/-- What one line of the text is to be read as.  A line without a colon gives nothing; a line that a
line feed ends, `terminated`, and that is `name:value` and a carriage return without being a status
line gives the header. -/
structure LineRead (terminated : Prop) (line : Bytes) (h : List (Bytes × Bytes)) : Prop where
  noColon : 58 ∉ line → h = []
  header : terminated → ¬ ascii "HTTP/" <+: line → ∀ name value, 58 ∉ name →
    line = name ++ 58 :: value ++ [13] → h = [(name.map tolower, dropBlank value)]

/-- A header text is read into `headers`: `records` is what the turns of the loop record, and each
of them is what its line is to be read as.  The last of the lines is what follows the last line
feed. -/
def ReadsHeaders (text : Bytes) (headers : List (Bytes × Bytes)) : Prop :=
  ∃ records : List (List (Bytes × Bytes)), records.flatten = headers ∧
    List.Forall₂ (fun line h => parseHeaderLine line = some h) (text.splitOn 10) records ∧
    ∀ i line h, (text.splitOn 10)[i]? = some line → records[i]? = some h →
      LineRead (i + 1 < (text.splitOn 10).length) line h

/-- The lines of a text on which `parseHeaders` can be relied. -/
structure ReadableLines (text : Bytes) : Prop where
  colon : ∀ line ∈ text.splitOn 10, 2 ≤ line.length → ¬ ascii "HTTP/1" <+: line →
    58 ∈ line.dropLast
  blank : ∀ line ∈ (text.splitOn 10).dropLast, ¬ ascii "HTTP/" <+: line →
    ∀ name value, 58 ∉ name → line = name ++ 58 :: value ++ [13] →
      ∀ c ∈ value.head?, HeaderText.isBlank c = true

/-- The header of a line that a carriage return ends, found by cutting it. -/
lemma forall_header_iff {line : Bytes} {p : Bytes → Prop} :
    (∀ name value, 58 ∉ name → line = name ++ 58 :: value ++ [13] → p value) ↔
      (line.getLast? = some 13 → ∀ h ∈ splitColon line.dropLast, p h.2) := by
  constructor
  · intro h hreturn cut hcut
    have hline : line = line.dropLast ++ [13] := by
      obtain ⟨front, rfl⟩ := List.getLast?_eq_some_iff.mp hreturn
      rw [List.dropLast_concat]
    obtain ⟨hname, heq⟩ := splitColon_eq_some hcut
    exact h cut.1 cut.2 hname (by rw [← heq, ← hline])
  · rintro h name value hname rfl
    refine h List.getLast?_concat (name, value) ?_
    rw [List.dropLast_concat, splitColon_append hname]
    rfl

instance (text : Bytes) : Decidable (ReadableLines text) :=
  decidable_of_iff
    ((∀ line ∈ text.splitOn 10, 2 ≤ line.length → ¬ ascii "HTTP/1" <+: line →
        58 ∈ line.dropLast) ∧
      ∀ line ∈ (text.splitOn 10).dropLast, ¬ ascii "HTTP/" <+: line →
        line.getLast? = some 13 → ∀ h ∈ splitColon line.dropLast,
          ∀ c ∈ h.2.head?, HeaderText.isBlank c = true)
    ⟨fun h => ⟨h.1, fun line hline hstatus =>
        forall_header_iff.mpr (h.2 line hline hstatus)⟩,
      fun h => ⟨h.1, fun line hline hstatus =>
        forall_header_iff.mp (h.2 line hline hstatus)⟩⟩

/-- The character behind the colon is all that goes, and it is to be a blank. -/
lemma drop_one_eq_dropBlank {value : Bytes} :
    value.drop 1 = dropBlank value ↔ ∀ c ∈ value.head?, HeaderText.isBlank c = true := by
  cases value with
  | nil => simp [dropBlank]
  | cons c value =>
      rw [dropBlank]
      split_ifs with hblank
      · simp [hblank]
      · simp [hblank]

lemma status_of_version {line : Bytes} (h : ascii "HTTP/1" <+: line) : ascii "HTTP/" <+: line := by
  have hshorter : ascii "HTTP/" <+: ascii "HTTP/1" := by decide
  exact hshorter.trans h

/-- A line is read as it should be when it can be relied on. -/
lemma lineRead_of_readable {line : Bytes} {terminated : Prop} {h : List (Bytes × Bytes)}
    (hparse : parseHeaderLine line = some h)
    (hcolon : 2 ≤ line.length → ¬ ascii "HTTP/1" <+: line → 58 ∈ line.dropLast)
    (hblank : terminated → ¬ ascii "HTTP/" <+: line →
      ∀ name value, 58 ∉ name → line = name ++ 58 :: value ++ [13] →
        ∀ c ∈ value.head?, HeaderText.isBlank c = true) : LineRead terminated line h := by
  constructor
  · intro hnone
    by_cases hskip : line.length < 2 ∨ ascii "HTTP/1" <+: line
    · rcases hskip with hshort | hstatus
      · rw [parseHeaderLine_short hshort] at hparse
        exact (Option.some.inj hparse).symm
      · rw [parseHeaderLine_status hstatus] at hparse
        exact (Option.some.inj hparse).symm
    · rw [not_or, Nat.not_lt] at hskip
      exact absurd (List.mem_of_mem_dropLast (hcolon hskip.1 hskip.2)) hnone
  · intro hterminated hstatus name value hname hline
    have hstatus' : ¬ ascii "HTTP/1" <+: name ++ 58 :: value ++ [13] := by
      intro hversion
      exact hstatus (hline ▸ status_of_version hversion)
    rw [hline, parseHeaderLine_colon hname hstatus',
      drop_one_eq_dropBlank.mpr (hblank hterminated hstatus name value hname hline)] at hparse
    exact (Option.some.inj hparse).symm

/-- The lines of a text that a line feed ends. -/
lemma mem_dropLast_iff {lines : List Bytes} {line : Bytes} :
    line ∈ lines.dropLast ↔ ∃ i, lines[i]? = some line ∧ i + 1 < lines.length := by
  rw [List.mem_iff_getElem?]
  constructor
  · rintro ⟨i, hi⟩
    rw [List.getElem?_dropLast] at hi
    split_ifs at hi with hlt
    exact ⟨i, hi, by omega⟩
  · rintro ⟨i, hi, hlt⟩
    refine ⟨i, ?_⟩
    rw [List.getElem?_dropLast, if_pos (by omega)]
    exact hi

/-- The record of a line. -/
lemma exists_record {lines : List Bytes} {records : List (List (Bytes × Bytes))}
    (h : List.Forall₂ (fun line h => parseHeaderLine line = some h) lines records) {i : ℕ}
    {line : Bytes} (hi : lines[i]? = some line) :
    ∃ record, records[i]? = some record ∧ parseHeaderLine line = some record := by
  obtain ⟨hlt, rfl⟩ := List.getElem?_eq_some_iff.mp hi
  have hlt' : i < records.length := h.length_eq ▸ hlt
  exact ⟨records[i], List.getElem?_eq_getElem hlt', h.get hlt hlt'⟩

/-- Lines that can all be relied on have records. -/
lemma exists_records {lines : List Bytes} (h : ∀ line ∈ lines, parseHeaderLine line ≠ none) :
    ∃ records, List.Forall₂ (fun line h => parseHeaderLine line = some h) lines records := by
  induction lines with
  | nil => exact ⟨[], List.Forall₂.nil⟩
  | cons line lines ih =>
      obtain ⟨record, hrecord⟩ := Option.ne_none_iff_exists'.mp (h line List.mem_cons_self)
      obtain ⟨records, hrecords⟩ := ih fun l hl => h l (List.mem_cons_of_mem line hl)
      exact ⟨record :: records, List.Forall₂.cons hrecord hrecords⟩

/-- **Header parsing, on any text in any chunks.**  It gets to the end, and reads every line as it
should, exactly when each line that is taken for a header has a colon before its last character, and
each header a blank or nothing behind its colon. -/
theorem readsHeaders_iff {chunks : List Bytes} (hnul : 0 ∉ chunks.flatten) :
    (∃ headers, parseHeaders (received chunks).headers = some headers ∧
      ReadsHeaders chunks.flatten headers) ↔ ReadableLines chunks.flatten := by
  rw [parseHeaders, headerLines_received hnul]
  constructor
  · rintro ⟨headers, -, records, -, hrecords, hread⟩
    constructor
    · intro line hline hlong hstatus
      by_contra hcolon
      obtain ⟨i, hi⟩ := List.mem_iff_getElem?.mp hline
      obtain ⟨record, -, hrecord⟩ := exists_record hrecords hi
      rw [parseHeaderLine_eq_none.mpr ⟨hlong, hstatus, hcolon⟩] at hrecord
      cases hrecord
    · intro line hline hstatus name value hname heq
      obtain ⟨i, hi, hterminated⟩ := mem_dropLast_iff.mp hline
      obtain ⟨record, hirecord, hrecord⟩ := exists_record hrecords hi
      have hvalue := (hread i line record hi hirecord).header hterminated hstatus name value
        hname heq
      have hstatus' : ¬ ascii "HTTP/1" <+: name ++ 58 :: value ++ [13] := by
        intro hversion
        exact hstatus (heq ▸ status_of_version hversion)
      rw [heq, parseHeaderLine_colon hname hstatus', hvalue] at hrecord
      simp only [Option.some.injEq, List.cons.injEq, Prod.mk.injEq, true_and, and_true] at hrecord
      exact drop_one_eq_dropBlank.mp hrecord
  · intro hreadable
    obtain ⟨records, hrecords⟩ : ∃ records, List.Forall₂
        (fun line h => parseHeaderLine line = some h) (chunks.flatten.splitOn 10) records := by
      refine exists_records fun line hline hnone => ?_
      obtain ⟨hlong, hstatus, hcolon⟩ := parseHeaderLine_eq_none.mp hnone
      exact hcolon (hreadable.colon line hline hlong hstatus)
    refine ⟨records.flatten, parseHeaderLines_eq_some.mpr ⟨records, hrecords, rfl⟩, records, rfl,
      hrecords, ?_⟩
    intro i line record hi hirecord
    obtain ⟨record', hirecord', hrecord⟩ := exists_record hrecords hi
    obtain rfl : record' = record := Option.some.inj (hirecord'.symm.trans hirecord)
    refine lineRead_of_readable hrecord (hreadable.colon line (List.mem_of_getElem? hi)) ?_
    exact fun hterminated => hreadable.blank line (mem_dropLast_iff.mpr ⟨i, hi, hterminated⟩)

/-- An answer in HTTP/1.1, in two chunks; no header is read wrongly in it. -/
theorem readsHeaders_iff_ok :
    ∃ headers, parseHeaders
        (received [ascii "HTTP/1.1 200 OK\r\nETag:", ascii " abc\r\n\r\n"]).headers =
          some headers ∧
      ReadsHeaders [ascii "HTTP/1.1 200 OK\r\nETag:", ascii " abc\r\n\r\n"].flatten headers := by
  exact (readsHeaders_iff (by decide)).mpr (by decide +kernel)

/-- A status line of HTTP/2 has no colon. -/
theorem http2_not_readsHeaders :
    ¬ ∀ chunks : List Bytes, 0 ∉ chunks.flatten →
      ∃ headers, parseHeaders (received chunks).headers = some headers ∧
        ReadsHeaders chunks.flatten headers := by
  intro h
  obtain ⟨headers, hparse, -⟩ := h [ascii "HTTP/2 200\r\n", ascii "\r\n"] (by decide)
  have hnone : parseHeaders (received [ascii "HTTP/2 200\r\n", ascii "\r\n"]).headers = none := by
    decide
  rw [hnone] at hparse
  cases hparse

end Clarc
