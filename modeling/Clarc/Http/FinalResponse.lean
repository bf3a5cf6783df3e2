import Clarc.Http.HeaderLines

/-!
# The outcome of a transfer with several responses

One transfer may see several header blocks: a proxy's answer to CONNECT, an interim response, and
then the response to the request.  `go` puts them into one text.  `parseHeaders` records the headers
of all of them in one list, `getHeader` searches it from the front, and the status is overridden
when the text *begins* with `HTTP/1.1 200 OK`.

* `parseHeaders_rendered`, `getHeader_rendered` — what is recorded of the blocks, and found in it;
* `outcomeOfLast_iff` — **the outcome is that of the last block exactly when** every line can be
  read, a first block with `200 OK` is not followed by another status, and no name of the last block
  has an earlier line with another value.
-/

namespace Clarc

open Bytes

/-! ## Header blocks -/

/-- A header block.  `reason` is all that stands behind the status. -/
structure HeaderBlock where
  version : Bytes
  status : ℕ
  reason : Bytes
  lines : List Bytes
  deriving DecidableEq, Repr

namespace HeaderBlock

/-- `HTTP/1.1 200 OK`. -/
def statusLine (b : HeaderBlock) : Bytes :=
  ascii "HTTP/" ++ b.version ++ [32] ++ decimal b.status ++ b.reason

/-- A block has a status of three digits, and its lines are no status lines and not empty. -/
structure Valid (b : HeaderBlock) : Prop where
  status : 100 ≤ b.status ∧ b.status < 1000
  version : 32 ∉ b.version ∧ 10 ∉ b.version ∧ 0 ∉ b.version
  reason : 10 ∉ b.reason ∧ 0 ∉ b.reason ∧ (b.reason = [] ∨ b.reason.head? = some 32)
  lines : ∀ line ∈ b.lines, line ≠ [] ∧ 10 ∉ line ∧ 0 ∉ line ∧ ¬ ascii "HTTP/" <+: line

/-- The lines of a block as they are sent, with the empty one that ends it. -/
def sentLines (b : HeaderBlock) : List Bytes := b.statusLine :: b.lines ++ [[]]

end HeaderBlock

/-- The text of lines. -/
def renderLines (lines : List Bytes) : Bytes := lines.flatMap (· ++ [13, 10])

/-- The text of blocks. -/
def renderBlocks (blocks : List HeaderBlock) : Bytes :=
  renderLines (blocks.flatMap HeaderBlock.sentLines)

/-- The line is a header of this name. -/
def named (n line : Bytes) : Bool := (splitColon line).any fun h => h.1.map tolower == n

/-- What stands behind the colon of the first header of a name. -/
def firstNamed (n : Bytes) (lines : List Bytes) : Option Bytes :=
  (lines.find? (named n)).bind fun line => (splitColon line).map Prod.snd

/-- The value a block has for a name in lower case. -/
def HeaderBlock.value? (b : HeaderBlock) (n : Bytes) : Option Bytes :=
  (firstNamed n b.lines).map dropBlank

/-- The lines of all blocks that `parseHeaders` takes for headers. -/
def takenForHeaders (lines : List Bytes) : List Bytes :=
  lines.filter fun line => ! decide (ascii "HTTP/1" <+: line)

/-! ## What is recorded of them -/

/-- A text that begins with lines. -/
lemma headerLines_renderLines {lines : List Bytes} (h : ∀ line ∈ lines, 10 ∉ line ∧ 0 ∉ line)
    (rest : Bytes) : headerLines (renderLines lines ++ rest) =
      lines.map (· ++ [13]) ++ headerLines rest := by
  induction lines with
  | nil => rfl
  | cons line lines ih =>
      obtain ⟨hline, hnul⟩ := h line List.mem_cons_self
      have htext : renderLines (line :: lines) ++ rest =
          (line ++ [13]) ++ 10 :: (renderLines lines ++ rest) := by
        simp [renderLines]
      have hline' : 10 ∉ line ++ [13] := by simp [hline]
      have hnul' : 0 ∉ line ++ [13] := by simp [hnul]
      rw [htext, headerLines_append hline' hnul',
        ih fun l hl => h l (List.mem_cons_of_mem line hl)]
      rfl

/-- What does not end with a carriage return begins a line with or without one at its end. -/
lemma begins_concat {word line : Bytes} (hword : word.getLast? ≠ some 13) :
    word <+: line ++ [13] ↔ word <+: line := by
  rw [List.prefix_concat_iff]
  constructor
  · rintro (heq | h)
    · rw [heq, List.getLast?_concat] at hword
      exact absurd rfl hword
    · exact h
  · exact Or.inr

/-- The carriage return at its end does not make a line a status line. -/
lemma status_prefix_concat {line : Bytes} :
    ascii "HTTP/1" <+: line ++ [13] ↔ ascii "HTTP/1" <+: line := begins_concat (by decide)

/-- The header that a line is read as. -/
def cutLine (line : Bytes) : Option (Bytes × Bytes) :=
  (splitColon line).map fun h => (h.1.map tolower, h.2.drop 1)

/-- A line, as it is sent, is read when it is empty, a status line or has a colon. -/
lemma parseHeaderLine_sent {line : Bytes}
    (h : line = [] ∨ ascii "HTTP/1" <+: line ∨ 58 ∈ line) :
    parseHeaderLine (line ++ [13]) =
      some ((takenForHeaders [line]).filterMap cutLine) := by
  by_cases hstatus : ascii "HTTP/1" <+: line
  · rw [parseHeaderLine_status (status_prefix_concat.mpr hstatus)]
    simp [takenForHeaders, hstatus]
  · have htaken : takenForHeaders [line] = [line] := by simp [takenForHeaders, hstatus]
    rw [htaken]
    rcases h with rfl | hbegins | hcolon
    · rfl
    · exact absurd hbegins hstatus
    · obtain ⟨name, rest, rfl, hname⟩ := List.eq_append_cons_of_mem hcolon
      rw [parseHeaderLine_colon hname (fun hp => hstatus (status_prefix_concat.mp hp))]
      simp [cutLine, splitColon_append hname]

/-- Lines that can be read are recorded in their order. -/
lemma parseHeaderLines_sent {lines : List Bytes}
    (h : ∀ line ∈ lines, line = [] ∨ ascii "HTTP/1" <+: line ∨ 58 ∈ line) :
    parseHeaderLines (lines.map (· ++ [13]) ++ [[]]) =
      some ((takenForHeaders lines).filterMap cutLine) := by
  induction lines with
  | nil => rfl
  | cons line lines ih =>
      have hcons : takenForHeaders (line :: lines) =
          takenForHeaders [line] ++ takenForHeaders lines := by
        rw [takenForHeaders, ← List.singleton_append, List.filter_append]
        rfl
      rw [List.map_cons, List.cons_append, parseHeaderLines_cons,
        parseHeaderLine_sent (h line List.mem_cons_self),
        ih fun l hl => h l (List.mem_cons_of_mem line hl), hcons, List.filterMap_append]
      rfl

/-- A line that is no header, no status line and not empty loses the process. -/
lemma parseHeaderLines_sent_ne_none {lines : List Bytes} {headers : List (Bytes × Bytes)}
    (hparse : parseHeaderLines (lines.map (· ++ [13]) ++ [[]]) = some headers) :
    ∀ line ∈ lines, line = [] ∨ ascii "HTTP/1" <+: line ∨ 58 ∈ line := by
  intro line hline
  obtain ⟨records, hrecords, -⟩ := parseHeaderLines_eq_some.mp hparse
  have hmem : line ++ [13] ∈ lines.map (· ++ [13]) ++ [[]] :=
    List.mem_append_left _ (List.mem_map_of_mem hline)
  obtain ⟨i, hi⟩ := List.mem_iff_getElem?.mp hmem
  obtain ⟨record, -, hrecord⟩ := exists_record hrecords hi
  by_contra hnone
  rw [not_or, not_or] at hnone
  obtain ⟨hne, hstatus, hcolon⟩ := hnone
  have hlong : 2 ≤ (line ++ [13]).length := by
    have hpos := List.length_pos_of_ne_nil hne
    rw [List.length_append, List.length_singleton]
    omega
  rw [parseHeaderLine_eq_none.mpr ⟨hlong, fun hp => hstatus (status_prefix_concat.mp hp),
    by rwa [List.dropLast_concat]⟩] at hrecord
  cases hrecord

/-! ## What is found in them -/

lemma named_eq_true {n line : Bytes} :
    named n line = true ↔ ∃ cut ∈ splitColon line, cut.1.map tolower = n := by
  rw [named, Option.any_eq_true]
  simp

/-- `go` keeps what `parseHeaders` records. -/
lemma go_headers {r : Response} {t : Transfer} (h : r.go = some t) :
    parseHeaders r.headers = some t.resultingHeaders := by
  unfold Response.go at h
  split at h
  next => cases h
  next headers hparse =>
    obtain rfl := Option.some.inj h
    exact hparse

/-- `getHeader` finds the first line of a name, and gives what stands one character behind its
colon. -/
lemma getHeader_sent {t : Transfer} {lines : List Bytes}
    (h : t.resultingHeaders = (takenForHeaders lines).filterMap cutLine) (n : Bytes) :
    t.getHeader n = (firstNamed n (takenForHeaders lines)).map (·.drop 1) := by
  have hnamed : ∀ line, ((cutLine line).any fun h => h.1 == n) = named n line := by
    intro line
    rw [cutLine, named, Option.any_map]
  rw [Transfer.getHeader, h, List.find?_filterMap, firstNamed]
  simp only [hnamed]
  cases (takenForHeaders lines).find? (named n) with
  | none => rfl
  | some line =>
      simp only [Option.bind_some, cutLine, Option.map_map]
      rfl

/-- A name has a value in a block when a line of it has the name. -/
lemma exists_line_of_value {b : HeaderBlock} {n v : Bytes} (h : b.value? n = some v) :
    ∃ line ∈ b.lines, ∃ cut ∈ splitColon line, cut.1.map tolower = n := by
  obtain ⟨rest, hrest, -⟩ := Option.map_eq_some_iff.mp h
  obtain ⟨line, hfind, -⟩ := Option.bind_eq_some_iff.mp hrest
  obtain ⟨cut, hcut, hname⟩ := named_eq_true.mp (List.find?_some hfind)
  exact ⟨line, List.mem_of_find?_eq_some hfind, cut, hcut, hname⟩

lemma exists_value_of_line {b : HeaderBlock} {line : Bytes} {cut : Bytes × Bytes}
    (hline : line ∈ b.lines) (hcut : cut ∈ splitColon line) :
    ∃ v, b.value? (cut.1.map tolower) = some v := by
  have hnamed : named (cut.1.map tolower) line = true := named_eq_true.mpr ⟨cut, hcut, rfl⟩
  obtain ⟨first, hfind⟩ := Option.isSome_iff_exists.mp
    (List.find?_isSome.mpr ⟨line, hline, hnamed⟩)
  obtain ⟨cut', hcut', -⟩ := named_eq_true.mp (List.find?_some hfind)
  refine ⟨dropBlank cut'.2, ?_⟩
  rw [HeaderBlock.value?, firstNamed, hfind, Option.bind_some, Option.mem_def.mp hcut']
  rfl

/-! ## The outcome -/

/-- After `go` the status is that of the last block, and `getHeader` has its values. -/
def OutcomeOfLast (r : Response) (last : HeaderBlock) : Prop :=
  ∃ t, r.go = some t ∧ t.httpStatusCode = last.status ∧
    ∀ n v, last.value? n = some v → t.getHeader n = some v

/-- The blocks for which the last one decides: every line is a header or a status line of HTTP/1, a
`200 OK` at the beginning of the text is not followed by another status, and each header of the last
block has, in the first line of its name in any block, its value one character behind the colon. -/
structure LastDecides (blocks : List HeaderBlock) (last : HeaderBlock) : Prop where
  colon : ∀ b ∈ blocks, ∀ line ∈ b.statusLine :: b.lines,
    ascii "HTTP/1" <+: line ∨ 58 ∈ line
  status : ∀ b ∈ blocks.head?, ascii "HTTP/1.1 200 OK" <+: b.statusLine → last.status = 200
  values : ∀ line ∈ last.lines, ∀ cut ∈ splitColon line,
    (firstNamed (cut.1.map tolower)
        (takenForHeaders (blocks.flatMap fun b => b.statusLine :: b.lines))).map (·.drop 1) =
      last.value? (cut.1.map tolower)

instance (blocks : List HeaderBlock) (last : HeaderBlock) : Decidable (LastDecides blocks last) :=
  decidable_of_iff
    ((∀ b ∈ blocks, ∀ line ∈ b.statusLine :: b.lines, ascii "HTTP/1" <+: line ∨ 58 ∈ line) ∧
      (∀ b ∈ blocks.head?, ascii "HTTP/1.1 200 OK" <+: b.statusLine → last.status = 200) ∧
      ∀ line ∈ last.lines, ∀ cut ∈ splitColon line,
        (firstNamed (cut.1.map tolower)
            (takenForHeaders (blocks.flatMap fun b => b.statusLine :: b.lines))).map (·.drop 1) =
          last.value? (cut.1.map tolower))
    ⟨fun h => ⟨h.1, h.2.1, h.2.2⟩, fun h => ⟨h.colon, h.status, h.values⟩⟩

lemma HeaderBlock.statusLine_length_pos (b : HeaderBlock) : 0 < b.statusLine.length := by
  rw [HeaderBlock.statusLine]
  simp only [List.length_append, List.length_singleton]
  omega

/-- A status line stays on its line. -/
lemma HeaderBlock.Valid.statusLine {b : HeaderBlock} (h : b.Valid) :
    10 ∉ b.statusLine ∧ 0 ∉ b.statusLine := by
  have hdigits : ∀ c ∈ decimal b.status, c ≠ 10 ∧ c ≠ 0 := by
    intro c hc
    have hdigit := decimal_digits b.status c hc
    refine ⟨?_, ?_⟩
    · rintro rfl
      exact hdigit rfl
    · rintro rfl
      exact hdigit rfl
  have hlf : 10 ∉ decimal b.status := fun hc => (hdigits 10 hc).1 rfl
  have hnul : 0 ∉ decimal b.status := fun hc => (hdigits 0 hc).2 rfl
  have hlf' : 10 ∉ ascii "HTTP/" := by decide
  have hnul' : 0 ∉ ascii "HTTP/" := by decide
  refine ⟨?_, ?_⟩
  · simp [HeaderBlock.statusLine, h.version.2.1, h.reason.1, hlf, hlf']
  · simp [HeaderBlock.statusLine, h.version.2.2, h.reason.2.1, hnul, hnul']

lemma HeaderBlock.Valid.sentLines {b : HeaderBlock} (h : b.Valid) :
    ∀ line ∈ b.sentLines, 10 ∉ line ∧ 0 ∉ line := by
  intro line hline
  simp only [HeaderBlock.sentLines, List.cons_append, List.mem_cons, List.mem_append,
    List.not_mem_nil, or_false] at hline
  rcases hline with rfl | hline | rfl
  · exact h.statusLine
  · obtain ⟨-, hlf, hnul, -⟩ := h.lines line hline
    exact ⟨hlf, hnul⟩
  · exact ⟨List.not_mem_nil, List.not_mem_nil⟩

/-- The empty lines between the blocks have no header. -/
lemma firstNamed_sentLines (n : Bytes) (blocks : List HeaderBlock) :
    firstNamed n (takenForHeaders (blocks.flatMap HeaderBlock.sentLines)) =
      firstNamed n (takenForHeaders (blocks.flatMap fun b => b.statusLine :: b.lines)) := by
  unfold firstNamed takenForHeaders
  congr 1
  induction blocks with
  | nil => rfl
  | cons b blocks ih =>
      simp only [List.flatMap_cons, List.filter_append, List.find?_append, ih]
      congr 1
      have hend : (([[]] : List Bytes).filter
          fun line => ! decide (ascii "HTTP/1" <+: line)).find? (named n) = none := by
        simp [named, splitColon]
      rw [HeaderBlock.sentLines, List.filter_append, List.find?_append, hend, Option.or_none]

/-- The text begins with the status line of the first block. -/
lemma startsWith200_sent {headers : Bytes} {b : HeaderBlock} {rest : List Bytes}
    (h : headerLines headers = (b.statusLine ++ [13]) :: rest) :
    startsWith200 headers = true ↔ ascii "HTTP/1.1 200 OK" <+: b.statusLine := by
  have hlong : 1 < (b.statusLine ++ [13]).length := by
    have hpos := b.statusLine_length_pos
    rw [List.length_append, List.length_singleton]
    omega
  have hfirst : firstLine headers = b.statusLine ++ [13] := by rw [firstLine, h, List.headD_cons]
  have hcut : ascii "HTTP/1.1 200 OK" <+: b.statusLine ++ [13] ↔
      ascii "HTTP/1.1 200 OK" <+: b.statusLine := begins_concat (by decide)
  rw [startsWith200, hfirst, Bool.and_eq_true, decide_eq_true_iff, decide_eq_true_iff, hcut]
  exact and_iff_right hlong

/-- The lines of valid blocks are readable when all that are sent are. -/
lemma sent_readable {blocks : List HeaderBlock} (hvalid : ∀ b ∈ blocks, b.Valid) :
    (∀ b ∈ blocks, ∀ line ∈ b.statusLine :: b.lines, ascii "HTTP/1" <+: line ∨ 58 ∈ line) ↔
      ∀ line ∈ blocks.flatMap HeaderBlock.sentLines,
        line = [] ∨ ascii "HTTP/1" <+: line ∨ 58 ∈ line := by
  constructor
  · intro h line hline
    obtain ⟨b, hb, hmem⟩ := List.mem_flatMap.mp hline
    rcases List.mem_append.mp hmem with hmem | hmem
    · exact Or.inr (h b hb line hmem)
    · exact Or.inl (List.mem_singleton.mp hmem)
  · intro h b hb line hline
    have hne : line ≠ [] := by
      rcases List.mem_cons.mp hline with rfl | hmem
      · exact List.ne_nil_of_length_pos b.statusLine_length_pos
      · exact ((hvalid b hb).lines line hmem).1
    have hsent : line ∈ blocks.flatMap HeaderBlock.sentLines :=
      List.mem_flatMap.mpr ⟨b, hb, List.mem_append_left _ hline⟩
    exact (h line hsent).resolve_left hne

/-- **The outcome of a transfer is that of its last response exactly when the last one decides.** -/
theorem outcomeOfLast_iff {blocks : List HeaderBlock} {last : HeaderBlock}
    (hvalid : ∀ b ∈ blocks, b.Valid) (hlast : blocks.getLast? = some last)
    {chunks : List Bytes} (hchunks : chunks.flatten = renderBlocks blocks) {r : Response}
    (hheaders : r.headers = (received chunks).headers) (hcode : r.responseCode = last.status) :
    OutcomeOfLast r last ↔ LastDecides blocks last := by
  have hsent : ∀ line ∈ blocks.flatMap HeaderBlock.sentLines, 10 ∉ line ∧ 0 ∉ line := by
    intro line hline
    obtain ⟨b, hb, hmem⟩ := List.mem_flatMap.mp hline
    exact (hvalid b hb).sentLines line hmem
  have hlines : headerLines r.headers =
      (blocks.flatMap HeaderBlock.sentLines).map (· ++ [13]) ++ [[]] := by
    rw [hheaders, received_headers, hchunks, renderBlocks, headerLines_renderLines hsent]
    rfl
  obtain ⟨first, others, rfl⟩ : ∃ first others, blocks = first :: others := by
    cases blocks with
    | nil => cases hlast
    | cons first others => exact ⟨first, others, rfl⟩
  have hstart : startsWith200 r.headers = true ↔
      ascii "HTTP/1.1 200 OK" <+: first.statusLine := by
    exact startsWith200_sent hlines
  have hread : (∀ b ∈ first :: others, ∀ line ∈ b.statusLine :: b.lines,
        ascii "HTTP/1" <+: line ∨ 58 ∈ line) ↔
      ∀ line ∈ (first :: others).flatMap HeaderBlock.sentLines,
        line = [] ∨ ascii "HTTP/1" <+: line ∨ 58 ∈ line := sent_readable hvalid
  constructor
  · rintro ⟨t, ht, hstatus, hvalues⟩
    have hparse : parseHeaders r.headers = some t.resultingHeaders := go_headers ht
    have hall : ∀ line ∈ (first :: others).flatMap HeaderBlock.sentLines,
        line = [] ∨ ascii "HTTP/1" <+: line ∨ 58 ∈ line := by
      rw [parseHeaders, hlines] at hparse
      exact parseHeaderLines_sent_ne_none hparse
    refine ⟨hread.mpr hall, ?_, ?_⟩
    · intro b hb h200
      obtain rfl : first = b := Option.some.inj hb
      rw [go_status ht, if_pos (hstart.mpr h200)] at hstatus
      exact hstatus.symm
    · intro line hline cut hcut
      have hrecorded : t.resultingHeaders = (takenForHeaders
          ((first :: others).flatMap HeaderBlock.sentLines)).filterMap cutLine := by
        rw [parseHeaders, hlines, parseHeaderLines_sent hall] at hparse
        exact (Option.some.inj hparse).symm
      obtain ⟨v, hv⟩ := exists_value_of_line hline hcut
      rw [hv, ← firstNamed_sentLines, ← getHeader_sent hrecorded]
      exact hvalues _ _ hv
  · rintro ⟨hcolon, hstatus, hvalues⟩
    have hparse : parseHeaders r.headers = some ((takenForHeaders
        ((first :: others).flatMap HeaderBlock.sentLines)).filterMap cutLine) := by
      rw [parseHeaders, hlines]
      exact parseHeaderLines_sent (hread.mp hcolon)
    refine ⟨_, by rw [Response.go, hparse], ?_, ?_⟩
    · by_cases h200 : startsWith200 r.headers = true
      · rw [hstatus first rfl (hstart.mp h200)]
        exact if_pos h200
      · rw [← hcode]
        exact if_neg h200
    · intro n v hv
      obtain ⟨line, hline, cut, hcut, rfl⟩ := exists_line_of_value hv
      rw [getHeader_sent rfl, firstNamed_sentLines, hvalues line hline cut hcut, hv]

/-- An interim response, and the answer to the PUT. -/
theorem outcomeOfLast_iff_continue :
    OutcomeOfLast
      ⟨.ok, 200, (received [ascii "HTTP/1.1 100 Continue\r\n\r\n",
        ascii "HTTP/1.1 200 OK\r\nETag: abc\r\n\r\n"]).headers, .unparsable, []⟩
      ⟨ascii "1.1", 200, ascii " OK", [ascii "ETag: abc"]⟩ := by
  have hvalid : ∀ b ∈ [⟨ascii "1.1", 100, ascii " Continue", []⟩,
      ⟨ascii "1.1", 200, ascii " OK", [ascii "ETag: abc"]⟩], HeaderBlock.Valid b := by
    intro b hb
    simp only [List.mem_cons, List.not_mem_nil, or_false] at hb
    rcases hb with rfl | rfl
    · exact ⟨by decide, by decide, by decide, by decide⟩
    · exact ⟨by decide, by decide, by decide, by decide⟩
  exact (outcomeOfLast_iff hvalid rfl (by decide) rfl rfl).mpr (by decide)

/-- A proxy accepts the connection, and the server refuses the request. -/
theorem refused_behind_proxy :
    ¬ ∀ (blocks : List HeaderBlock) (last : HeaderBlock) (chunks : List Bytes) (r : Response),
      (∀ b ∈ blocks, b.Valid) → blocks.getLast? = some last →
        chunks.flatten = renderBlocks blocks → r.headers = (received chunks).headers →
          r.responseCode = last.status → OutcomeOfLast r last := by
  intro h
  have hvalid : ∀ b ∈ [⟨ascii "1.1", 200, ascii " OK", []⟩,
      ⟨ascii "1.1", 403, ascii " Forbidden", []⟩], HeaderBlock.Valid b := by
    intro b hb
    simp only [List.mem_cons, List.not_mem_nil, or_false] at hb
    rcases hb with rfl | rfl
    · exact ⟨by decide, by decide, by decide, by decide⟩
    · exact ⟨by decide, by decide, by decide, by decide⟩
  obtain ⟨t, ht, hstatus, -⟩ := h _ ⟨ascii "1.1", 403, ascii " Forbidden", []⟩
    [ascii "HTTP/1.1 200 OK\r\n\r\n", ascii "HTTP/1.1 403 Forbidden\r\n\r\n"]
    ⟨.ok, 403, (received [ascii "HTTP/1.1 200 OK\r\n\r\n",
      ascii "HTTP/1.1 403 Forbidden\r\n\r\n"]).headers, .unparsable, []⟩
    hvalid rfl (by decide) rfl rfl
  have h200 : startsWith200 (received [ascii "HTTP/1.1 200 OK\r\n\r\n",
      ascii "HTTP/1.1 403 Forbidden\r\n\r\n"]).headers = true := by decide
  rw [go_status ht, if_pos h200] at hstatus
  cases hstatus

end Clarc
