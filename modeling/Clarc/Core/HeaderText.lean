import Clarc.Core.Bytes

/-!
# Header lines

A list of headers goes over the wire as text: `name: value` and a line end for each.  A receiver
cuts the text at the line ends, each line at its first colon, and drops the blanks around what
follows it.  It gets the headers that were written exactly when no value contains a line feed or
has a blank at either end (`receive_write_iff`): a value with a line feed is read as two lines, and
there is no way to read fewer lines than that.
-/

namespace HeaderText

/-- The blanks a receiver drops around a value. -/
def isBlank (c : UInt8) : Bool := c == 32 || c == 9

/-- A header's line, with its line end. -/
def writeLine (h : Bytes × Bytes) : Bytes := h.1 ++ [58, 32] ++ h.2 ++ [13, 10]

/-- The text of a list of headers. -/
def write (headers : List (Bytes × Bytes)) : Bytes := headers.flatMap writeLine

/-- A line without the carriage return at its end. -/
def dropReturn (line : Bytes) : Bytes :=
  if line.getLast? = some 13 then line.dropLast else line

/-- The lines of a text: what precedes each line feed. -/
def lines (text : Bytes) : List Bytes := (text.splitOn 10).dropLast.map dropReturn

/-- A value without the blanks around it. -/
def strip (value : Bytes) : Bytes := (value.dropWhile isBlank).rdropWhile isBlank

/-- A line cut at its first colon, if it has one. -/
def receiveLine (line : Bytes) : Option (Bytes × Bytes) :=
  if 58 ∈ line then
    some (line.takeWhile (· ≠ 58), strip ((line.dropWhile (· ≠ 58)).drop 1))
  else none

/-- The headers of lines, `none` when one of them has no colon. -/
def receiveLines : List Bytes → Option (List (Bytes × Bytes))
  | [] => some []
  | line :: rest =>
      match receiveLine line, receiveLines rest with
      | some h, some headers => some (h :: headers)
      | _, _ => none

/-- The headers a receiver reads from a text. -/
def receive (text : Bytes) : Option (List (Bytes × Bytes)) := receiveLines (lines text)

/-- A name has neither a colon nor a line feed. -/
structure Name (name : Bytes) : Prop where
  noColon : 58 ∉ name
  noLineFeed : 10 ∉ name

/-- A value is on one line and has no blank at either end. -/
structure Plain (value : Bytes) : Prop where
  noLineFeed : 10 ∉ value
  first : ∀ c ∈ value.head?, isBlank c = false
  last : ∀ c ∈ value.getLast?, isBlank c = false

instance (name : Bytes) : Decidable (Name name) :=
  decidable_of_iff (58 ∉ name ∧ 10 ∉ name) ⟨fun h => ⟨h.1, h.2⟩, fun h => ⟨h.1, h.2⟩⟩

instance (value : Bytes) : Decidable (Plain value) :=
  decidable_of_iff (10 ∉ value ∧ (∀ c ∈ value.head?, isBlank c = false) ∧
    ∀ c ∈ value.getLast?, isBlank c = false)
    ⟨fun h => ⟨h.1, h.2.1, h.2.2⟩, fun h => ⟨h.1, h.2, h.3⟩⟩

/-! ## Values -/

/-- Stripping leaves a value alone exactly when it has no blank at either end. -/
lemma strip_eq_self_iff (value : Bytes) : strip value = value ↔
    (∀ c ∈ value.head?, isBlank c = false) ∧ ∀ c ∈ value.getLast?, isBlank c = false := by
  constructor
  · intro h
    have hle : (strip value).length ≤ (value.dropWhile isBlank).length :=
      (List.rdropWhile_prefix isBlank _).length_le
    have hdrop : value.dropWhile isBlank = value :=
      (List.dropWhile_suffix isBlank).eq_of_length_le (by rw [h] at hle; exact hle)
    have hrdrop : value.rdropWhile isBlank = value := by rwa [strip, hdrop] at h
    refine ⟨?_, ?_⟩
    · intro c hc
      rcases value with _ | ⟨a, value⟩
      · cases hc
      · obtain rfl := Option.some.inj hc
        have hfirst := List.dropWhile_eq_self_iff.mp hdrop (Nat.succ_pos _)
        exact Bool.eq_false_iff.mpr hfirst
    · intro c hc
      rw [List.rdropWhile_eq_self_iff] at hrdrop
      have hne : value ≠ [] := by
        rintro rfl
        cases hc
      rw [List.getLast?_eq_some_getLast hne] at hc
      cases hc
      simpa using hrdrop hne
  · rintro ⟨hfirst, hlast⟩
    have hdrop : value.dropWhile isBlank = value := by
      rcases value with _ | ⟨a, value⟩
      · rfl
      · rw [List.dropWhile_cons_of_neg (by simpa using hfirst a rfl)]
    rw [strip, hdrop, List.rdropWhile_eq_self_iff]
    intro hne
    simpa using hlast _ (List.getLast?_eq_some_getLast hne)

lemma plain_iff_strip (value : Bytes) : Plain value ↔ 10 ∉ value ∧ strip value = value := by
  rw [strip_eq_self_iff]
  exact ⟨fun h => ⟨h.1, h.2, h.3⟩, fun h => ⟨h.1, h.2.1, h.2.2⟩⟩

/-- The blank that is written before a value goes. -/
lemma strip_blank (value : Bytes) : strip (32 :: value) = strip value := by
  rw [strip, List.dropWhile_cons_of_pos rfl, strip]

/-- A beginning without a blank in front and an end without one behind. -/
lemma plain_append {a b : Bytes} (ha : a ≠ []) (hb : b ≠ [])
    (hfirst : ∀ c ∈ a.head?, isBlank c = false) :
    Plain (a ++ b) ↔ 10 ∉ a ∧ 10 ∉ b ∧ ∀ c ∈ b.getLast?, isBlank c = false := by
  have hhead : (a ++ b).head? = a.head? := List.head?_append_of_ne_nil a ha
  have hlast : (a ++ b).getLast? = b.getLast? := List.getLast?_append_of_ne_nil a hb
  constructor
  · intro h
    have hline := h.noLineFeed
    rw [List.mem_append, not_or] at hline
    exact ⟨hline.1, hline.2, fun c hc => h.last c (by rwa [hlast])⟩
  · rintro ⟨hlinea, hlineb, hlastb⟩
    refine ⟨?_, ?_, ?_⟩
    · rw [List.mem_append, not_or]
      exact ⟨hlinea, hlineb⟩
    · rwa [hhead]
    · rwa [hlast]

/-! ## Lines -/

/-- There is a line for each line feed. -/
lemma length_lines (text : Bytes) : (lines text).length = text.count 10 := by
  have hsplit : (text.splitOn 10).length = text.count 10 + 1 := by
    induction text with
    | nil => rfl
    | cons c text ih =>
        rw [List.splitOn_cons_eq_if_modifyHead, List.count_cons]
        split_ifs
        · rw [List.length_cons, ih]
        · rw [List.length_modifyHead, ih, Nat.add_zero]
  rw [lines, List.length_map, List.length_dropLast, hsplit, Nat.add_sub_cancel]

/-- A text that begins with a line. -/
lemma lines_append {line : Bytes} (hline : 10 ∉ line) (rest : Bytes) :
    lines (line ++ [13, 10] ++ rest) = line :: lines rest := by
  have htext : line ++ [13, 10] ++ rest = (line ++ [13]) ++ 10 :: rest := by simp
  have hreturn : dropReturn (line ++ [13]) = line := by simp [dropReturn]
  have hnot : (10 : UInt8) ∉ line ++ [13] := by simp [hline]
  rw [htext, lines, List.splitOn_append_cons_self_of_not_mem hnot,
    List.dropLast_cons_of_ne_nil (List.splitOn_ne_nil 10 rest), List.map_cons, hreturn, lines]

lemma length_receiveLines : ∀ {ls : List Bytes} {headers : List (Bytes × Bytes)},
    receiveLines ls = some headers → ls.length = headers.length
  | [], headers, h => by
      obtain rfl := Option.some.inj h
      rfl
  | line :: rest, headers, h => by
      unfold receiveLines at h
      split at h
      next h' headers' _ hrest =>
        obtain rfl := Option.some.inj h
        rw [List.length_cons, List.length_cons, length_receiveLines hrest]
      · cases h

/-- The line of a header, cut. -/
lemma receiveLine_written {name value : Bytes} (hname : 58 ∉ name) :
    receiveLine (name ++ [58, 32] ++ value) = some (name, strip value) := by
  have hmem : (58 : UInt8) ∈ name ++ [58, 32] ++ value := by simp
  have hcut : name ++ [58, 32] ++ value = name ++ 58 :: 32 :: value := by simp
  rw [receiveLine, if_pos hmem, hcut, Bytes.takeWhile_ne hname,
    Bytes.dropWhile_ne hname]
  simp [strip_blank]

/-! ## Reading what was written -/

/-- Values without a line feed are received, without the blanks around them. -/
lemma receive_write : ∀ {headers : List (Bytes × Bytes)},
    (∀ h ∈ headers, Name h.1) → (∀ h ∈ headers, 10 ∉ h.2) →
      receive (write headers) = some (headers.map fun h => (h.1, strip h.2))
  | [], _, _ => rfl
  | (name, value) :: rest, hnames, hvalues => by
      have hname := hnames (name, value) List.mem_cons_self
      have hvalue := hvalues (name, value) List.mem_cons_self
      have hline : (10 : UInt8) ∉ name ++ [58, 32] ++ value := by
        simp [hname.noLineFeed, hvalue]
      have hrest : receiveLines (lines (write rest)) = some _ :=
        receive_write (fun h hh => hnames h (List.mem_cons_of_mem _ hh))
          fun h hh => hvalues h (List.mem_cons_of_mem _ hh)
      have hwrite : write ((name, value) :: rest) =
          name ++ [58, 32] ++ value ++ [13, 10] ++ write rest := rfl
      rw [receive, hwrite, lines_append hline, receiveLines, receiveLine_written hname.noColon,
        hrest]
      rfl

/-- Each header is written with a line feed, and with those of its value. -/
lemma count_write {headers : List (Bytes × Bytes)} (hnames : ∀ h ∈ headers, Name h.1) :
    (write headers).count 10 = headers.length + (headers.map fun h => h.2.count 10).sum := by
  induction headers with
  | nil => rfl
  | cons h headers ih =>
      have hname : h.1.count 10 = 0 :=
        List.count_eq_zero.mpr (hnames h List.mem_cons_self).noLineFeed
      have hwrite : write (h :: headers) =
          h.1 ++ [58, 32] ++ h.2 ++ [13, 10] ++ write headers := rfl
      rw [hwrite]
      simp only [List.count_append, List.map_cons, List.sum_cons, List.length_cons, hname,
        ih fun g hg => hnames g (List.mem_cons_of_mem h hg)]
      have hcolon : List.count (10 : UInt8) [58, 32] = 0 := by decide
      have hend : List.count (10 : UInt8) [13, 10] = 1 := by decide
      omega

/-- **A receiver reads the headers that were written exactly when every value is plain.** -/
theorem receive_write_iff {headers : List (Bytes × Bytes)} (hnames : ∀ h ∈ headers, Name h.1) :
    receive (write headers) = some headers ↔ ∀ h ∈ headers, Plain h.2 := by
  constructor
  · intro hreceive
    -- as many lines as headers leave no line feed to the values
    have hlength := length_receiveLines hreceive
    rw [length_lines, count_write hnames] at hlength
    have hsum : (headers.map fun h => h.2.count 10).sum = 0 := by omega
    have hline : ∀ h ∈ headers, (10 : UInt8) ∉ h.2 := by
      intro h hh
      have hzero := List.sum_eq_zero_iff.mp hsum _ (List.mem_map_of_mem hh)
      exact List.count_eq_zero.mp hzero
    intro h hh
    refine (plain_iff_strip h.2).mpr ⟨hline h hh, ?_⟩
    rw [receive_write hnames hline, Option.some.injEq] at hreceive
    have hself : headers.map (fun h => (h.1, strip h.2)) = headers.map id := by
      rw [hreceive, List.map_id]
    exact congrArg Prod.snd (List.map_inj_left.mp hself h hh)
  · intro hplain
    have hline : ∀ h ∈ headers, (10 : UInt8) ∉ h.2 := fun h hh => (hplain h hh).noLineFeed
    have hself : headers.map (fun h => (h.1, strip h.2)) = headers.map id := by
      refine List.map_inj_left.mpr fun h hh => ?_
      rw [((plain_iff_strip h.2).mp (hplain h hh)).2]
      rfl
    rw [receive_write hnames hline, hself, List.map_id]

end HeaderText
