import Clarc.Core.Bytes

/-!
# Escaped text and tags

An escaper replaces some characters by words that begin with a marker, and a reader replaces the
words in one pass from left to right.  What was escaped is read back when the marker is escaped
itself and no word begins another (`Escaping.decode_encode`).

A document is a sequence of texts and tags.  As long as no text has the character that opens a tag,
and no name of a tag has either bracket, a search in what was written finds the pieces it was
written from and nothing else: so often does a tag occur (`occurrences_render`), this stands between
two tags (`between_render`), these are the tags (`tags_render`).
-/

/-! ## Escaping -/

/-- Words for characters.  Each begins with the marker, which has a word itself, and none begins
another. -/
structure Escaping (α : Type*) where
  marker : α
  words : List (List α × α)
  starts : ∀ e ∈ words, e.1.head? = some marker
  marked : ∃ e ∈ words, e.2 = marker
  apart : ∀ e ∈ words, ∀ e' ∈ words, e.1 <+: e'.1 → e = e'

namespace Escaping

variable {α : Type*} [DecidableEq α] (t : Escaping α)

/-- A character as it is written. -/
def encodeChar (c : α) : List α :=
  match t.words.find? fun e => e.2 == c with
  | some e => e.1
  | none => [c]

/-- A text as it is written. -/
def encode (s : List α) : List α := s.flatMap t.encodeChar

/-- One pass from left to right that replaces the words; the number counts the characters that still
belong to the word before. -/
def decodeFrom : ℕ → List α → List α
  | _, [] => []
  | skip + 1, _ :: rest => decodeFrom skip rest
  | 0, c :: rest =>
      match t.words.find? fun e => decide (e.1 <+: c :: rest) with
      | some e => e.2 :: decodeFrom (e.1.length - 1) rest
      | none => c :: decodeFrom 0 rest

/-- A text as it is read. -/
def decode (s : List α) : List α := t.decodeFrom 0 s

variable {t}

lemma decodeFrom_append (a b : List α) : t.decodeFrom a.length (a ++ b) = t.decodeFrom 0 b := by
  induction a with
  | nil => rfl
  | cons c a ih => exact ih

/-- A word is read as its character. -/
lemma decode_word {e : List α × α} (he : e ∈ t.words) (rest : List α) :
    t.decode (e.1 ++ rest) = e.2 :: t.decode rest := by
  obtain ⟨tail, hword⟩ : ∃ tail, e.1 = t.marker :: tail := by
    have hstart := t.starts e he
    cases hcases : e.1 with
    | nil =>
        rw [hcases] at hstart
        cases hstart
    | cons c tail =>
        rw [hcases] at hstart
        exact ⟨tail, by rw [Option.some.inj hstart]⟩
  have hfind : t.words.find? (fun e' => decide (e'.1 <+: e.1 ++ rest)) = some e := by
    cases hcases : t.words.find? fun e' => decide (e'.1 <+: e.1 ++ rest) with
    | none =>
        have hnone := List.find?_eq_none.mp hcases e he
        simp at hnone
    | some e' =>
        -- two words that begin the same text are the same word
        have hmem := List.mem_of_find?_eq_some hcases
        have hbegins : e'.1 <+: e.1 ++ rest := by simpa using List.find?_some hcases
        rcases List.prefix_or_prefix_of_prefix hbegins (List.prefix_append e.1 rest) with h | h
        · rw [t.apart e' hmem e he h]
        · rw [t.apart e he e' hmem h]
  rw [hword, List.cons_append] at hfind ⊢
  rw [decode, decodeFrom, hfind]
  dsimp only
  rw [hword, List.length_cons, Nat.add_sub_cancel, decodeFrom_append, decode]

/-- A character without a word is read as itself. -/
lemma decode_plain {c : α} (hc : c ≠ t.marker) (rest : List α) :
    t.decode (c :: rest) = c :: t.decode rest := by
  have hfind : t.words.find? (fun e => decide (e.1 <+: c :: rest)) = none := by
    rw [List.find?_eq_none]
    intro e he hbegins
    have hstart := t.starts e he
    have hbegins' : e.1 <+: c :: rest := by simpa using hbegins
    cases hword : e.1 with
    | nil =>
        rw [hword] at hstart
        cases hstart
    | cons c' tail =>
        rw [hword] at hstart hbegins'
        rw [List.cons_prefix_cons] at hbegins'
        exact hc (hbegins'.1.symm.trans (Option.some.inj hstart))
  rw [decode, decodeFrom, hfind]
  rfl

/-- A character is read back. -/
lemma decode_encodeChar (c : α) (rest : List α) :
    t.decode (t.encodeChar c ++ rest) = c :: t.decode rest := by
  unfold encodeChar
  split
  next e hfind =>
    have hchar : e.2 = c := by simpa using List.find?_some hfind
    rw [decode_word (List.mem_of_find?_eq_some hfind), hchar]
  next hfind =>
    refine decode_plain ?_ rest
    rintro rfl
    obtain ⟨e, he, hmarker⟩ := t.marked
    have hnone := List.find?_eq_none.mp hfind e he
    exact hnone (by simp [hmarker])

/-- **What was escaped is read back.** -/
theorem decode_encode (s : List α) : t.decode (t.encode s) = s := by
  induction s with
  | nil => rfl
  | cons c s ih =>
      have hcons : t.encode (c :: s) = t.encodeChar c ++ t.encode s := rfl
      rw [hcons, decode_encodeChar, ih]

/-- A character that is escaped and in no word is in no escaped text. -/
lemma notMem_encode {c : α} (hescaped : ∃ e ∈ t.words, e.2 = c)
    (hwords : ∀ e ∈ t.words, c ∉ e.1) (s : List α) : c ∉ t.encode s := by
  intro hmem
  obtain ⟨d, -, hc⟩ := List.mem_flatMap.mp hmem
  unfold encodeChar at hc
  split at hc
  next e hfind => exact hwords e (List.mem_of_find?_eq_some hfind) hc
  next hfind =>
    obtain ⟨e, he, heq⟩ := hescaped
    obtain rfl := List.mem_singleton.mp hc
    exact List.find?_eq_none.mp hfind e he (by simp [heq])

end Escaping

/-! ## Tags -/

namespace Markup

variable {α : Type*}

/-! ### What is written -/

section

variable (lt gt : α)

/-- A tag as it is written. -/
def tag (name : List α) : List α := lt :: name ++ [gt]

/-- What a document is written from. -/
inductive Piece (α : Type*)
  | text (s : List α)
  | tag (name : List α)
  deriving DecidableEq

/-- A piece as it is written. -/
def Piece.render : Piece α → List α
  | .text s => s
  | .tag name => Markup.tag lt gt name

/-- No text opens a tag, and no name has a bracket. -/
def Piece.Plain : Piece α → Prop
  | .text s => lt ∉ s
  | .tag name => lt ∉ name ∧ gt ∉ name

instance [DecidableEq α] (piece : Piece α) : Decidable (piece.Plain lt gt) :=
  match piece with
  | .text s => inferInstanceAs (Decidable (lt ∉ s))
  | .tag name => inferInstanceAs (Decidable (lt ∉ name ∧ gt ∉ name))

/-- A document as it is written. -/
def render (pieces : List (Piece α)) : List α := pieces.flatMap (Piece.render lt gt)

/-- The names of the tags among pieces. -/
def names (pieces : List (Piece α)) : List (List α) :=
  pieces.filterMap fun
    | .text _ => none
    | .tag name => some name

end

variable {lt gt : α} {name other : List α}

@[simp] lemma render_nil : render lt gt ([] : List (Piece α)) = [] := rfl

@[simp] lemma render_cons (piece : Piece α) (rest : List (Piece α)) :
    render lt gt (piece :: rest) = piece.render lt gt ++ render lt gt rest := rfl

@[simp] lemma render_append (a b : List (Piece α)) :
    render lt gt (a ++ b) = render lt gt a ++ render lt gt b := by
  rw [render, List.flatMap_append, render, render]

@[simp] lemma names_append (a b : List (Piece α)) : names (a ++ b) = names a ++ names b :=
  List.filterMap_append

/-- **Induction over a document**: a text that opens no tag, or a tag without brackets in its name,
is put before it. -/
@[elab_as_elim]
lemma plain_induction {motive : List (Piece α) → Prop} (hnil : motive [])
    (htext : ∀ s rest, lt ∉ s → motive rest → motive (.text s :: rest))
    (htag : ∀ other rest, lt ∉ other ∧ gt ∉ other → motive rest → motive (.tag other :: rest))
    (pieces : List (Piece α)) (hplain : ∀ piece ∈ pieces, piece.Plain lt gt) : motive pieces := by
  induction pieces with
  | nil => exact hnil
  | cons piece rest ih =>
      have hpiece := hplain piece List.mem_cons_self
      have hrest := ih fun p hp => hplain p (List.mem_cons_of_mem piece hp)
      cases piece with
      | text s => exact htext s rest hpiece hrest
      | tag other => exact htag other rest hpiece hrest

/-- A tag does not begin in a text. -/
lemma not_tag_begins {c : α} (hc : c ≠ lt) (rest : List α) : ¬ tag lt gt name <+: c :: rest := by
  intro h
  rw [tag, List.cons_append, List.cons_prefix_cons] at h
  exact hc h.1.symm

/-! ### What is searched -/

variable [DecidableEq α]

/-- How often a word begins in a text. -/
def occurrences (word : List α) : List α → ℕ
  | [] => 0
  | c :: rest => (if word <+: c :: rest then 1 else 0) + occurrences word rest

/-- What stands before the first occurrence of a word and what stands behind it. -/
def cut (word : List α) : List α → Option (List α × List α)
  | [] => none
  | c :: rest =>
      if word <+: c :: rest then some ([], (c :: rest).drop word.length)
      else (cut word rest).map fun h => (c :: h.1, h.2)

/-- The texts between an opening and the closing word next to it, for so many openings at most. -/
def betweenUpTo (opening closing : List α) : ℕ → List α → List (List α)
  | 0, _ => []
  | n + 1, text =>
      match cut opening text with
      | none => []
      | some (_, rest) =>
          match cut closing rest with
          | none => []
          | some (inner, rest) => inner :: betweenUpTo opening closing n rest

/-- The texts between an opening and the closing word next to it, in their order. -/
def between (opening closing text : List α) : List (List α) :=
  betweenUpTo opening closing text.length text

/-- The names of the tags of a text, in their order; `name` is what is read of a tag that is open.
-/
def tagsFrom (lt gt : α) : Option (List α) → List α → List (List α)
  | _, [] => []
  | none, c :: rest => if c = lt then tagsFrom lt gt (some []) rest else tagsFrom lt gt none rest
  | some name, c :: rest =>
      if c = gt then name :: tagsFrom lt gt none rest
      else tagsFrom lt gt (some (name ++ [c])) rest

/-- The names of the tags of a text, in their order. -/
def tags (lt gt : α) (text : List α) : List (List α) := tagsFrom lt gt none text

/-! ### One piece -/

/-- A tag begins with another tag only if it is that tag. -/
lemma tag_prefix_iff (hname : gt ∉ name) (hother : gt ∉ other) (rest : List α) :
    tag lt gt name <+: tag lt gt other ++ rest ↔ name = other := by
  constructor
  · intro h
    rw [tag, tag, List.cons_append, List.cons_append, List.cons_append, List.cons_prefix_cons] at h
    obtain ⟨tail, htail⟩ := h.2
    simp only [List.append_assoc, List.singleton_append] at htail
    have hcut := congrArg (List.takeWhile (· ≠ gt)) htail
    rwa [Bytes.takeWhile_ne hname, Bytes.takeWhile_ne hother] at hcut
  · rintro rfl
    exact List.prefix_append _ _

omit [DecidableEq α] in
lemma tag_append (other rest : List α) :
    tag lt gt other ++ rest = lt :: (other ++ [gt] ++ rest) := rfl

lemma tag_prefix_cons_iff (hname : gt ∉ name) (hother : gt ∉ other) (rest : List α) :
    tag lt gt name <+: lt :: (other ++ [gt] ++ rest) ↔ name = other :=
  tag_prefix_iff hname hother rest

lemma occurrences_text {s : List α} (hs : lt ∉ s) (rest : List α) :
    occurrences (tag lt gt name) (s ++ rest) = occurrences (tag lt gt name) rest := by
  induction s with
  | nil => rfl
  | cons c s ih =>
      rw [List.mem_cons, not_or] at hs
      rw [List.cons_append, occurrences, if_neg (not_tag_begins (Ne.symm hs.1) _), Nat.zero_add,
        ih hs.2]

lemma occurrences_tag (hne : lt ≠ gt) (hname : gt ∉ name) (hother : lt ∉ other ∧ gt ∉ other)
    (rest : List α) : occurrences (tag lt gt name) (tag lt gt other ++ rest) =
      (if name = other then 1 else 0) + occurrences (tag lt gt name) rest := by
  have hinner : lt ∉ other ++ [gt] := by simp [hother.1, hne]
  rw [tag_append, occurrences, occurrences_text hinner]
  simp only [tag_prefix_cons_iff hname hother.2 rest]

lemma cut_text {s : List α} (hs : lt ∉ s) (rest : List α) :
    cut (tag lt gt name) (s ++ rest) =
      (cut (tag lt gt name) rest).map fun h => (s ++ h.1, h.2) := by
  induction s with
  | nil => simp
  | cons c s ih =>
      rw [List.mem_cons, not_or] at hs
      rw [List.cons_append, cut, if_neg (not_tag_begins (Ne.symm hs.1) _), ih hs.2, Option.map_map]
      rfl

lemma cut_tag_self (rest : List α) :
    cut (tag lt gt name) (tag lt gt name ++ rest) = some ([], rest) := by
  have hbegins : tag lt gt name <+: lt :: (name ++ [gt] ++ rest) := List.prefix_append _ _
  rw [tag_append, cut, if_pos hbegins, ← tag_append, List.drop_left]

lemma cut_tag_ne (hne : lt ≠ gt) (hname : gt ∉ name) (hother : lt ∉ other ∧ gt ∉ other)
    (hdiff : name ≠ other) (rest : List α) : cut (tag lt gt name) (tag lt gt other ++ rest) =
      (cut (tag lt gt name) rest).map fun h => (tag lt gt other ++ h.1, h.2) := by
  have hinner : lt ∉ other ++ [gt] := by simp [hother.1, hne]
  have hbegins : tag lt gt name <+: lt :: (other ++ [gt] ++ rest) ↔ name = other :=
    tag_prefix_cons_iff hname hother.2 rest
  rw [tag_append, cut, if_neg (fun h => hdiff (hbegins.mp h)), cut_text hinner, Option.map_map]
  rfl

lemma tagsFrom_text {s : List α} (hs : lt ∉ s) (rest : List α) :
    tagsFrom lt gt none (s ++ rest) = tagsFrom lt gt none rest := by
  induction s with
  | nil => rfl
  | cons c s ih =>
      rw [List.mem_cons, not_or] at hs
      rw [List.cons_append, tagsFrom, if_neg (Ne.symm hs.1), ih hs.2]

lemma tagsFrom_name (hother : gt ∉ other) (rest : List α) :
    tagsFrom lt gt (some name) (other ++ gt :: rest) =
      (name ++ other) :: tagsFrom lt gt none rest := by
  induction other generalizing name with
  | nil => simp [tagsFrom]
  | cons c other ih =>
      rw [List.mem_cons, not_or] at hother
      rw [List.cons_append, tagsFrom, if_neg (Ne.symm hother.1), ih hother.2]
      simp

/-! ### Documents -/

/-- **A tag occurs as often as it was written.** -/
theorem occurrences_render (hne : lt ≠ gt) (hname : gt ∉ name) {pieces : List (Piece α)}
    (hplain : ∀ piece ∈ pieces, piece.Plain lt gt) :
    occurrences (tag lt gt name) (render lt gt pieces) = (names pieces).count name := by
  refine plain_induction rfl ?_ ?_ pieces hplain
  · intro s rest hs hrest
    rw [render_cons, Piece.render, occurrences_text hs, hrest]
    rfl
  · intro other rest hother hrest
    have hnames : names (.tag other :: rest) = other :: names rest := rfl
    rw [render_cons, Piece.render, occurrences_tag hne hname hother, hrest, hnames,
      List.count_cons, Nat.add_comm]
    simp only [beq_iff_eq, eq_comm (a := name)]

/-- **The tags are those that were written.** -/
theorem tags_render {pieces : List (Piece α)} (hplain : ∀ piece ∈ pieces, piece.Plain lt gt) :
    tags lt gt (render lt gt pieces) = names pieces := by
  refine plain_induction rfl ?_ ?_ pieces hplain
  · intro s rest hs hrest
    rw [tags] at hrest ⊢
    rw [render_cons, Piece.render, tagsFrom_text hs, hrest]
    rfl
  · intro other rest hother hrest
    rw [tags] at hrest ⊢
    have htag : tag lt gt other ++ render lt gt rest =
        lt :: (other ++ gt :: render lt gt rest) := by
      simp [tag]
    rw [render_cons, Piece.render, htag, tagsFrom, if_pos rfl, tagsFrom_name hother.2, hrest]
    rfl

/-- The first tag of a name behind pieces that have none of it. -/
lemma cut_render (hne : lt ≠ gt) (hname : gt ∉ name) {pieces : List (Piece α)}
    (hplain : ∀ piece ∈ pieces, piece.Plain lt gt) (hfirst : name ∉ names pieces)
    (rest : List α) : cut (tag lt gt name) (render lt gt pieces ++ (tag lt gt name ++ rest)) =
      some (render lt gt pieces, rest) := by
  revert hfirst
  refine plain_induction (fun _ => cut_tag_self rest) ?_ ?_ pieces hplain
  · intro s pieces hs hpieces hfirst
    rw [render_cons, List.append_assoc, Piece.render, cut_text hs, hpieces hfirst]
    rfl
  · intro other pieces hother hpieces hfirst
    have hnames : names (.tag other :: pieces) = other :: names pieces := rfl
    rw [hnames, List.mem_cons, not_or] at hfirst
    rw [render_cons, List.append_assoc, Piece.render, cut_tag_ne hne hname hother hfirst.1,
      hpieces hfirst.2]
    rfl

lemma cut_render_none (hne : lt ≠ gt) (hname : gt ∉ name) {pieces : List (Piece α)}
    (hplain : ∀ piece ∈ pieces, piece.Plain lt gt) (hnone : name ∉ names pieces) :
    cut (tag lt gt name) (render lt gt pieces) = none := by
  revert hnone
  refine plain_induction (fun _ => rfl) ?_ ?_ pieces hplain
  · intro s pieces hs hpieces hnone
    rw [render_cons, Piece.render, cut_text hs, hpieces hnone]
    rfl
  · intro other pieces hother hpieces hnone
    have hnames : names (.tag other :: pieces) = other :: names pieces := rfl
    rw [hnames, List.mem_cons, not_or] at hnone
    rw [render_cons, Piece.render, cut_tag_ne hne hname hother hnone.1, hpieces hnone.2]
    rfl

/-- Pieces in brackets of their own: what stands before the opening tag, and what stands between it
and the closing one. -/
def enclose (opening closing : List α) (items : List (List (Piece α) × List (Piece α))) :
    List (Piece α) :=
  items.flatMap fun item => item.1 ++ .tag opening :: (item.2 ++ [.tag closing])

section

variable {opening closing : List α} {items : List (List (Piece α) × List (Piece α))}
  {rest : List (Piece α)}

/-- What stands before an opening tag has none of them, and what is between the tags does not close.
-/
structure Separate (lt gt : α) (opening closing : List α)
    (items : List (List (Piece α) × List (Piece α))) (rest : List (Piece α)) : Prop where
  plain : ∀ piece ∈ enclose opening closing items ++ rest, piece.Plain lt gt
  brackets : gt ∉ opening ∧ gt ∉ closing
  before : ∀ item ∈ items, opening ∉ names item.1
  inner : ∀ item ∈ items, closing ∉ names item.2
  behind : opening ∉ names rest

omit [DecidableEq α] in
lemma render_enclose_cons (opening closing : List α) (item : List (Piece α) × List (Piece α))
    (items : List (List (Piece α) × List (Piece α))) (rest : List (Piece α)) :
    render lt gt (enclose opening closing (item :: items) ++ rest) =
      render lt gt item.1 ++ (tag lt gt opening ++ (render lt gt item.2 ++
        (tag lt gt closing ++ render lt gt (enclose opening closing items ++ rest)))) := by
  simp [enclose, Piece.render]

omit [DecidableEq α] in
lemma Separate.tail {item : List (Piece α) × List (Piece α)}
    (h : Separate lt gt opening closing (item :: items) rest) :
    Separate lt gt opening closing items rest := by
  refine ⟨fun piece hpiece => h.plain piece ?_, h.brackets, fun i hi => h.before i ?_,
    fun i hi => h.inner i ?_, h.behind⟩
  · rw [enclose, List.flatMap_cons, List.append_assoc]
    exact List.mem_append_right _ hpiece
  · exact List.mem_cons_of_mem item hi
  · exact List.mem_cons_of_mem item hi

lemma betweenUpTo_render (hne : lt ≠ gt) (h : Separate lt gt opening closing items rest) {n : ℕ}
    (hn : items.length ≤ n) :
    betweenUpTo (tag lt gt opening) (tag lt gt closing) n
        (render lt gt (enclose opening closing items ++ rest)) =
      items.map fun item => render lt gt item.2 := by
  induction items generalizing n with
  | nil =>
      cases n with
      | zero => rfl
      | succ n =>
          have hnone : cut (tag lt gt opening) (render lt gt rest) = none :=
            cut_render_none hne h.brackets.1 (fun p hp => h.plain p hp) h.behind
          simp [betweenUpTo, enclose, hnone]
  | cons item items ih =>
      obtain ⟨n, rfl⟩ : ∃ m, n = m + 1 := by
        rw [List.length_cons] at hn
        exact ⟨n - 1, by omega⟩
      have hbefore : ∀ piece ∈ item.1, piece.Plain lt gt := by
        intro piece hpiece
        refine h.plain piece ?_
        simp [enclose, hpiece]
      have hinner : ∀ piece ∈ item.2, piece.Plain lt gt := by
        intro piece hpiece
        refine h.plain piece ?_
        simp [enclose, hpiece]
      rw [render_enclose_cons, betweenUpTo,
        cut_render hne h.brackets.1 hbefore (h.before item List.mem_cons_self)]
      dsimp only
      rw [cut_render hne h.brackets.2 hinner (h.inner item List.mem_cons_self)]
      dsimp only
      rw [ih h.tail (by simpa using hn)]
      rfl

/-- **Between the tags stands what was written between them.** -/
theorem between_render (hne : lt ≠ gt) (h : Separate lt gt opening closing items rest) :
    between (tag lt gt opening) (tag lt gt closing)
        (render lt gt (enclose opening closing items ++ rest)) =
      items.map fun item => render lt gt item.2 := by
  refine betweenUpTo_render hne h ?_
  rw [render_append, List.length_append]
  refine Nat.le_add_right_of_le ?_
  clear h
  induction items with
  | nil => exact Nat.zero_le _
  | cons item items ih =>
      have hcons : render lt gt (enclose opening closing (item :: items) ++ []) = _ :=
        render_enclose_cons opening closing item items []
      rw [List.append_nil, List.append_nil] at hcons
      rw [hcons]
      simp only [List.length_append, List.length_cons, tag]
      omega

end

end Markup
