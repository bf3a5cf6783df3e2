import Clarc.Core.Bytes

/-!
# Text in UTF-8

The first byte of a character says how many it has, so bytes are a text in one way at most
(`Rune.text_injective`), and a byte below 128 is always a character of its own
(`Rune.text_eq_append`).
-/

namespace Bytes

/-- A byte that goes on with a character. -/
def continues (b : UInt8) : Bool := decide (128 ≤ b) && decide (b ≤ 191)

/-- The bytes of one character: no longer than it has to be and at most `U+10FFFF`.  A surrogate is
taken for a character. -/
def isRune : Bytes → Bool
  | [a] => decide (a < 128)
  | [a, b] => decide (194 ≤ a) && decide (a < 224) && continues b
  | [a, b, c] =>
      decide (224 ≤ a) && decide (a < 240) && (decide (a ≠ 224) || decide (160 ≤ b)) &&
        continues b && continues c
  | [a, b, c, d] =>
      decide (240 ≤ a) && decide (a ≤ 244) && (decide (a ≠ 240) || decide (144 ≤ b)) &&
        (decide (a ≠ 244) || decide (b < 144)) && continues b && continues c && continues d
  | _ => false

/-- How many bytes a character has that begins with this one. -/
def runeLength (a : UInt8) : ℕ :=
  if a < 128 then 1 else if a < 224 then 2 else if a < 240 then 3 else 4

end Bytes

open Bytes

/-- A character in UTF-8. -/
structure Rune where
  bytes : Bytes
  valid : isRune bytes = true
  deriving DecidableEq

namespace Rune

/-- A character below 128. -/
def ofAscii (b : UInt8) (h : b < 128) : Rune := ⟨[b], by simpa [isRune] using h⟩

/-- The bytes of a text. -/
def text (cs : List Rune) : Bytes := cs.flatMap Rune.bytes

@[simp] lemma text_nil : text [] = [] := rfl

@[simp] lemma text_cons (c : Rune) (cs : List Rune) : text (c :: cs) = c.bytes ++ text cs := rfl

@[simp] lemma text_append (cs ds : List Rune) : text (cs ++ ds) = text cs ++ text ds := by
  simp [text]

/-- The characters below 128 of a byte string. -/
def ofBytes (s : Bytes) : List Rune :=
  s.filterMap fun b => if h : b < 128 then some (ofAscii b h) else none

lemma ofBytes_cons {b : UInt8} (hb : b < 128) (s : Bytes) :
    ofBytes (b :: s) = ofAscii b hb :: ofBytes s := by
  simp [ofBytes, hb]

lemma ofBytes_append (s t : Bytes) : ofBytes (s ++ t) = ofBytes s ++ ofBytes t := by
  simp [ofBytes]

lemma text_ofBytes {s : Bytes} (hs : ∀ b ∈ s, b < 128) : text (ofBytes s) = s := by
  induction s with
  | nil => rfl
  | cons b s ih =>
      obtain ⟨hb, hrest⟩ := List.forall_mem_cons.mp hs
      rw [ofBytes_cons hb, text_cons, ih hrest]
      rfl

lemma not_lt_of_le {a low bound : UInt8} (h : low ≤ a) (hbound : bound ≤ low) : ¬ a < bound :=
  UInt8.not_lt.mpr (UInt8.le_trans hbound h)

/-- The first byte of a character tells how many it has. -/
lemma bytes_eq (c : Rune) : ∃ a rest, c.bytes = a :: rest ∧ rest.length + 1 = runeLength a := by
  obtain ⟨bytes, valid⟩ := c
  match bytes, valid with
  | [a], valid =>
      have ha : a < 128 := by simpa [isRune] using valid
      exact ⟨a, [], rfl, by simp [runeLength, ha]⟩
  | [a, b], valid =>
      simp only [isRune, Bool.and_eq_true, decide_eq_true_eq] at valid
      refine ⟨a, [b], rfl, ?_⟩
      have hlow : ¬ a < 128 := not_lt_of_le valid.1.1 (by decide)
      simp [runeLength, hlow, valid.1.2]
  | [a, b, c], valid =>
      simp only [isRune, Bool.and_eq_true, decide_eq_true_eq] at valid
      refine ⟨a, [b, c], rfl, ?_⟩
      have hlow : ¬ a < 128 := not_lt_of_le valid.1.1.1.1 (by decide)
      have htwo : ¬ a < 224 := not_lt_of_le valid.1.1.1.1 (by decide)
      simp [runeLength, hlow, htwo, valid.1.1.1.2]
  | [a, b, c, d], valid =>
      simp only [isRune, Bool.and_eq_true, decide_eq_true_eq] at valid
      refine ⟨a, [b, c, d], rfl, ?_⟩
      have h := valid.1.1.1.1.1.1
      have hlow : ¬ a < 128 := not_lt_of_le h (by decide)
      have htwo : ¬ a < 224 := not_lt_of_le h (by decide)
      have hthree : ¬ a < 240 := not_lt_of_le h (by decide)
      simp [runeLength, hlow, htwo, hthree]

/-- A byte below 128 is a character of its own. -/
lemma bytes_of_mem {c : Rune} {x : UInt8} (hx : x ∈ c.bytes) (hlow : x < 128) : c.bytes = [x] := by
  have hlead : ∀ {y low : UInt8}, low ≤ y → 128 ≤ low → x ≠ y := by
    rintro y low hy hle rfl
    exact not_lt_of_le hy hle hlow
  have hcont : ∀ {y : UInt8}, continues y = true → x ≠ y := by
    intro y hy
    simp only [continues, Bool.and_eq_true, decide_eq_true_eq] at hy
    exact hlead hy.1 (by decide)
  obtain ⟨bytes, valid⟩ := c
  match bytes, valid with
  | [a], valid =>
      rw [List.mem_singleton.mp hx]
  | [a, b], valid =>
      simp only [isRune, Bool.and_eq_true, decide_eq_true_eq] at valid
      have ha : x ≠ a := hlead valid.1.1 (by decide)
      simp [ha, hcont valid.2] at hx
  | [a, b, c], valid =>
      simp only [isRune, Bool.and_eq_true, decide_eq_true_eq] at valid
      have ha : x ≠ a := hlead valid.1.1.1.1 (by decide)
      simp [ha, hcont valid.1.2, hcont valid.2] at hx
  | [a, b, c, d], valid =>
      simp only [isRune, Bool.and_eq_true, decide_eq_true_eq] at valid
      have ha : x ≠ a := hlead valid.1.1.1.1.1.1 (by decide)
      simp [ha, hcont valid.1.1.2, hcont valid.1.2, hcont valid.2] at hx

lemma bytes_injective : Function.Injective Rune.bytes := by
  rintro ⟨bytes, _⟩ ⟨_, _⟩ rfl
  rfl

/-- Two characters that begin the same bytes are the same. -/
lemma eq_of_append_eq {c d : Rune} {s t : Bytes} (h : c.bytes ++ s = d.bytes ++ t) :
    c = d ∧ s = t := by
  obtain ⟨a, rest, hc, hclen⟩ := c.bytes_eq
  obtain ⟨b, rest', hd, hdlen⟩ := d.bytes_eq
  have hhead : a = b := by
    rw [hc, hd] at h
    exact (List.cons_eq_cons.mp h).1
  have hlen : c.bytes.length = d.bytes.length := by
    rw [hc, hd, List.length_cons, List.length_cons, hclen, hdlen, hhead]
  have hparts := List.append_inj h hlen
  exact ⟨bytes_injective hparts.1, hparts.2⟩

/-- **Bytes are a text in one way at most.** -/
theorem text_injective : Function.Injective text := by
  intro cs
  induction cs with
  | nil =>
      intro ds h
      cases ds with
      | nil => rfl
      | cons d ds =>
          obtain ⟨a, rest, hd, -⟩ := d.bytes_eq
          rw [text_cons, hd] at h
          cases h
  | cons c cs ih =>
      intro ds h
      cases ds with
      | nil =>
          obtain ⟨a, rest, hc, -⟩ := c.bytes_eq
          rw [text_cons, hc] at h
          cases h
      | cons d ds =>
          obtain ⟨rfl, hrest⟩ := eq_of_append_eq h
          rw [ih hrest]

/-! ## Bytes below 128 at the ends -/

lemma text_eq_cons {cs : List Rune} {b : UInt8} {s : Bytes} (hb : b < 128)
    (h : text cs = b :: s) : ∃ ds, cs = ofAscii b hb :: ds ∧ text ds = s := by
  cases cs with
  | nil => cases h
  | cons c cs =>
      obtain ⟨a, rest, hc, -⟩ := c.bytes_eq
      have hbytes : c.bytes = [b] := by
        rw [text_cons, hc, List.cons_append] at h
        exact bytes_of_mem (by rw [hc, (List.cons_eq_cons.mp h).1]; simp) hb
      rw [text_cons, hbytes] at h
      exact ⟨cs, by rw [bytes_injective (hbytes.trans rfl : c.bytes = (ofAscii b hb).bytes)],
        (List.cons_eq_cons.mp h).2⟩

lemma text_eq_concat {cs : List Rune} {b : UInt8} {s : Bytes} (hb : b < 128)
    (h : text cs = s ++ [b]) : ∃ ds, cs = ds ++ [ofAscii b hb] ∧ text ds = s := by
  rcases List.eq_nil_or_concat cs with rfl | ⟨ds, c, rfl⟩
  · simp at h
  · rw [List.concat_eq_append] at h ⊢
    rw [text_append, text_cons, text_nil, List.append_nil] at h
    have hlast : b ∈ c.bytes := by
      rcases List.eq_nil_or_concat c.bytes with hnil | ⟨rest, a, hc⟩
      · obtain ⟨a, rest, hc, -⟩ := c.bytes_eq
        rw [hc] at hnil
        cases hnil
      · rw [hc, List.concat_eq_append, ← List.append_assoc] at h
        obtain ⟨rfl, -⟩ := List.cons_eq_cons.mp (List.append_inj' h rfl).2
        simp [hc]
    have hbytes : c.bytes = [b] := bytes_of_mem hlast hb
    rw [hbytes] at h
    exact ⟨ds, by rw [bytes_injective (hbytes.trans rfl : c.bytes = (ofAscii b hb).bytes)],
      List.append_cancel_right h⟩

/-- **Bytes below 128 at both ends are characters**, and what is between them is a text when all of
it is. -/
theorem text_eq_append {front back : Bytes} (hfront : ∀ b ∈ front, b < 128)
    (hback : ∀ b ∈ back, b < 128) {cs : List Rune} {s : Bytes} (h : text cs = front ++ s ++ back) :
    ∃ ds, cs = ofBytes front ++ ds ++ ofBytes back ∧ text ds = s := by
  induction front generalizing cs with
  | nil =>
      rw [List.nil_append] at h
      induction back using List.reverseRecOn generalizing cs with
      | nil => exact ⟨cs, by simp [ofBytes], by simpa using h⟩
      | append_singleton back b ih =>
          have hb : b < 128 := hback b (by simp)
          rw [← List.append_assoc] at h
          obtain ⟨ds, rfl, hds⟩ := text_eq_concat hb h
          obtain ⟨es, rfl, hes⟩ := ih (fun d hd => hback d (by simp [hd])) hds
          refine ⟨es, ?_, hes⟩
          rw [ofBytes_append]
          simp [ofBytes, hb]
  | cons b front ih =>
      obtain ⟨hb, hrest⟩ := List.forall_mem_cons.mp hfront
      obtain ⟨ds, rfl, hds⟩ := text_eq_cons hb h
      obtain ⟨es, rfl, hes⟩ := ih hrest hds
      exact ⟨es, by rw [ofBytes_cons hb]; rfl, hes⟩

end Rune
