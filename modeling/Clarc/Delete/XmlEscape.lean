import Clarc.Core.Loops
import Clarc.Delete.Document

/-!
# `xmlEscape`, index by index

`xmlEscape` goes through its string with a `do`–`while` loop: it writes the character at `p`, or its
entity, moves `p` on and then looks whether it stands at the terminator.  What it writes goes to an
index of 32 bits, into five bytes for each character of the string and none for the terminator.

* `exists_run` — on a string that is not empty the loop ends at the terminator, and has written what
  `Deleter.xmlEscape` says (`xmlEscapeRun_result`);
* `one_mem_reads` — it looks at what stands behind its first character, which on the empty string is
  the terminator;
* `staysInBuffers_iff` — **`xmlEscape` stays in its buffers exactly when** some character of the
  string is none that becomes five, or the index is too short to get to the end of the buffer.
-/

namespace Clarc

open Bytes Loops

namespace Deleter

/-! ## The string and the buffer -/

/-- The string that `xmlEscape` gets: its characters, and what lies in memory behind its
terminator. -/
structure Source where
  text : Bytes
  behind : ℕ → UInt8
  nonzero : 0 ∉ text

/-- `src[i]`, behind the terminator as well. -/
def Source.memory (src : Source) (i : ℕ) : UInt8 := (src.text ++ [0]).getD i (src.behind i)

/-- `strlen(src)*5`, the size of `newString`, in the 64 bits of a `size_t`. -/
def Source.allocated (src : Source) : UInt64 := UInt64.ofNat src.text.length * 5

/-- The variables of `xmlEscape`, with `p` as a position in `src` and `newString` as far as it was
written, and the positions it has read in `src` and written in `newString`. -/
structure Escape where
  p : ℕ
  pos : UInt32
  newString : ℕ → Option UInt8
  reads : List ℕ
  writes : List ℕ

/-- `xmlEscape` begins at the front of both. -/
def Escape.start : Escape :=
  { p := 0, pos := 0, newString := fun _ => none, reads := [], writes := [] }

/-- `*p`. -/
def Escape.read (e : Escape) : Escape := { e with reads := e.reads ++ [e.p] }

/-- `newString[pos]=c`. -/
def Escape.write (e : Escape) (c : UInt8) : Escape :=
  { e with
    newString := Function.update e.newString e.pos.toNat (some c)
    writes := e.writes ++ [e.pos.toNat] }

/-- `newString[pos++]=c`. -/
def Escape.put (e : Escape) (c : UInt8) : Escape := { e.write c with pos := e.pos + 1 }

/-- `p++`. -/
def Escape.advance (e : Escape) : Escape := { e with p := e.p + 1 }

/-- A turn of the loop: its body, and the look at `*p` in its condition. -/
def turn (src : Source) (e : Escape) : Escape :=
  ((xmlEscapeByte (src.memory e.p)).foldl Escape.put e.read).advance.read

/-- `while(*p)`. -/
def goesOn (src : Source) (e : Escape) : Bool := src.memory e.p != 0

/-- `xmlEscape` up to `newString[pos]=0`, when its loop ends after at most so many turns. -/
def xmlEscapeRun (src : Source) (turns : ℕ) : Option Escape :=
  (doWhile (turn src) (goesOn src) turns .start).map (Escape.write · 0)

/-- `strndup(newString, pos)`; there is no result where it would copy what was never written. -/
def Escape.result (e : Escape) : Option Bytes :=
  ((List.range e.pos.toNat).mapM e.newString).map cString

/-- `xmlEscape` stays in its buffers: its loop ends, it reads no character behind the terminator of
`src`, and every index that it writes is smaller than what it has allocated. -/
def StaysInBuffers (src : Source) : Prop :=
  ∃ turns e, xmlEscapeRun src turns = some e ∧ (∀ i ∈ e.reads, i ≤ src.text.length) ∧
    ∀ i ∈ e.writes, i < src.allocated.toNat

/-- There is room for the terminator: some character is not written as five, and five times the
length is a `size_t`; or the buffer is larger than what 32 bits can reach. -/
def Roomy (text : Bytes) : Prop :=
  (∃ c ∈ text, c ≠ 38) ∧ 5 * text.length < 2 ^ 64 ∨ 2 ^ 32 ≤ 5 * text.length % 2 ^ 64

instance (text : Bytes) : Decidable (Roomy text) := inferInstanceAs (Decidable (_ ∨ _))

variable {src : Source} {e : Escape} {out text : Bytes} {i k turns : ℕ}

/-! ## The memory -/

lemma memory_of_lt (h : i < src.text.length) : src.memory i = src.text[i] := by
  rw [Source.memory, List.getD_eq_getElem?_getD, List.getElem?_append_left h,
    List.getElem?_eq_getElem h, Option.getD_some]

lemma memory_length (src : Source) : src.memory src.text.length = 0 := by
  rw [Source.memory, List.getD_eq_getElem?_getD, List.getElem?_append_right le_rfl, Nat.sub_self]
  rfl

/-- No character before the terminator ends the loop. -/
lemma memory_ne_zero (h : i < src.text.length) : src.memory i ≠ 0 := by
  rw [memory_of_lt h]
  intro hzero
  exact src.nonzero (hzero ▸ List.getElem_mem h)

lemma allocated_toNat (src : Source) :
    src.allocated.toNat = 5 * src.text.length % 2 ^ 64 := by
  have hfive : (5 : UInt64).toNat = 5 := rfl
  rw [Source.allocated, UInt64.toNat_mul, UInt64.toNat_ofNat', hfive, Nat.mod_mul_mod,
    Nat.mul_comm]

/-! ## One operation -/

@[simp] lemma Escape.read_p (e : Escape) : e.read.p = e.p := rfl

@[simp] lemma Escape.read_reads (e : Escape) : e.read.reads = e.reads ++ [e.p] := rfl

@[simp] lemma Escape.advance_p (e : Escape) : e.advance.p = e.p + 1 := rfl

@[simp] lemma Escape.advance_reads (e : Escape) : e.advance.reads = e.reads := rfl

@[simp] lemma Escape.write_pos (e : Escape) (c : UInt8) : (e.write c).pos = e.pos := rfl

@[simp] lemma Escape.write_reads (e : Escape) (c : UInt8) : (e.write c).reads = e.reads := rfl

@[simp] lemma Escape.write_writes (e : Escape) (c : UInt8) :
    (e.write c).writes = e.writes ++ [e.pos.toNat] := rfl

@[simp] lemma Escape.put_pos (e : Escape) (c : UInt8) : (e.put c).pos = e.pos + 1 := rfl

@[simp] lemma Escape.put_writes (e : Escape) (c : UInt8) :
    (e.put c).writes = e.writes ++ [e.pos.toNat] := rfl

lemma Escape.put_newString (e : Escape) (c : UInt8) :
    (e.put c).newString = Function.update e.newString e.pos.toNat (some c) := rfl

/-- A word moves neither `p` nor what was read. -/
@[simp] lemma foldl_put_p (word : Bytes) (e : Escape) : (word.foldl Escape.put e).p = e.p := by
  induction word generalizing e with
  | nil => rfl
  | cons c word ih => exact ih (e.put c)

@[simp] lemma foldl_put_reads (word : Bytes) (e : Escape) :
    (word.foldl Escape.put e).reads = e.reads := by
  induction word generalizing e with
  | nil => rfl
  | cons c word ih => exact ih (e.put c)

@[simp] lemma turn_p (src : Source) (e : Escape) : (turn src e).p = e.p + 1 := by
  simp [turn]

/-- A turn reads the character at `p`, and the one behind it. -/
@[simp] lemma turn_reads (src : Source) (e : Escape) :
    (turn src e).reads = e.reads ++ [e.p, e.p + 1] := by
  simp [turn]

/-! ## What is written -/

/-- The text has been written: `pos` stands behind it, every index up to there is taken modulo
`2^32`, and `newString` holds the text when no index was used twice. -/
structure Escape.Wrote (out : Bytes) (e : Escape) : Prop where
  pos : e.pos.toNat = out.length % 2 ^ 32
  writes : e.writes = (List.range out.length).map (· % 2 ^ 32)
  newString : out.length ≤ 2 ^ 32 → ∀ i c, out[i]? = some c → e.newString i = some c

lemma Escape.Wrote.put (h : e.Wrote out) (c : UInt8) : (e.put c).Wrote (out ++ [c]) := by
  have hone : (1 : UInt32).toNat = 1 := rfl
  constructor
  · rw [Escape.put_pos, UInt32.toNat_add, hone, h.pos, List.length_append, List.length_singleton,
      Nat.mod_add_mod]
  · rw [Escape.put_writes, h.writes, h.pos]
    simp [List.range_succ]
  · intro hlength i d hi
    rw [List.length_append, List.length_singleton] at hlength
    have hpos : e.pos.toNat = out.length := by
      rw [h.pos, Nat.mod_eq_of_lt (by omega)]
    rw [Escape.put_newString, hpos]
    rcases Nat.lt_trichotomy i out.length with hlt | rfl | hgt
    · rw [Function.update_of_ne hlt.ne]
      rw [List.getElem?_append_left hlt] at hi
      exact h.newString (by omega) i d hi
    · rw [Function.update_self]
      rw [List.getElem?_concat_length] at hi
      exact hi
    · rw [List.getElem?_eq_none (by rw [List.length_append, List.length_singleton]; omega)] at hi
      cases hi

/-- The characters of a word go behind one another. -/
lemma Escape.Wrote.word (h : e.Wrote out) (word : Bytes) :
    (word.foldl Escape.put e).Wrote (out ++ word) :=
  foldl_appends_singles Escape.Wrote (fun _ _ c h => h.put c) h word

/-- Only `pos`, `newString` and the positions that were written say what has been written. -/
lemma Escape.Wrote.of_eq {e' : Escape} (h : e.Wrote out) (hpos : e'.pos = e.pos)
    (hwrites : e'.writes = e.writes) (hnewString : e'.newString = e.newString) :
    e'.Wrote out :=
  ⟨hpos ▸ h.pos, hwrites ▸ h.writes, hnewString ▸ h.newString⟩

/-- A turn writes the character at `p`. -/
lemma Escape.Wrote.turn (h : e.Wrote out) (src : Source) :
    (turn src e).Wrote (out ++ xmlEscapeByte (src.memory e.p)) := by
  have hread : e.read.Wrote out := h.of_eq rfl rfl rfl
  exact (hread.word (xmlEscapeByte (src.memory e.p))).of_eq rfl rfl rfl

/-! ## The loop -/

/-- After `k` turns: `p` has moved over `k` characters, no character behind the next one was read,
and these `k` have been written. -/
structure Escape.After (src : Source) (k : ℕ) (e : Escape) : Prop where
  p : e.p = k
  reads : ∀ i ∈ e.reads, i ≤ k
  wrote : e.Wrote ((src.text.take k).flatMap xmlEscapeByte)

lemma after_start (src : Source) : Escape.start.After src 0 := by
  refine ⟨rfl, ?_, rfl, rfl, ?_⟩
  · intro i hi
    cases hi
  · intro _ i c hi
    cases hi

/-- **One turn.** -/
lemma Escape.After.turn (h : e.After src k) (hk : k < src.text.length) :
    (turn src e).After src (k + 1) := by
  have htake : (src.text.take (k + 1)).flatMap xmlEscapeByte =
      (src.text.take k).flatMap xmlEscapeByte ++ xmlEscapeByte (src.memory e.p) := by
    rw [List.take_succ_eq_append_getElem hk, List.flatMap_append, List.flatMap_singleton, h.p,
      memory_of_lt hk]
  refine ⟨?_, ?_, ?_⟩
  · rw [turn_p, h.p]
  · intro i hi
    simp only [turn_reads, h.p, List.mem_append, List.mem_cons, List.not_mem_nil, or_false] at hi
    rcases hi with hi | rfl | rfl
    · exact (h.reads i hi).trans (Nat.le_succ k)
    · exact Nat.le_succ _
    · exact le_rfl
  · rw [htake]
    exact h.wrote.turn src

/-- **The whole run** on a string that is not empty: it ends at the terminator. -/
lemma exists_run (h : src.text ≠ []) :
    ∃ e, doWhile (turn src) (goesOn src) src.text.length .start = some e ∧
      e.After src src.text.length := by
  obtain ⟨n, hn⟩ : ∃ n, src.text.length = n + 1 :=
    Nat.exists_eq_add_one.mpr (List.length_pos_iff.mpr h)
  rw [hn]
  refine doWhile_counted (after_start src) ?_ ?_ ?_
  · intro k t hk ht
    exact ht.turn (by omega)
  · intro k t hk ht
    rw [goesOn, ht.p, bne_iff_ne]
    exact memory_ne_zero (by omega)
  · intro t ht
    rw [goesOn, ht.p, ← hn, memory_length, bne_self_eq_false]

/-! ## The lengths -/

lemma length_escaped (text : Bytes) :
    (text.flatMap xmlEscapeByte).length = text.length + growth text := by
  have hchar : xmlEscapeByte = xmlEntities.encodeChar := funext xmlEscapeByte_eq
  rw [← length_encode, Escaping.encode, hchar]

/-- The positions that were written, with that of the terminator. -/
lemma Escape.After.writes (h : e.After src src.text.length) :
    (e.write 0).writes =
      (List.range (src.text.length + growth src.text + 1)).map (· % 2 ^ 32) := by
  have hwrote := h.wrote
  rw [List.take_length] at hwrote
  rw [Escape.write_writes, hwrote.writes, hwrote.pos, length_escaped]
  simp [List.range_succ]

/-- The run from a string that is not empty is the only one. -/
lemma xmlEscapeRun_eq (h : src.text ≠ []) (hrun : xmlEscapeRun src turns = some e) :
    ∃ e' : Escape, e'.After src src.text.length ∧ e = e'.write 0 := by
  obtain ⟨e₁, he₁, rfl⟩ := Option.map_eq_some_iff.mp hrun
  obtain ⟨e₂, he₂, hafter⟩ := exists_run h
  exact ⟨e₂, hafter, by rw [doWhile_unique he₁ he₂]⟩

/-- **The character behind the first is read in every run**, and so what lies behind the terminator
of an empty string. -/
lemma one_mem_reads (hrun : xmlEscapeRun src turns = some e) : 1 ∈ e.reads := by
  obtain ⟨e', he', rfl⟩ := Option.map_eq_some_iff.mp hrun
  refine doWhile_invariant (fun u => 1 ∈ u.reads) he' ?_ fun u hu => ?_
  -- the first turn moves over the character at the front, whichever it is
  · rw [turn_reads]
    exact List.mem_append_right _ (List.mem_cons_of_mem _ List.mem_cons_self)
  · rw [turn_reads]
    exact List.mem_append_left _ hu

/-! ## The bound -/

/-- A string that is not empty: what is written are the positions up to its terminator, in 32
bits. -/
lemma staysInBuffers_of_ne_nil (h : src.text ≠ []) :
    StaysInBuffers src ↔
      ∀ i ≤ src.text.length + growth src.text, i % 2 ^ 32 < src.allocated.toNat := by
  have hall : ∀ {e : Escape}, e.After src src.text.length →
      ((∀ i ∈ (e.write 0).writes, i < src.allocated.toNat) ↔
        ∀ i ≤ src.text.length + growth src.text, i % 2 ^ 32 < src.allocated.toNat) := by
    intro e hafter
    rw [hafter.writes]
    simp only [List.forall_mem_map, List.mem_range, Nat.lt_succ_iff]
  constructor
  · rintro ⟨turns, e, hrun, -, hwrites⟩
    obtain ⟨e', hafter, rfl⟩ := xmlEscapeRun_eq h hrun
    exact (hall hafter).mp hwrites
  · intro hbound
    obtain ⟨e, he, hafter⟩ := exists_run h
    exact ⟨src.text.length, e.write 0, by rw [xmlEscapeRun, he, Option.map_some], hafter.reads,
      (hall hafter).mpr hbound⟩

/-- A string of a length that is met with stays in its buffers when it has a character other than an
ampersand. -/
lemma staysInBuffers_of_short (hshort : 5 * src.text.length < 2 ^ 32)
    (hother : ∃ c ∈ src.text, c ≠ 38) : StaysInBuffers src := by
  have hlt := (growth_lt_iff src.text).mpr hother
  obtain ⟨c, hc, -⟩ := hother
  rw [staysInBuffers_of_ne_nil (List.ne_nil_of_mem hc), allocated_toNat]
  intro i hi
  omega

/-- **`xmlEscape` stays in its buffers exactly when there is room for the terminator.** -/
theorem staysInBuffers_iff (src : Source) : StaysInBuffers src ↔ Roomy src.text := by
  by_cases hempty : src.text = []
  · constructor
    · rintro ⟨turns, e, hrun, hreads, -⟩
      have hbehind := hreads 1 (one_mem_reads hrun)
      rw [hempty, List.length_nil] at hbehind
      omega
    · intro hroomy
      rw [hempty] at hroomy
      exact absurd hroomy (by decide)
  · have hpos : 0 < src.text.length := List.length_pos_iff.mpr hempty
    have hle := growth_le src.text
    have hlt := growth_lt_iff src.text
    rw [staysInBuffers_of_ne_nil hempty, allocated_toNat, Roomy, ← hlt]
    constructor
    · intro hbound
      by_contra hcon
      rw [not_or] at hcon
      obtain ⟨hsmall, hshort⟩ := hcon
      -- the index has not wrapped around: the last one before that would be outside
      have hnowrap : src.text.length + growth src.text < 2 ^ 32 := by
        by_contra hwrap
        have hlast := hbound (2 ^ 32 - 1) (by omega)
        omega
      have hterminator := hbound _ le_rfl
      omega
    · rintro (⟨hother, hfits⟩ | hlarge) i hi
      · omega
      · omega

/-- A string of a length that is met with: it needs a character other than an ampersand. -/
lemma roomy_iff_of_short (h : 5 * text.length < 2 ^ 32) : Roomy text ↔ ∃ c ∈ text, c ≠ 38 := by
  rw [Roomy]
  constructor
  · rintro (⟨hother, -⟩ | hlarge)
    · exact hother
    · have hmod := Nat.mod_le (5 * text.length) (2 ^ 64)
      omega
  · intro hother
    exact Or.inl ⟨hother, by omega⟩

/-- The empty string, and one ampersand: the position behind the terminator is read, and the
position behind the buffer written. -/
theorem xmlEscape_leaves_buffers :
    ¬ StaysInBuffers ⟨[], fun _ => 0, by decide⟩ ∧
      ¬ StaysInBuffers ⟨[38], fun _ => 0, by decide⟩ := by
  constructor
  · rintro ⟨turns, e, hrun, hreads, -⟩
    have hbehind := hreads 1 (one_mem_reads hrun)
    exact absurd hbehind (by decide)
  · intro h
    rw [staysInBuffers_of_ne_nil (by decide)] at h
    exact absurd (h 5 (by decide)) (by decide)

/-! ## The result -/

lemma mapM_range {f : ℕ → Option UInt8} {n : ℕ} (hn : n ≤ out.length)
    (hf : ∀ i c, out[i]? = some c → f i = some c) :
    (List.range n).mapM f = some (out.take n) := by
  induction n with
  | zero => rfl
  | succ n ih =>
      have hn' : n < out.length := hn
      have hlast : [n].mapM f = some [out[n]] := by
        rw [List.mapM_cons, hf n out[n] (List.getElem?_eq_getElem hn')]
        rfl
      rw [List.range_succ, List.mapM_append, ih hn'.le, hlast,
        List.take_succ_eq_append_getElem hn']
      rfl

lemma zero_notMem_xmlEscapeByte {c : UInt8} (h : c ≠ 0) : 0 ∉ xmlEscapeByte c := by
  unfold xmlEscapeByte
  split_ifs
  · decide
  · decide
  · decide
  · rw [List.mem_singleton]
    exact Ne.symm h

/-- **What the run returns** is what the model of `xmlEscape` says, as long as the index does not
wrap around. -/
theorem xmlEscapeRun_result (hshort : src.text.length + growth src.text < 2 ^ 32)
    (hne : src.text ≠ []) (hrun : xmlEscapeRun src turns = some e) :
    e.result = xmlEscape src.text := by
  obtain ⟨e', hafter, rfl⟩ := xmlEscapeRun_eq hne hrun
  have hwrote := hafter.wrote
  rw [List.take_length] at hwrote
  have hpos : (e'.write 0).pos.toNat = (src.text.flatMap xmlEscapeByte).length := by
    rw [Escape.write_pos, hwrote.pos, length_escaped, Nat.mod_eq_of_lt hshort]
  have hnewString : ∀ i c, (src.text.flatMap xmlEscapeByte)[i]? = some c →
      (e'.write 0).newString i = some c := by
    intro i c hi
    refine (hwrote.put 0).newString ?_ i c ?_
    · rw [List.length_append, length_escaped, List.length_singleton]
      omega
    · rw [List.getElem?_append_left (List.getElem?_eq_some_iff.mp hi).1]
      exact hi
  have hnul : 0 ∉ src.text.flatMap xmlEscapeByte := by
    rw [List.mem_flatMap]
    rintro ⟨c, hc, hzero⟩
    exact zero_notMem_xmlEscapeByte (fun h => src.nonzero (h ▸ hc)) hzero
  rw [Escape.result, hpos, mapM_range le_rfl hnewString, List.take_length, Option.map_some,
    cString_eq_self hnul, xmlEscape, if_neg hne]

/-- Three characters, one of them as it is. -/
example : (xmlEscapeRun ⟨ascii "<a&", fun _ => 7, by decide⟩ 3).bind Escape.result =
    some (ascii "&lt;a&amp;") := by decide

end Deleter

end Clarc
