import Mathlib

/-!
# Reading a sorted list page by page

A server that lists rows by key hands out a page of the rows after a marker, and a client asks for
the next page with the last key it was given.  This file has the rows after a marker and the two
facts that paging rests on, for any keys with a transitive, irreflexive order:

* `after_key` — after the key of a row come exactly the rows behind it;
* `eq_of_heads` — two remainders of the list that begin with the same row are the same, so the
  first row of a page tells where the client is.
-/

namespace Keyset

variable {K V : Type*}

/-- **Remainders of a list without repetitions that begin with the same row are the same.** -/
theorem eq_of_heads {l r r' : List V} (hnodup : l.Nodup) (h : r <:+ l) (h' : r' <:+ l)
    (hhead : r.head? = r'.head?) : r = r' := by
  -- one is a suffix of the other; what is in front of it would repeat its first row
  wlog hle : r <:+ r' generalizing r r'
  · rcases List.suffix_or_suffix_of_suffix h h' with hle' | hle'
    · exact absurd hle' hle
    · exact (this h' h hhead.symm hle').symm
  obtain ⟨front, hfront⟩ := hle
  have hnodup' : r'.Nodup := hnodup.sublist h'.sublist
  rcases front with _ | ⟨v, front⟩
  · exact hfront
  · rw [← hfront, List.cons_append, List.head?_cons] at hhead
    have hmem : v ∈ r := List.mem_of_mem_head? (Option.mem_def.mpr hhead)
    rw [← hfront, List.cons_append, List.nodup_cons] at hnodup'
    exact absurd (List.mem_append_right front hmem) hnodup'.1

variable [LT K] (key : V → K)

/-- The rows are sorted by their keys, which are distinct. -/
def Sorted (l : List V) : Prop := l.Pairwise fun v w => key v < key w

variable [DecidableLT K]

/-- The rows after a marker: those with a greater key, or all of them without a marker. -/
def after (l : List V) : Option K → List V
  | none => l
  | some marker => l.filter fun v => marker < key v

variable {key} {l : List V} [Trans (α := K) (· < ·) (· < ·) (· < ·)]

/-- The rows after a marker are a suffix of the list. -/
lemma Sorted.after_suffix (h : Sorted key l) (marker : Option K) : after key l marker <:+ l := by
  cases marker with
  | none => exact List.suffix_refl l
  | some marker =>
      induction l with
      | nil => exact List.suffix_refl []
      | cons v l ih =>
          obtain ⟨hv, hl⟩ := List.pairwise_cons.mp h
          by_cases hlt : marker < key v
          · -- then every later key is greater too
            have hall : after key (v :: l) (some marker) = v :: l := by
              refine List.filter_eq_self.mpr fun w hw => ?_
              rcases List.mem_cons.mp hw with rfl | hw
              · exact decide_eq_true hlt
              · exact decide_eq_true (Trans.trans hlt (hv w hw))
            rw [hall]
          · have hdrop : after key (v :: l) (some marker) = after key l (some marker) := by
              rw [after, List.filter_cons_of_neg (by simpa using hlt), after]
            rw [hdrop]
            exact (ih hl).trans (List.suffix_cons v l)

variable [Std.Irrefl (α := K) (· < ·)]

omit [DecidableLT K] [Trans (α := K) (· < ·) (· < ·) (· < ·)] in
lemma Sorted.nodup (h : Sorted key l) : l.Nodup := by
  refine List.Pairwise.imp ?_ h
  rintro v w hlt rfl
  exact Std.Irrefl.irrefl _ hlt

/-- **After the key of a row come the rows behind it.** -/
theorem Sorted.after_key {s t : List V} {v : V} (h : Sorted key (s ++ v :: t)) :
    after key (s ++ v :: t) (some (key v)) = t := by
  obtain ⟨-, hright, hcross⟩ := List.pairwise_append.mp h
  have hs : s.filter (fun w => decide (key v < key w)) = [] := by
    refine List.filter_eq_nil_iff.mpr fun w hw hlt => ?_
    have hback : key w < key v := hcross w hw v List.mem_cons_self
    exact Std.Irrefl.irrefl _ (Trans.trans hback (of_decide_eq_true hlt) : key w < key w)
  have hv : decide (key v < key v) = false := decide_eq_false (Std.Irrefl.irrefl _)
  have ht : t.filter (fun w => decide (key v < key w)) = t :=
    List.filter_eq_self.mpr fun w hw => decide_eq_true ((List.pairwise_cons.mp hright).1 w hw)
  rw [after, List.filter_append, hs, List.filter_cons_of_neg (by simp [hv]), ht, List.nil_append]

end Keyset
