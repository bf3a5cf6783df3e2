import Mathlib

/-!
# Loops that end by a test, and loops over pieces

A `do`–`while` loop performs its body once more each time its condition holds, and nothing says that
it ends: `doWhile` performs at most so many turns, and has no result where they do not suffice.

* `doWhile_counted` — **the counting rule**: with an invariant for each number of turns that is kept
  by a turn, goes with the condition up to a turn and against it there, the loop ends at that turn;
* `doWhile_unique` — the result does not depend on how many turns are allowed;
* `doWhile_invariant` — what holds after the first turn and is kept by a turn holds at the end;
* `foldl_appends` — **the appending rule**: where each piece makes what is held longer by its own
  text, all pieces together make it longer by all their texts.
-/

namespace Loops

/-! ## `do`–`while` -/

section DoWhile

variable {σ : Type*} {body : σ → σ} {goesOn : σ → Bool} {s t t' : σ} {m n : ℕ}

/-- A `do`–`while` loop of at most so many turns. -/
def doWhile (body : σ → σ) (goesOn : σ → Bool) : ℕ → σ → Option σ
  | 0, _ => none
  | turns + 1, s =>
      if goesOn (body s) then doWhile body goesOn turns (body s) else some (body s)

/-- **The counting rule.** -/
theorem doWhile_counted {I : ℕ → σ → Prop} (h0 : I 0 s)
    (hturn : ∀ k t, k ≤ n → I k t → I (k + 1) (body t))
    (hon : ∀ k t, k < n → I (k + 1) t → goesOn t = true)
    (hend : ∀ t, I (n + 1) t → goesOn t = false) :
    ∃ t, doWhile body goesOn (n + 1) s = some t ∧ I (n + 1) t := by
  induction n generalizing I s with
  | zero =>
      have hbody : I 1 (body s) := hturn 0 s le_rfl h0
      refine ⟨body s, ?_, hbody⟩
      rw [doWhile, hend _ hbody]
      rfl
  | succ n ih =>
      have hbody : I 1 (body s) := hturn 0 s (Nat.zero_le _) h0
      obtain ⟨t, ht, hlast⟩ := ih (I := fun k => I (k + 1)) hbody
        (fun k t hk hI => hturn (k + 1) t (by omega) hI)
        (fun k t hk hI => hon (k + 1) t (by omega) hI) hend
      refine ⟨t, ?_, hlast⟩
      rw [doWhile, hon 0 _ (Nat.zero_lt_succ _) hbody]
      exact ht

/-- The result does not depend on how many turns are allowed. -/
theorem doWhile_unique (h : doWhile body goesOn m s = some t)
    (h' : doWhile body goesOn n s = some t') : t = t' := by
  induction m generalizing n s with
  | zero => cases h
  | succ m ih =>
      cases n with
      | zero => cases h'
      | succ n =>
          rw [doWhile] at h h'
          split_ifs at h h' with hon
          · exact ih h h'
          · exact (Option.some.inj h).symm.trans (Option.some.inj h')

/-- What holds after the first turn and is kept by a turn holds at the end. -/
theorem doWhile_invariant (P : σ → Prop) (h : doWhile body goesOn n s = some t)
    (hfirst : P (body s)) (hturn : ∀ u, P u → P (body u)) : P t := by
  induction n generalizing s with
  | zero => cases h
  | succ n ih =>
      rw [doWhile] at h
      split_ifs at h with hon
      · exact ih h (hturn _ hfirst)
      · exact Option.some.inj h ▸ hfirst

end DoWhile

/-! ## Pieces -/

section Pieces

variable {σ α β : Type*} (Holds : List β → σ → Prop) {step : σ → α → σ} {text : α → List β}

/-- **The appending rule.** -/
theorem foldl_appends (hstep : ∀ out s a, Holds out s → Holds (out ++ text a) (step s a))
    {out : List β} {s : σ} (h : Holds out s) (pieces : List α) :
    Holds (out ++ pieces.flatMap text) (pieces.foldl step s) := by
  induction pieces generalizing out s with
  | nil =>
      rw [List.flatMap_nil, List.append_nil]
      exact h
  | cons a pieces ih =>
      rw [List.flatMap_cons, ← List.append_assoc, List.foldl_cons]
      exact ih (hstep out s a h)

/-- The appending rule for pieces that are texts themselves. -/
theorem foldl_appends_flatten {step : σ → List β → σ}
    (hstep : ∀ out s chunk, Holds out s → Holds (out ++ chunk) (step s chunk))
    {out : List β} {s : σ} (h : Holds out s) (chunks : List (List β)) :
    Holds (out ++ chunks.flatten) (chunks.foldl step s) := by
  rw [List.flatten_eq_flatMap]
  exact foldl_appends Holds hstep h chunks

/-- The appending rule for single characters. -/
theorem foldl_appends_singles {step : σ → β → σ}
    (hstep : ∀ out s c, Holds out s → Holds (out ++ [c]) (step s c))
    {out : List β} {s : σ} (h : Holds out s) (word : List β) :
    Holds (out ++ word) (word.foldl step s) := by
  have hall : Holds (out ++ word.flatMap fun c => [c]) (word.foldl step s) :=
    foldl_appends Holds hstep h word
  rwa [List.flatMap_singleton'] at hall

end Pieces

end Loops
