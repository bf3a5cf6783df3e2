import Mathlib

/-!
# Runs of a process in an environment

A process is a partial step function: in a state, an action either cannot happen or leads to one
next state and shows a list of events.  What the process cannot choose — the answers it gets, the
moment another thread moves — is the action; what an observer can see is the events.

An environment is a relation on a state of its own.  It says which actions it lets happen, and how
each one changes it: a server that stores what it is sent, a clock, a file system.  `Run` is a
finite run of the two together, and every result about "every run" or "every reachable state" goes
through it:

* `Run.invariant` — what holds at the start and survives one step holds at the end of every run;
* `Run.simulate` — a process whose steps are those of another, between the images of its states, has
  the other's runs;
* `Run.trans`, `Run.mapEnv` — runs compose, and a run in one environment is a run in any other
  that allows its steps;
* `exec_run` — a list of actions that the step function executes is a run, so a concrete run is
  checked by evaluating it;
* `Run.eq_of_stuck` — a process without a choice has one run to its end;
* `Terminating` — no run goes on for ever, from a measure that every step lowers
  (`terminating_of_measure`).
-/

namespace Reactive

variable {σ α ε ω ω' : Type*}

/-- A process: the next state and the events shown, or `none` when the action cannot happen. -/
abbrev Process (σ α ε : Type*) := σ → α → Option (σ × List ε)

/-- An environment: which actions and events it allows in a state, and the state after them. -/
abbrev Environment (ω α ε : Type*) := ω → α → List ε → ω → Prop

/-- A finite run of a process in an environment, with the events shown along it. -/
inductive Run (step : Process σ α ε) (env : Environment ω α ε) (s : σ) (w : ω) :
    List ε → σ → ω → Prop
  | start : Run step env s w [] s w
  | move {es t x a fs u y} : Run step env s w es t x → step t a = some (u, fs) →
      env x a fs y → Run step env s w (es ++ fs) u y

/-- The environment without a state that allows what `ok` allows. -/
def always (ok : α → List ε → Prop) : Environment Unit α ε := fun _ a fs _ => ok a fs

/-- The environment that allows everything. -/
def anything : Environment Unit α ε := always fun _ _ => True

variable {step : Process σ α ε} {env : Environment ω α ε}
  {s t u : σ} {w x y : ω} {es fs : List ε}

/-! ## Invariants and composition -/

/-- **The invariant rule.**  The invariant may speak of the events shown so far, of the process
and of its environment. -/
theorem Run.invariant {I : List ε → σ → ω → Prop} (h : Run step env s w es t x)
    (h0 : I [] s w)
    (hstep : ∀ {es t x a fs u y}, I es t x → step t a = some (u, fs) → env x a fs y →
      I (es ++ fs) u y) : I es t x := by
  induction h with
  | start => exact h0
  | move _ hs he ih => exact hstep ih hs he

/-- Runs compose. -/
theorem Run.trans (h : Run step env s w es t x) (h' : Run step env t x fs u y) :
    Run step env s w (es ++ fs) u y := by
  induction h' with
  | start => simpa using h
  | move _ hs he ih =>
      rw [← List.append_assoc]
      exact ih.move hs he

/-- One step is a run. -/
theorem Run.one {a : α} (hs : step s a = some (t, es)) (he : env w a es x) :
    Run step env s w es t x := by
  simpa using Run.start.move hs he

/-- One step in an environment without a state that allows it. -/
theorem Run.always_one {ok : α → List ε → Prop} {a : α} (hs : step s a = some (t, es))
    (hok : ok a es) : Run step (always ok) s () es t () :=
  Run.one hs hok

/-- A run in one environment is a run in another that allows each of its steps. -/
theorem Run.mapEnv {env' : Environment ω' α ε} (f : ω → ω')
    (hf : ∀ {x a fs y}, env x a fs y → env' (f x) a fs (f y))
    (h : Run step env s w es t x) : Run step env' s (f w) es t (f x) := by
  induction h with
  | start => exact .start
  | move _ hs he ih => exact ih.move hs (hf he)

/-- What holds of all events of a run holds of those of each step. -/
theorem Run.of_events {P : ε → Prop} (h : Run step env s w es t x) (hes : ∀ e ∈ es, P e) :
    Run step (always fun _ fs => ∀ e ∈ fs, P e) s () es t () := by
  induction h with
  | start => exact .start
  | move _ hs _ ih =>
      refine (ih fun e he => hes e (List.mem_append_left _ he)).move hs ?_
      exact fun e he => hes e (List.mem_append_right _ he)

/-- **Forward simulation.**  Where the invariant holds, each step of the process is one of the other
between the images of its states, or shows nothing and leaves the image as it is. -/
theorem Run.simulate {τ β : Type*} {step' : Process τ β ε} (f : σ → τ) {I : σ → Prop}
    (h : Run step env s w es t x) (h0 : I s)
    (hI : ∀ {t a fs u}, I t → step t a = some (u, fs) → I u)
    (hsim : ∀ {t a fs u}, I t → step t a = some (u, fs) →
      (fs = [] ∧ f u = f t) ∨ ∃ b, step' (f t) b = some (f u, fs)) :
    Run step' anything (f s) () es (f t) () := by
  have hboth : I t ∧ Run step' anything (f s) () es (f t) () := by
    induction h with
    | start => exact ⟨h0, .start⟩
    | move _ hs _ ih =>
        obtain ⟨ht, hrun⟩ := ih
        refine ⟨hI ht hs, ?_⟩
        rcases hsim ht hs with ⟨rfl, hsame⟩ | ⟨b, hb⟩
        · rw [hsame, List.append_nil]
          exact hrun
        · exact hrun.move hb trivial
  exact hboth.2

/-! ## Executing a list of actions -/

/-- Perform a list of actions: the state reached, and each action with the events it showed. -/
def exec (step : Process σ α ε) : σ → List α → Option (σ × List (α × List ε))
  | s, [] => some (s, [])
  | s, a :: as =>
      match step s a with
      | none => none
      | some (u, fs) =>
          match exec step u as with
          | none => none
          | some (t, tr) => some (t, (a, fs) :: tr)

/-- The environment lets the recorded actions happen one after another. -/
def Accepts (env : Environment ω α ε) : ω → List (α × List ε) → ω → Prop
  | w, [], w' => w = w'
  | w, p :: tr, w' => ∃ x, env w p.1 p.2 x ∧ Accepts env x tr w'

/-- The events of a record of actions, in order. -/
def shown (tr : List (α × List ε)) : List ε := tr.flatMap Prod.snd

/-- **What executes is a run.** -/
theorem exec_run : ∀ {as : List α} {s : σ} {w w' : ω} {t : σ} {tr : List (α × List ε)},
    exec step s as = some (t, tr) → Accepts env w tr w' → Run step env s w (shown tr) t w'
  | [], s, w, w', t, tr, h, ha => by
      simp only [exec, Option.some.injEq, Prod.mk.injEq] at h
      obtain ⟨rfl, rfl⟩ := h
      cases ha
      exact .start
  | a :: as, s, w, w', t, tr, h, ha => by
      simp only [exec] at h
      split at h
      · cases h
      next u fs hs =>
        split at h
        · cases h
        next t' tr' ht =>
          simp only [Option.some.injEq, Prod.mk.injEq] at h
          obtain ⟨rfl, rfl⟩ := h
          obtain ⟨x, he, hrest⟩ := ha
          exact (Run.one hs he).trans (exec_run ht hrest)

/-- An environment without a state accepts a record whose steps it allows. -/
lemma accepts_always {ok : α → List ε → Prop} {tr : List (α × List ε)}
    (h : ∀ p ∈ tr, ok p.1 p.2) : Accepts (always ok) () tr () := by
  induction tr with
  | nil => rfl
  | cons p tr ih =>
      exact ⟨(), h p List.mem_cons_self, ih fun q hq => h q (List.mem_cons_of_mem _ hq)⟩

/-- A list of actions that executes, whose record an environment without a state allows and whose
events and last state pass a test, gives a run that passes the test. -/
theorem run_of_exec (step : Process σ α ε) (s : σ) (as : List α)
    (ok : α → List ε → Prop) [∀ a fs, Decidable (ok a fs)]
    (P : List ε → σ → Prop) [∀ es t, Decidable (P es t)]
    (h : (exec step s as).any (fun r => decide (P (shown r.2) r.1) &&
      r.2.all fun p => decide (ok p.1 p.2)) = true) :
    ∃ es t, Run step (always ok) s () es t () ∧ P es t := by
  rcases hexec : exec step s as with _ | ⟨t, tr⟩
  · simp [hexec] at h
  · simp only [hexec, Option.any_some, Bool.and_eq_true, decide_eq_true_eq,
      List.all_eq_true] at h
    exact ⟨shown tr, t, exec_run hexec (accepts_always h.2), h.1⟩

/-- The recorded actions are those of the list. -/
lemma exec_mem : ∀ {as : List α} {s t : σ} {tr : List (α × List ε)},
    exec step s as = some (t, tr) → ∀ p ∈ tr, p.1 ∈ as
  | [], s, t, tr, h, p, hp => by
      simp only [exec, Option.some.injEq, Prod.mk.injEq] at h
      rw [← h.2] at hp
      cases hp
  | a :: as, s, t, tr, h, p, hp => by
      simp only [exec] at h
      split at h
      · cases h
      · split at h
        · cases h
        next t' tr' ht =>
          simp only [Option.some.injEq, Prod.mk.injEq] at h
          rw [← h.2] at hp
          rcases List.mem_cons.mp hp with rfl | hp
          · exact List.mem_cons_self
          · exact List.mem_cons_of_mem a (exec_mem ht p hp)

/-- The same run makes only actions of the list. -/
theorem run_of_exec_mem (step : Process σ α ε) (s : σ) (as : List α)
    (ok : α → List ε → Prop) [∀ a fs, Decidable (ok a fs)]
    (P : List ε → σ → Prop) [∀ es t, Decidable (P es t)]
    (h : (exec step s as).any (fun r => decide (P (shown r.2) r.1) &&
      r.2.all fun p => decide (ok p.1 p.2)) = true) :
    ∃ es t, Run step (always fun a fs => a ∈ as ∧ ok a fs) s () es t () ∧ P es t := by
  rcases hexec : exec step s as with _ | ⟨t, tr⟩
  · simp [hexec] at h
  · simp only [hexec, Option.any_some, Bool.and_eq_true, decide_eq_true_eq,
      List.all_eq_true] at h
    refine ⟨shown tr, t, exec_run hexec (accepts_always fun p hp => ?_), h.1⟩
    exact ⟨exec_mem hexec p hp, h.2 p hp⟩

/-! ## One action -/

/-- A run is empty, or begins with a step. -/
theorem Run.head (h : Run step env s w es t x) : (s = t ∧ w = x ∧ es = []) ∨
    ∃ a u fs y es', step s a = some (u, fs) ∧ env w a fs y ∧ Run step env u y es' t x ∧
      es = fs ++ es' := by
  induction h with
  | start => exact Or.inl ⟨rfl, rfl, rfl⟩
  | @move es t x a fs u y _ hs he ih =>
      right
      rcases ih with ⟨rfl, rfl, rfl⟩ | ⟨a', u', fs', y', es', hs', he', hrun, rfl⟩
      · exact ⟨a, u, fs, y, [], hs, he, .start, by simp⟩
      · exact ⟨a', u', fs', y', es' ++ fs, hs', he', hrun.move hs he, by simp⟩

/-- **Two runs of a process without a choice**: one of them goes on where the other ends. -/
theorem Run.comparable {step : Process σ Unit ε} {t' : σ} {es' : List ε} {o : Unit}
    (h : Run step anything s () es t ()) (h' : Run step anything s () es' t' o) :
    (∃ fs, Run step anything t () fs t' () ∧ es' = es ++ fs) ∨
      ∃ fs, Run step anything t' () fs t () ∧ es = es' ++ fs := by
  induction h' with
  | start => exact Or.inr ⟨es, h, rfl⟩
  | @move es₁ u y a fs v z hrun hs _ ih =>
      rcases ih with ⟨gs, hgs, rfl⟩ | ⟨gs, hgs, rfl⟩
      · exact Or.inl ⟨gs ++ fs, hgs.move hs trivial, by simp⟩
      · rcases hgs.head with ⟨rfl, -, rfl⟩ | ⟨_, v', fs', _, gs', hs', -, hrest, rfl⟩
        · exact Or.inl ⟨fs, .one hs trivial, by simp⟩
        · -- the first step is the same
          obtain ⟨rfl, rfl⟩ := Prod.mk.inj (Option.some.inj (hs.symm.trans hs'))
          exact Or.inr ⟨gs', hrest, by simp⟩

/-- Two runs of a process without a choice that both end where it has no step are the same. -/
theorem Run.eq_of_stuck {step : Process σ Unit ε} {t' : σ} {es' : List ε}
    (h : Run step anything s () es t ()) (h' : Run step anything s () es' t' ())
    (ht : step t () = none) (ht' : step t' () = none) : t = t' ∧ es = es' := by
  have hstuck : ∀ {u v : σ} {fs : List ε}, step u () = none → Run step anything u () fs v () →
      u = v ∧ fs = [] := by
    intro u v fs hu hrun
    rcases hrun.head with ⟨rfl, -, rfl⟩ | ⟨_, _, _, _, _, hs, -⟩
    · exact ⟨rfl, rfl⟩
    · rw [hu] at hs
      cases hs
  rcases h.comparable h' with ⟨fs, hrun, rfl⟩ | ⟨fs, hrun, rfl⟩
  · obtain ⟨rfl, rfl⟩ := hstuck ht hrun
    exact ⟨rfl, by simp⟩
  · obtain ⟨rfl, rfl⟩ := hstuck ht' hrun
    exact ⟨rfl, by simp⟩

/-! ## Termination -/

/-- `q` is one step after `p`. -/
def Next (step : Process σ α ε) (env : Environment ω α ε) (q p : σ × ω) : Prop :=
  ∃ a fs, step p.1 a = some (q.1, fs) ∧ env p.2 a fs q.2

/-- Every run from the state is finite. -/
def Terminating (step : Process σ α ε) (env : Environment ω α ε) (s : σ) (w : ω) : Prop :=
  Acc (Next step env) (s, w)

/-- **Termination by a measure** that every step lowers, from the states of an invariant. -/
theorem terminating_of_measure {I : σ → ω → Prop} (μ : σ → ω → ℕ)
    (hI : ∀ {t x a fs u y}, I t x → step t a = some (u, fs) → env x a fs y →
      I u y ∧ μ u y < μ t x) (h : I s w) : Terminating step env s w := by
  generalize hn : μ s w = n
  induction n using Nat.strong_induction_on generalizing s w with
  | _ n ih =>
      refine Acc.intro _ ?_
      rintro ⟨u, y⟩ ⟨a, fs, hs, he⟩
      obtain ⟨hu, hlt⟩ := hI h hs he
      exact ih _ (hn ▸ hlt) hu rfl

end Reactive
