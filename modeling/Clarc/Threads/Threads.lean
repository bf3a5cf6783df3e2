import Clarc.Core.Run

/-!
# The slots of a pool: `threads.cc`

A `Threads` is an array of flags.  The dispatching loop of a program looks for a flag that is 0
(`sleepTillThreadFree`), sets it (`markBusy`) and creates a thread with its number; the thread does
its job and clears the flag (`markFree`); at the end the loop looks at all flags until none is set
(`sleepTillAllThreadsFree`).  Nothing is locked: a look reads one flag, and the threads clear theirs
in between.

`Program.step` is one step of the loop or of a thread, one flag at a time.  A thread stays in the
list of those created, with the number it was given and the times it has called `markFree`, so that
nothing in the model itself keeps two threads apart.  What a `Body` — the function the threads run —
has to do is part of it: to call `markFree` exactly once on every path to its end, and nothing that
others could notice after it.

* `Owned` — who owns a slot: only the loop sets a flag, only the owner clears it;
* `owned_run` — it holds in every run;
* `slots_run` — **no two live threads have one slot, and all are done when the wait is over.**
-/

namespace Clarc

open Reactive

namespace Threads

/-- What a thread does in a turn.  To `lose` is to end the process. -/
inductive Turn (γ D W : Type)
  | goOn (shared : γ) (w : W)
  | markFree (w : W)
  | exit
  | lose (pc : D)

/-- The function that the threads run on their jobs `J`: where a thread stands is a `W`, what it
shares with the others a `γ`.  It `holds` its slot until it has called `markFree`. -/
structure Body (γ D J W A ε : Type) where
  enter : J → W
  turn : γ → J → W → A → Option (Turn γ D W × List ε)
  holds : W → Bool
  holds_enter : ∀ j, holds (enter j) = true
  goOn_holds : ∀ {g j w a g' w' es}, turn g j w a = some (.goOn g' w', es) →
    holds w' = holds w ∧ (holds w = false → g' = g ∧ es = [])
  markFree_holds : ∀ {g j w a w' es}, turn g j w a = some (.markFree w', es) →
    holds w = true ∧ holds w' = false ∧ es = []
  exit_holds : ∀ {g j w a es}, turn g j w a = some (.exit, es) → holds w = false ∧ es = []
  lose_holds : ∀ {g j w a pc es}, turn g j w a = some (.lose pc, es) → holds w = true

/-- A program around a pool.  Where its loop stands is a `D`: it may stand before
`sleepTillThreadFree` with a job, before `sleepTillAllThreadsFree`, or somewhere else. -/
structure Program (γ D J W A B ε : Type) where
  body : Body γ D J W A ε
  threadsCount : ℕ
  loop : γ → D → B → Option (γ × D × List ε)
  wants : D → Option J
  created : D → D
  notCreated : D → D
  joins : D → Bool
  joined : γ → D → D
  alive : D → Bool

/-- A thread that was created: its job, its number, where it stands unless it has ended, and how
often it has called `markFree`. -/
structure Thread (J W : Type) where
  job : J
  threadNumber : ℕ
  state : Option W
  marks : ℕ := 0

/-- Where the loop stands in a function of `Threads`.  After `delete` there is none. -/
inductive Scan
  | idle
  | finding (i : ℕ)
  | found (threadNumber : ℕ)
  | marked (threadNumber : ℕ)
  | joining (i : ℕ) (foundBusy : Bool)
  | deleted
  deriving DecidableEq, Repr

/-- A run of a program. -/
structure State (γ D J W : Type) where
  shared : γ
  pc : D
  threads : List (Thread J W) := []
  busyThreads : ℕ → Bool := fun _ => false
  scan : Scan := .idle

/-- A step of the loop or of a thread. -/
inductive Action (A B : Type)
  | loop (b : B)
  | look
  | markBusy
  | create (created : Bool)
  | thread (k : ℕ) (a : A)

variable {γ D J W A B ε ω : Type}

namespace Program

variable (p : Program γ D J W A B ε)

/-! ## Steps -/

/-- A look at one flag, or what the loops in `findFreeThread` and `sleepTillAllThreadsFree` do at
their ends. -/
def look (s : State γ D J W) : Option (State γ D J W) :=
  match s.scan with
  | .idle =>
      if (p.wants s.pc).isSome then some { s with scan := .finding 0 }
      else if p.joins s.pc then some { s with scan := .joining 0 false }
      else none
  | .finding i =>
      if i < p.threadsCount then
        if s.busyThreads i then some { s with scan := .finding (i + 1) }
        else some { s with scan := .found i }
      else some { s with scan := .finding 0 }
  | .joining i foundBusy =>
      if i < p.threadsCount then
        some { s with scan := .joining (i + 1) (foundBusy || s.busyThreads i) }
      else if foundBusy then some { s with scan := .joining 0 false }
      else some { s with pc := p.joined s.shared s.pc, scan := .deleted }
  | .found _ | .marked _ | .deleted => none

/-- A turn of thread `k`. -/
def threadStep (s : State γ D J W) (k : ℕ) (a : A) : Option (State γ D J W × List ε) :=
  match s.threads[k]? with
  | none => none
  | some t =>
      match t.state with
      | none => none
      | some w =>
          match p.body.turn s.shared t.job w a with
          | none => none
          | some (.goOn shared w', es) =>
              some ({ s with
                shared := shared
                threads := s.threads.set k { t with state := some w' } }, es)
          | some (.markFree w', es) =>
              some ({ s with
                threads := s.threads.set k { t with state := some w', marks := t.marks + 1 }
                busyThreads := Function.update s.busyThreads t.threadNumber false }, es)
          | some (.exit, es) =>
              some ({ s with threads := s.threads.set k { t with state := none } }, es)
          | some (.lose pc, es) => some ({ s with pc := pc }, es)

/-- A step of the program. -/
def step : Process (State γ D J W) (Action A B) ε := fun s a =>
  if p.alive s.pc then
    match a, s.scan with
    | .loop b, .idle | .loop b, .deleted =>
        (p.loop s.shared s.pc b).map fun r => ({ s with shared := r.1, pc := r.2.1 }, r.2.2)
    | .look, _ => (p.look s).map fun s' => (s', [])
    | .markBusy, .found n =>
        some ({ s with
          busyThreads := Function.update s.busyThreads n true
          scan := .marked n }, [])
    | .create created, .marked n =>
        match p.wants s.pc with
        | none => none
        | some j =>
            if created then
              some ({ s with
                pc := p.created s.pc
                threads := s.threads ++ [⟨j, n, some (p.body.enter j), 0⟩]
                scan := .idle }, [])
            else some ({ s with pc := p.notCreated s.pc, scan := .idle }, [])
    | .thread k a, _ => p.threadStep s k a
    | _, _ => none
  else none

end Program

/-! ## Who owns a slot -/

/-- A thread is live until it has called `markFree`. -/
def Thread.live (t : Thread J W) : Bool := t.marks == 0

/-- Thread `k` is live and has number `n`. -/
def Holds (threads : List (Thread J W)) (k n : ℕ) : Prop :=
  ∃ t, threads[k]? = some t ∧ t.live = true ∧ t.threadNumber = n

section
variable {threads : List (Thread J W)} {t t' : Thread J W} {k k' n : ℕ}

/-- A thread that goes on keeps its slot. -/
lemma holds_set (ht : threads[k]? = some t) (hnumber : t'.threadNumber = t.threadNumber)
    (hmarks : t'.marks = t.marks) : Holds (threads.set k t') k' n ↔ Holds threads k' n := by
  unfold Holds
  rw [List.getElem?_set]
  split_ifs with hk hlength
  · subst hk
    constructor
    · rintro ⟨_, ⟨⟩, hlive, rfl⟩
      exact ⟨t, ht, by rwa [Thread.live, hmarks] at hlive, hnumber.symm⟩
    · rintro ⟨t₁, ht₁, hlive, rfl⟩
      obtain rfl := Option.some.inj (ht.symm.trans ht₁)
      exact ⟨t', rfl, by rwa [Thread.live, hmarks], hnumber⟩
  · exact absurd (List.getElem?_eq_some_iff.mp ht).1 (hk ▸ hlength)
  · exact Iff.rfl

/-- A thread that has called `markFree` holds nothing. -/
lemma holds_set_freed (hfreed : t'.live = false) :
    Holds (threads.set k t') k' n ↔ k' ≠ k ∧ Holds threads k' n := by
  unfold Holds
  rw [List.getElem?_set]
  split_ifs with hk hlength
  · subst hk
    simp [hfreed]
  · subst hk
    simp
  · simp [Ne.symm hk]

/-- A new thread holds its slot, and the others hold theirs. -/
lemma holds_append (hlive : t.live = true) : Holds (threads ++ [t]) k n ↔
    Holds threads k n ∨ (k = threads.length ∧ t.threadNumber = n) := by
  unfold Holds
  rw [List.getElem?_append]
  split_ifs with hk
  · constructor
    · exact Or.inl
    · rintro (h | ⟨rfl, -⟩)
      · exact h
      · exact absurd hk (lt_irrefl _)
  · have hnone : threads[k]? = none := List.getElem?_eq_none (not_lt.mp hk)
    rw [hnone]
    constructor
    · rintro ⟨t₁, ht₁, -, hnumber⟩
      obtain ⟨hzero, rfl⟩ : k - threads.length = 0 ∧ t = t₁ := by
        rcases hsub : k - threads.length with _ | m
        · simpa [hsub] using ht₁
        · simp [hsub] at ht₁
      exact Or.inr ⟨by omega, hnumber⟩
    · rintro (⟨t₁, ht₁, -⟩ | ⟨rfl, hnumber⟩)
      · cases ht₁
      · exact ⟨t, by simp, hlive, hnumber⟩

end

/-- What the loop knows of the flags. -/
def State.Seen (s : State γ D J W) (threadsCount : ℕ) : Prop :=
  match s.scan with
  | .idle | .finding _ => True
  | .found n => n < threadsCount ∧ s.busyThreads n = false
  | .marked n => n < threadsCount ∧ s.busyThreads n = true ∧ ∀ k, ¬ Holds s.threads k n
  | .joining i foundBusy => foundBusy = false → ∀ n < i, s.busyThreads n = false
  | .deleted => ∀ k n, ¬ Holds s.threads k n

/-- **Who owns a slot**: the flags of the live threads are set, each has a number of its own, and a
thread has called `markFree` once when it does not hold its slot any more. -/
structure Owned (p : Program γ D J W A B ε) (s : State γ D J W) : Prop where
  busy : ∀ k n, Holds s.threads k n → n < p.threadsCount ∧ s.busyThreads n = true
  alone : ∀ k k' n, Holds s.threads k n → Holds s.threads k' n → k = k'
  seen : s.Seen p.threadsCount
  standing : ∀ t ∈ s.threads, ∀ w, t.state = some w → t.marks = if p.body.holds w then 0 else 1
  ended : ∀ t ∈ s.threads, t.state = none → t.marks = 1

section
variable {p : Program γ D J W A B ε} {s s' : State γ D J W} {es : List ε}

lemma owned_start (shared : γ) (pc : D) : Owned p { shared := shared, pc := pc } where
  busy := by
    rintro k n ⟨t, ht, -⟩
    cases ht
  alone := by
    rintro k k' n ⟨t, ht, -⟩
    cases ht
  seen := trivial
  standing := by
    intro t ht
    cases ht
  ended := by
    intro t ht
    cases ht

/-- The loop looks at a flag. -/
lemma Owned.look (h : Owned p s) (hs : p.look s = some s') : Owned p s' := by
  unfold Program.look at hs
  split at hs
  · split_ifs at hs <;> obtain rfl := Option.some.inj hs
    · exact ⟨h.busy, h.alone, trivial, h.standing, h.ended⟩
    · exact ⟨h.busy, h.alone, fun _ n hn => absurd hn (Nat.not_lt_zero n), h.standing, h.ended⟩
  next i hscan =>
    split_ifs at hs with hi hbusy <;> obtain rfl := Option.some.inj hs
    · exact ⟨h.busy, h.alone, trivial, h.standing, h.ended⟩
    · exact ⟨h.busy, h.alone, ⟨hi, by simpa using hbusy⟩, h.standing, h.ended⟩
    · exact ⟨h.busy, h.alone, trivial, h.standing, h.ended⟩
  next i foundBusy hscan =>
    have hseen := h.seen
    rw [State.Seen, hscan] at hseen
    split_ifs at hs with hi hfound <;> obtain rfl := Option.some.inj hs
    · refine ⟨h.busy, h.alone, ?_, h.standing, h.ended⟩
      intro hnone n hn
      obtain ⟨hfound, hbusy⟩ := Bool.or_eq_false_iff.mp hnone
      rcases Nat.lt_succ_iff_lt_or_eq.mp hn with hn | rfl
      · exact hseen hfound n hn
      · exact hbusy
    · exact ⟨h.busy, h.alone, fun _ n hn => absurd hn (Nat.not_lt_zero n), h.standing, h.ended⟩
    · -- every flag has been seen clear, and no live thread clears another's
      refine ⟨h.busy, h.alone, ?_, h.standing, h.ended⟩
      intro k n hk
      obtain ⟨hn, hbusy⟩ := h.busy k n hk
      rw [hseen (by simpa using hfound) n (lt_of_lt_of_le hn (not_lt.mp hi))] at hbusy
      cases hbusy
  all_goals cases hs

/-- What the loop knows stays true when flags are cleared that it does not hold itself, and no
thread gets a slot. -/
lemma State.Seen.mono {threadsCount : ℕ} (h : s.Seen threadsCount) {threads : List (Thread J W)}
    {busyThreads : ℕ → Bool} (hthreads : ∀ k n, Holds threads k n → Holds s.threads k n)
    (hcleared : ∀ n, s.busyThreads n = false → busyThreads n = false)
    (hkept : ∀ n, (∀ k, ¬ Holds s.threads k n) → s.busyThreads n = true → busyThreads n = true)
    (shared : γ) : State.Seen { s with
      shared := shared, threads := threads, busyThreads := busyThreads } threadsCount := by
  unfold State.Seen at h ⊢
  rcases hscan : s.scan with _ | i | n | n | ⟨i, foundBusy⟩ | _ <;> simp only [hscan] at h ⊢
  case found => exact ⟨h.1, hcleared n h.2⟩
  case marked => exact ⟨h.1, hkept n h.2.2 h.2.1, fun k hk => h.2.2 k (hthreads k n hk)⟩
  case joining => exact fun hnone n hn => hcleared n (h hnone n hn)
  case deleted => exact fun k n hk => h k n (hthreads k n hk)

/-- A thread moves on, or ends, and keeps what it holds. -/
lemma Owned.replace (h : Owned p s) {k : ℕ} {t : Thread J W} (ht : s.threads[k]? = some t)
    (state : Option W)
    (hstanding : ∀ w, state = some w → t.marks = if p.body.holds w then 0 else 1)
    (hended : state = none → t.marks = 1) (shared : γ) :
    Owned p { s with
      shared := shared
      threads := s.threads.set k { t with state := state } } := by
  have hholds : ∀ k' n, Holds (s.threads.set k { t with state := state }) k' n ↔
      Holds s.threads k' n := fun k' n => holds_set ht rfl rfl
  refine ⟨?_, ?_, ?_, ?_, ?_⟩
  · exact fun k' n hk => h.busy k' n ((hholds k' n).mp hk)
  · exact fun k₁ k₂ n h₁ h₂ => h.alone k₁ k₂ n ((hholds k₁ n).mp h₁) ((hholds k₂ n).mp h₂)
  · exact h.seen.mono (fun k n hk => (hholds k n).mp hk) (fun _ => id) (fun _ _ => id) shared
  · intro t₁ ht₁ w hw
    rcases List.mem_or_eq_of_mem_set ht₁ with ht₁ | rfl
    · exact h.standing t₁ ht₁ w hw
    · exact hstanding w hw
  · intro t₁ ht₁ hend
    rcases List.mem_or_eq_of_mem_set ht₁ with ht₁ | rfl
    · exact h.ended t₁ ht₁ hend
    · exact hended hend

/-- A live thread calls `markFree`: the flag it clears is that of its own slot and of nobody
else's. -/
lemma Owned.markFree (h : Owned p s) {k : ℕ} {t : Thread J W} {w' : W}
    (ht : s.threads[k]? = some t) (hmarks : t.marks = 0) (hw' : p.body.holds w' = false) :
    Owned p { s with
      threads := s.threads.set k { t with state := some w', marks := t.marks + 1 }
      busyThreads := Function.update s.busyThreads t.threadNumber false } := by
  have hself : Holds s.threads k t.threadNumber := ⟨t, ht, by simp [Thread.live, hmarks], rfl⟩
  have hholds : ∀ k' n, Holds
      (s.threads.set k { t with state := some w', marks := t.marks + 1 }) k' n ↔
        k' ≠ k ∧ Holds s.threads k' n := fun k' n => holds_set_freed (by simp [Thread.live])
  refine ⟨?_, ?_, ?_, ?_, ?_⟩
  · intro k' n hk
    obtain ⟨hne, hk⟩ := (hholds k' n).mp hk
    obtain ⟨hn, hbusy⟩ := h.busy k' n hk
    refine ⟨hn, ?_⟩
    have hslot : n ≠ t.threadNumber := by
      rintro rfl
      exact hne (h.alone k' k _ hk hself)
    simpa [Function.update_of_ne hslot] using hbusy
  · exact fun k₁ k₂ n h₁ h₂ => h.alone k₁ k₂ n ((hholds k₁ n).mp h₁).2 ((hholds k₂ n).mp h₂).2
  · refine h.seen.mono (fun k n hk => ((hholds k n).mp hk).2) ?_ ?_ s.shared
    · intro n hn
      rw [Function.update_apply]
      split_ifs
      · rfl
      · exact hn
    · intro n hnone hn
      have hslot : n ≠ t.threadNumber := by
        rintro rfl
        exact hnone k hself
      rwa [Function.update_of_ne hslot]
  · intro t₁ ht₁ w hw
    rcases List.mem_or_eq_of_mem_set ht₁ with ht₁ | rfl
    · exact h.standing t₁ ht₁ w hw
    · obtain rfl := Option.some.inj hw
      simp [hw', hmarks]
  · intro t₁ ht₁ hend
    rcases List.mem_or_eq_of_mem_set ht₁ with ht₁ | rfl
    · exact h.ended t₁ ht₁ hend
    · cases hend

/-- A thread takes a turn. -/
lemma Owned.thread (h : Owned p s) {k : ℕ} {a : A} (hs : p.threadStep s k a = some (s', es)) :
    Owned p s' := by
  unfold Program.threadStep at hs
  split at hs
  · cases hs
  next t ht =>
    split at hs
    · cases hs
    next w hw =>
      have hmarks := h.standing t (List.mem_of_getElem? ht) w hw
      split at hs
      · cases hs
      next g w' es' hturn =>
        cases hs
        refine h.replace ht (some w') ?_ ?_ g
        · rintro w₁ ⟨⟩
          rw [(p.body.goOn_holds hturn).1]
          exact hmarks
        · rintro ⟨⟩
      next w' es' hturn =>
        cases hs
        obtain ⟨hw, hw', -⟩ := p.body.markFree_holds hturn
        exact h.markFree ht (by simpa [hw] using hmarks) hw'
      next es' hturn =>
        cases hs
        refine h.replace ht none ?_ ?_ s.shared
        · rintro w₁ ⟨⟩
        · intro _
          rw [(p.body.exit_holds hturn).1] at hmarks
          exact hmarks
      next pc es' hturn =>
        cases hs
        exact ⟨h.busy, h.alone, h.seen, h.standing, h.ended⟩

/-- The loop sets a flag that it has seen clear. -/
lemma Owned.markBusy (h : Owned p s) {n : ℕ} (hscan : s.scan = .found n) :
    Owned p { s with
      busyThreads := Function.update s.busyThreads n true
      scan := .marked n } := by
  have hseen := h.seen
  rw [State.Seen, hscan] at hseen
  obtain ⟨hn, hclear⟩ := hseen
  -- the flag was clear, so that no live thread has the slot
  have hfree : ∀ k, ¬ Holds s.threads k n := by
    intro k hk
    rw [(h.busy k n hk).2] at hclear
    cases hclear
  refine ⟨?_, h.alone, ⟨hn, by simp, hfree⟩, h.standing, h.ended⟩
  intro k m hk
  obtain ⟨hm, hbusy⟩ := h.busy k m hk
  refine ⟨hm, ?_⟩
  dsimp only
  rw [Function.update_apply]
  split_ifs
  · rfl
  · exact hbusy

/-- A thread is created with the number whose flag the loop has set. -/
lemma Owned.create (h : Owned p s) {n : ℕ} (hscan : s.scan = .marked n) (j : J) (pc : D) :
    Owned p { s with
      pc := pc
      threads := s.threads ++ [⟨j, n, some (p.body.enter j), 0⟩]
      scan := .idle } := by
  have hseen := h.seen
  rw [State.Seen, hscan] at hseen
  obtain ⟨hn, hmarked, hfree⟩ := hseen
  have hholds : ∀ k m, Holds (s.threads ++ [⟨j, n, some (p.body.enter j), 0⟩]) k m ↔
      Holds s.threads k m ∨ (k = s.threads.length ∧ n = m) := fun k m => holds_append rfl
  refine ⟨?_, ?_, trivial, ?_, ?_⟩
  · intro k m hk
    rcases (hholds k m).mp hk with hk | ⟨-, rfl⟩
    · exact h.busy k m hk
    · exact ⟨hn, hmarked⟩
  · intro k k' m hk hk'
    rcases (hholds k m).mp hk with hk | ⟨rfl, hm⟩ <;>
      rcases (hholds k' m).mp hk' with hk' | ⟨rfl, hm'⟩
    · exact h.alone k k' m hk hk'
    · exact absurd (hm' ▸ hk) (hfree k)
    · exact absurd (hm ▸ hk') (hfree k')
    · rfl
  · intro t ht w hw
    rcases List.mem_append.mp ht with ht | ht
    · exact h.standing t ht w hw
    · obtain rfl := List.mem_singleton.mp ht
      obtain rfl := Option.some.inj hw
      simp [p.body.holds_enter]
  · intro t ht hend
    rcases List.mem_append.mp ht with ht | ht
    · exact h.ended t ht hend
    · obtain rfl := List.mem_singleton.mp ht
      cases hend

/-- **The step lemma.** -/
lemma Owned.step (h : Owned p s) {a : Action A B} (hs : p.step s a = some (s', es)) :
    Owned p s' := by
  unfold Program.step at hs
  split_ifs at hs with halive
  split at hs
  · obtain ⟨r, -, hr⟩ := Option.map_eq_some_iff.mp hs
    cases hr
    exact ⟨h.busy, h.alone, h.seen, h.standing, h.ended⟩
  · obtain ⟨r, -, hr⟩ := Option.map_eq_some_iff.mp hs
    cases hr
    exact ⟨h.busy, h.alone, h.seen, h.standing, h.ended⟩
  · obtain ⟨s₁, hlook, hr⟩ := Option.map_eq_some_iff.mp hs
    cases hr
    exact h.look hlook
  next n hscan =>
    cases hs
    exact h.markBusy hscan
  next created n hscan =>
    split at hs
    · cases hs
    next j hj =>
      split_ifs at hs with hcreated
      · cases hs
        exact h.create hscan j _
      · cases hs
        exact ⟨h.busy, h.alone, trivial, h.standing, h.ended⟩
  · exact h.thread hs
  · cases hs

/-- **The run lemma.** -/
theorem owned_run {env : Environment ω (Action A B) ε} {x x' : ω} {shared : γ} {pc : D}
    (h : Run p.step env { shared := shared, pc := pc } x es s x') : Owned p s :=
  h.invariant (I := fun _ s _ => Owned p s) (owned_start shared pc)
    fun hI hs _ => hI.step hs

/-! ## What follows for the threads -/

/-- No more threads are live than the pool has slots. -/
lemma Owned.live_le (h : Owned p s) :
    (s.threads.filter Thread.live).length ≤ p.threadsCount := by
  have hnodup : ((s.threads.filter Thread.live).map Thread.threadNumber).Nodup := by
    rw [List.Nodup, List.pairwise_map, List.pairwise_filter, List.pairwise_iff_getElem]
    intro i j hi hj hlt hlive hlive' hsame
    have hij := h.alone i j _ ⟨_, List.getElem?_eq_getElem hi, hlive, rfl⟩
      ⟨_, List.getElem?_eq_getElem hj, hlive', hsame.symm⟩
    omega
  have hrange : (s.threads.filter Thread.live).map Thread.threadNumber ⊆
      List.range p.threadsCount := by
    intro n hn
    obtain ⟨t, ht, rfl⟩ := List.mem_map.mp hn
    obtain ⟨ht, hlive⟩ := List.mem_filter.mp ht
    obtain ⟨k, hk⟩ := List.mem_iff_getElem?.mp ht
    exact List.mem_range.mpr (h.busy k _ ⟨t, hk, hlive, rfl⟩).1
  have hle := (List.subperm_of_subset hnodup hrange).length_le
  rwa [List.length_map, List.length_range] at hle

/-- A thread calls `markFree` at most once, and exactly once before it ends. -/
lemma Owned.marks_le (h : Owned p s) {t : Thread J W} (ht : t ∈ s.threads) :
    t.marks ≤ 1 ∧ (t.state = none → t.marks = 1) := by
  refine ⟨?_, h.ended t ht⟩
  rcases hstate : t.state with _ | w
  · exact (h.ended t ht hstate).le
  · rw [h.standing t ht w hstate]
    split_ifs <;> decide

/-- A turn of a thread takes nothing from the others. -/
lemma Owned.keeps_others (h : Owned p s) {k k' n : ℕ} {a : A}
    (hs : p.threadStep s k a = some (s', es)) (hne : k' ≠ k) (hholds : Holds s.threads k' n) :
    Holds s'.threads k' n ∧ s'.busyThreads n = true := by
  have hother : ∀ t', Holds (s.threads.set k t') k' n := by
    rintro t'
    obtain ⟨t, ht, hlive, hnumber⟩ := hholds
    exact ⟨t, by rwa [List.getElem?_set_ne (Ne.symm hne)], hlive, hnumber⟩
  have hstill : Holds s'.threads k' n := by
    unfold Program.threadStep at hs
    split at hs
    · cases hs
    · split at hs
      · cases hs
      · split at hs <;> cases hs
        · exact hother _
        · exact hother _
        · exact hother _
        · exact hholds
  exact ⟨hstill, ((h.thread hs).busy k' n hstill).2⟩

/-- What a thread does after its `markFree` nobody can notice. -/
lemma Owned.silent (h : Owned p s) {k : ℕ} {a : A} (hfreed : ∀ n, ¬ Holds s.threads k n)
    (hs : p.threadStep s k a = some (s', es)) :
    s'.shared = s.shared ∧ s'.pc = s.pc ∧ s'.busyThreads = s.busyThreads ∧ es = [] := by
  unfold Program.threadStep at hs
  split at hs
  · cases hs
  next t ht =>
    split at hs
    · cases hs
    next w hw =>
      have hmarks := h.standing t (List.mem_of_getElem? ht) w hw
      have hnot : p.body.holds w = false := by
        by_contra hholds
        rw [if_pos (by simpa using hholds)] at hmarks
        exact hfreed t.threadNumber ⟨t, ht, by simp [Thread.live, hmarks], rfl⟩
      split at hs
      · cases hs
      next hturn =>
        cases hs
        obtain ⟨hshared, hes⟩ := (p.body.goOn_holds hturn).2 hnot
        exact ⟨hshared, rfl, rfl, hes⟩
      next hturn =>
        rw [(p.body.markFree_holds hturn).1] at hnot
        cases hnot
      next hturn =>
        cases hs
        exact ⟨rfl, rfl, rfl, (p.body.exit_holds hturn).2⟩
      next hturn =>
        rw [p.body.lose_holds hturn] at hnot
        cases hnot

/-- A turn of a thread is one of the program's steps. -/
lemma thread_of_step {k : ℕ} {a : A} (hs : p.step s (.thread k a) = some (s', es)) :
    p.threadStep s k a = some (s', es) := by
  unfold Program.step at hs
  split_ifs at hs
  exact hs

/-- **The slots of a pool**, in every run: two live threads do not have one slot, no more are live
than there are slots, a thread calls `markFree` once and no more, the turn of a thread leaves the
others their slots, and when `sleepTillAllThreadsFree` has returned every thread that was created
has called `markFree` and does nothing more that anybody could notice. -/
theorem slots_run {env : Environment ω (Action A B) ε} {x x' : ω} {shared : γ} {pc : D}
    (h : Run p.step env { shared := shared, pc := pc } x es s x') :
    (∀ k k' n, Holds s.threads k n → Holds s.threads k' n → k = k') ∧
    (s.threads.filter Thread.live).length ≤ p.threadsCount ∧
    (∀ t ∈ s.threads, t.marks ≤ 1 ∧ (t.state = none → t.marks = 1)) ∧
    (∀ k a s' fs, p.step s (.thread k a) = some (s', fs) →
      ∀ k' n, k' ≠ k → Holds s.threads k' n →
        Holds s'.threads k' n ∧ s'.busyThreads n = true) ∧
    (s.scan = .deleted → (∀ t ∈ s.threads, t.marks = 1) ∧
      ∀ k a s' fs, p.step s (.thread k a) = some (s', fs) →
        s'.shared = s.shared ∧ s'.pc = s.pc ∧ fs = []) := by
  have howned := owned_run h
  refine ⟨howned.alone, howned.live_le, fun t => howned.marks_le, ?_, fun hdeleted => ?_⟩
  · intro k a s' fs hs k' n hne hholds
    exact howned.keeps_others (thread_of_step hs) hne hholds
  · have hnone := howned.seen
    rw [State.Seen, hdeleted] at hnone
    constructor
    · intro t ht
      obtain ⟨k, hk⟩ := List.mem_iff_getElem?.mp ht
      have hle := (howned.marks_le ht).1
      by_contra hmarks
      have hlive : t.live = true := by
        rw [Thread.live, beq_iff_eq]
        omega
      exact hnone k t.threadNumber ⟨t, hk, hlive, rfl⟩
    · intro k a s' fs hs
      obtain ⟨hshared, hpc, -, hfs⟩ := howned.silent (hnone k) (thread_of_step hs)
      exact ⟨hshared, hpc, hfs⟩

end

/-- A function that adds one to what the threads share: it stands at 0, then at 1, then past its
`markFree`. -/
def sampleBody : Body ℕ ℕ Unit ℕ Unit Unit where
  enter := fun _ => 0
  turn := fun g _ w _ =>
    if w = 0 then some (.goOn (g + 1) 1, [])
    else if w = 1 then some (.markFree 2, [])
    else some (.exit, [])
  holds := fun w => decide (w < 2)
  holds_enter := fun _ => rfl
  goOn_holds := by
    intro g j w a g' w' es h
    split_ifs at h with hw <;> cases h
    simp [hw]
  markFree_holds := by
    intro g j w a w' es h
    split_ifs at h with hw hw' <;> cases h
    simp [hw']
  exit_holds := by
    intro g j w a es h
    split_ifs at h with hw hw' <;> cases h
    refine ⟨decide_eq_false ?_, rfl⟩
    omega
  lose_holds := by
    intro g j w a pc es h
    split_ifs at h <;> cases h

/-- A loop that creates so many threads and waits for them. -/
def sampleProgram : Program ℕ ℕ Unit ℕ Unit Unit Unit where
  body := sampleBody
  threadsCount := 2
  loop := fun _ _ _ => none
  wants := fun left => if left = 0 then none else some ()
  created := fun left => left - 1
  notCreated := fun left => left
  joins := fun left => left == 0
  joined := fun _ left => left
  alive := fun _ => true

/-- Two jobs; the first thread clears its flag after the loop has looked at it. -/
def sampleActions : List (Action Unit Unit) :=
  [.look, .look, .markBusy, .create true, .look, .look, .look, .markBusy, .create true,
    .thread 0 (), .look, .look, .thread 0 (), .thread 1 (), .thread 1 (), .look, .thread 0 (),
    .look, .look, .look, .look]

theorem slots_run_sample :
    ∃ es s, Run sampleProgram.step anything { shared := 0, pc := 2 } () es s () ∧
      s.scan = .deleted ∧ s.shared = 2 ∧ s.threads.length = 2 ∧ ∀ t ∈ s.threads, t.marks = 1 := by
  obtain ⟨es, s, hrun, hscan, hshared, hlength⟩ := run_of_exec sampleProgram.step
    { shared := 0, pc := 2 } sampleActions (fun _ _ => True)
    (fun _ s => s.scan = .deleted ∧ s.shared = 2 ∧ s.threads.length = 2) (by decide +kernel)
  exact ⟨es, s, hrun, hscan, hshared, hlength, ((slots_run hrun).2.2.2.2 hscan).1⟩

end Threads

end Clarc
