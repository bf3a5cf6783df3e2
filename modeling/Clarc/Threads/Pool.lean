import Clarc.Threads.Threads

/-!
# A pool in which a search and a wait are one step

`Program.step` reads one flag at a time.  Whoever looks only at what the threads do may take the
search of a free slot, its `markBusy` and the creation of the thread for one step, and the last scan
of `sleepTillAllThreadsFree` for another: `Program.pooled` is the program with these steps, and its
slots hold the threads themselves.

* `Owned.slots_iff` — a slot holds the live thread that has its number;
* `pooled_run` — **every run of a program, flag by flag, is one of the pooled program**, with the
  same events in the same order;
* `Jobs.body` — a thread that runs a job and then calls `markFree` does so once on every path;
* `Realizes.run` — so a process that has the steps of a pooled program with such threads has its
  runs.
-/

namespace Clarc

open Reactive

namespace Threads

variable {γ D J W A B ε ω : Type}

/-- A run of a program with its threads in their slots. -/
@[ext]
structure Pooled (γ D J W : Type) where
  shared : γ
  pc : D
  slots : ℕ → Option (J × W) := fun _ => none

/-- A step of the loop or of the thread in a slot. -/
inductive PooledAction (A B : Type)
  | loop (b : B)
  | dispatch (threadNumber : ℕ) (created : Bool)
  | join
  | worker (threadNumber : ℕ) (a : A)

/-- A step of the program when a search and a wait are one step. -/
def Program.pooled (p : Program γ D J W A B ε) :
    Process (Pooled γ D J W) (PooledAction A B) ε := fun s a =>
  if p.alive s.pc then
    match a with
    | .loop b =>
        (p.loop s.shared s.pc b).map fun r => ({ s with shared := r.1, pc := r.2.1 }, r.2.2)
    | .dispatch n created =>
        match p.wants s.pc with
        | none => none
        | some j =>
            if n < p.threadsCount ∧ (s.slots n).isNone then
              if created then
                some ({ s with
                  pc := p.created s.pc
                  slots := Function.update s.slots n (some (j, p.body.enter j)) }, [])
              else some ({ s with pc := p.notCreated s.pc }, [])
            else none
    | .join =>
        if p.joins s.pc ∧ ∀ n < p.threadsCount, (s.slots n).isNone then
          some ({ s with pc := p.joined s.shared s.pc }, [])
        else none
    | .worker n a =>
        match s.slots n with
        | none => none
        | some (j, w) =>
            match p.body.turn s.shared j w a with
            | some (.goOn shared w', es) =>
                some ({ s with
                  shared := shared
                  slots := Function.update s.slots n (some (j, w')) }, es)
            | some (.markFree _, es) =>
                some ({ s with slots := Function.update s.slots n none }, es)
            | some (.lose pc, es) => some ({ s with pc := pc }, es)
            | some (.exit, _) | none => none
  else none

/-! ## The threads in their slots -/

/-- The slots of a run with the threads that are live in them. -/
def State.pooled (s : State γ D J W) : Pooled γ D J W where
  shared := s.shared
  pc := s.pc
  slots := fun n => (s.threads.find? fun t => t.live && t.threadNumber == n).bind fun t =>
    t.state.map fun w => (t.job, w)

@[simp] lemma State.pooled_shared (s : State γ D J W) : s.pooled.shared = s.shared := rfl
@[simp] lemma State.pooled_pc (s : State γ D J W) : s.pooled.pc = s.pc := rfl

/-- The thread is live with number `n`, and stands where `x` says. -/
def Thread.At (t : Thread J W) (n : ℕ) (x : J × W) : Prop :=
  t.live = true ∧ t.threadNumber = n ∧ t.job = x.1 ∧ t.state = some x.2

/-- A thread other than the `k`th stands there. -/
def Other (threads : List (Thread J W)) (k n : ℕ) (x : J × W) : Prop :=
  ∃ (k' : ℕ) (t : Thread J W), k' ≠ k ∧ threads[k']? = some t ∧ t.At n x

variable {p : Program γ D J W A B ε} {s s' : State γ D J W} {es : List ε} {n k : ℕ}
  {t t' : Thread J W} {x : J × W}

lemma Owned.slots_iff (h : Owned p s) :
    s.pooled.slots n = some x ↔ ∃ t ∈ s.threads, t.At n x := by
  constructor
  · intro hslot
    obtain ⟨t, hfind, hstate⟩ := Option.bind_eq_some_iff.mp hslot
    obtain ⟨w, hw, rfl⟩ := Option.map_eq_some_iff.mp hstate
    have hpred := List.find?_some hfind
    rw [Bool.and_eq_true, beq_iff_eq] at hpred
    exact ⟨t, List.mem_of_find?_eq_some hfind, hpred.1, hpred.2, rfl, hw⟩
  · rintro ⟨t, ht, hlive, rfl, hjob, hstate⟩
    -- the thread that is found is this one, for no other live thread has its number
    obtain ⟨t₁, hfind⟩ : ∃ t₁, s.threads.find?
        (fun t' => t'.live && t'.threadNumber == t.threadNumber) = some t₁ := by
      refine Option.isSome_iff_exists.mp (List.find?_isSome.mpr ⟨t, ht, ?_⟩)
      simp [hlive]
    have hpred := List.find?_some hfind
    rw [Bool.and_eq_true, beq_iff_eq] at hpred
    obtain ⟨k, hk⟩ := List.mem_iff_getElem?.mp ht
    obtain ⟨k₁, hk₁⟩ := List.mem_iff_getElem?.mp (List.mem_of_find?_eq_some hfind)
    obtain rfl := h.alone k k₁ t.threadNumber ⟨t, hk, hlive, rfl⟩ ⟨t₁, hk₁, hpred.1, hpred.2⟩
    obtain rfl := Option.some.inj (hk.symm.trans hk₁)
    simp [State.pooled, hfind, hstate, hjob]

/-- A slot that no live thread holds is empty. -/
lemma Owned.slots_none (h : Owned p s) (hfree : ∀ k, ¬ Holds s.threads k n) :
    s.pooled.slots n = none := by
  refine Option.eq_none_iff_forall_ne_some.mpr fun x hslot => ?_
  obtain ⟨t, ht, hlive, hnumber, -⟩ := h.slots_iff.mp hslot
  obtain ⟨k, hk⟩ := List.mem_iff_getElem?.mp ht
  exact hfree k ⟨t, hk, hlive, hnumber⟩

/-- A thread stands there: it is the `k`th, or another one. -/
lemma Owned.slots_split (h : Owned p s) (ht : s.threads[k]? = some t) :
    s.pooled.slots n = some x ↔ t.At n x ∨ Other s.threads k n x := by
  rw [h.slots_iff]
  constructor
  · rintro ⟨t₁, ht₁, hat⟩
    obtain ⟨k₁, hk₁⟩ := List.mem_iff_getElem?.mp ht₁
    by_cases hk : k₁ = k
    · subst hk
      obtain rfl := Option.some.inj (ht.symm.trans hk₁)
      exact Or.inl hat
    · exact Or.inr ⟨k₁, t₁, hk, hk₁, hat⟩
  · rintro (hat | ⟨k₁, t₁, -, hk₁, hat⟩)
    · exact ⟨t, List.mem_of_getElem? ht, hat⟩
    · exact ⟨t₁, List.mem_of_getElem? hk₁, hat⟩

lemma other_set {threads : List (Thread J W)} :
    Other (threads.set k t') k n x ↔ Other threads k n x := by
  have hsame : ∀ {k'}, k' ≠ k → (threads.set k t')[k']? = threads[k']? :=
    fun hk => List.getElem?_set_ne (Ne.symm hk)
  constructor
  · rintro ⟨k', t, hk, ht, hat⟩
    exact ⟨k', t, hk, hsame hk ▸ ht, hat⟩
  · rintro ⟨k', t, hk, ht, hat⟩
    exact ⟨k', t, hk, (hsame hk).symm ▸ ht, hat⟩

lemma getElem?_turned (ht : s.threads[k]? = some t) (hthreads : s'.threads = s.threads.set k t') :
    s'.threads[k]? = some t' := by
  rw [hthreads]
  exact List.getElem?_set_self (List.getElem?_eq_some_iff.mp ht).1

section
variable (h : Owned p s) (h' : Owned p s') (ht : s.threads[k]? = some t)
  (hthreads : s'.threads = s.threads.set k t')
include h h' ht hthreads

/-- The slots after a turn of a live thread: it keeps its slot as long as it is live, and the slots
of the others stay as they are. -/
lemma Owned.slots_turn (hlive : t.live = true) {y : Option (J × W)}
    (hself : ∀ n x, t'.At n x ↔ n = t.threadNumber ∧ y = some x) :
    s'.pooled.slots = Function.update s.pooled.slots t.threadNumber y := by
  have ht' : s'.threads[k]? = some t' := getElem?_turned ht hthreads
  funext n
  refine Option.ext fun x => ?_
  rw [h'.slots_split ht', hthreads, other_set, hself, Function.update_apply]
  split_ifs with hn
  · subst hn
    constructor
    · rintro (⟨-, hy⟩ | ⟨k₁, t₁, hk, hk₁, hlive₁, hnumber, -⟩)
      · exact hy
      · exact absurd (h.alone k₁ k _ ⟨t₁, hk₁, hlive₁, hnumber⟩ ⟨t, ht, hlive, rfl⟩) hk
    · exact fun hy => Or.inl ⟨rfl, hy⟩
  · rw [h.slots_split ht]
    constructor
    · rintro (⟨hn', -⟩ | hother)
      · exact absurd hn' hn
      · exact Or.inr hother
    · rintro (⟨-, hnumber, -⟩ | hother)
      · exact absurd hnumber.symm hn
      · exact Or.inr hother

/-- What a thread does that is live no more is seen in no slot. -/
lemma Owned.slots_silent (hdead : t.live = false) (hdead' : t'.live = false) :
    s'.pooled.slots = s.pooled.slots := by
  have ht' : s'.threads[k]? = some t' := getElem?_turned ht hthreads
  funext n
  refine Option.ext fun x => ?_
  rw [h'.slots_split ht', h.slots_split ht, hthreads, other_set]
  simp [Thread.At, hdead, hdead']

end

/-- The slots after a thread was created with the number of an empty one. -/
lemma Owned.slots_create (h : Owned p s) (h' : Owned p s') {j : J} {w : W}
    (hthreads : s'.threads = s.threads ++ [⟨j, n, some w, 0⟩])
    (hfree : ∀ k, ¬ Holds s.threads k n) :
    s'.pooled.slots = Function.update s.pooled.slots n (some (j, w)) := by
  funext m
  refine Option.ext fun x => ?_
  rw [h'.slots_iff, hthreads, Function.update_apply]
  simp only [List.mem_append, List.mem_singleton, or_and_right, exists_or, exists_eq_left]
  split_ifs with hm
  · subst hm
    constructor
    · rintro (⟨t, ht, hlive, hnumber, -⟩ | ⟨-, -, hj, hw⟩)
      · obtain ⟨k, hk⟩ := List.mem_iff_getElem?.mp ht
        exact absurd ⟨t, hk, hlive, hnumber⟩ (hfree k)
      · exact congrArg some (Prod.ext hj (Option.some.inj hw))
    · rintro ⟨⟩
      exact Or.inr ⟨rfl, rfl, rfl, rfl⟩
  · rw [h.slots_iff]
    constructor
    · rintro (hold | ⟨-, hnumber, -⟩)
      · exact hold
      · exact absurd hnumber.symm hm
    · exact Or.inl

/-! ## Runs -/

/-- Where the loop stands when it is in a function of `Threads`. -/
def State.Calls (p : Program γ D J W A B ε) (s : State γ D J W) : Prop :=
  p.alive s.pc = true →
    match s.scan with
    | .idle | .deleted => True
    | .finding _ | .found _ | .marked _ => (p.wants s.pc).isSome = true
    | .joining _ _ => p.joins s.pc = true

/-- A thread that ends the process leaves the loop nowhere. -/
def Program.Loses (p : Program γ D J W A B ε) : Prop :=
  ∀ g j w a pc es, p.body.turn g j w a = some (.lose pc, es) → p.alive pc = false

/-- A look keeps the place of the loop, or is the end of the wait. -/
lemma look_cases (hs : p.look s = some s') (hcalls : s.Calls p) (halive : p.alive s.pc = true) :
    (s'.Calls p ∧ s'.pooled = s.pooled) ∨
    (∃ i, p.threadsCount ≤ i ∧ s.scan = .joining i false ∧
      s' = { s with pc := p.joined s.shared s.pc, scan := .deleted }) := by
  unfold Program.look at hs
  have hplace := hcalls halive
  split at hs
  next hscan =>
    split_ifs at hs with hwants hjoins <;> obtain rfl := Option.some.inj hs
    · exact Or.inl ⟨fun _ => hwants, rfl⟩
    · exact Or.inl ⟨fun _ => hjoins, rfl⟩
  next i hscan =>
    rw [hscan] at hplace
    split_ifs at hs <;> obtain rfl := Option.some.inj hs <;> exact Or.inl ⟨fun _ => hplace, rfl⟩
  next i foundBusy hscan =>
    rw [hscan] at hplace
    split_ifs at hs with hi hfound <;> obtain rfl := Option.some.inj hs
    · exact Or.inl ⟨fun _ => hplace, rfl⟩
    · exact Or.inl ⟨fun _ => hplace, rfl⟩
    · obtain rfl : foundBusy = false := by simpa using hfound
      exact Or.inr ⟨i, not_lt.mp hi, hscan, rfl⟩
  all_goals cases hs

/-- A turn of a thread is one in its slot, or is seen in none. -/
lemma threadStep_pooled (h : Owned p s) (hlose : p.Loses) (hcalls : s.Calls p)
    (halive : p.alive s.pc = true) {a : A} (hs : p.threadStep s k a = some (s', es)) :
    s'.Calls p ∧ ((es = [] ∧ s'.pooled = s.pooled) ∨
      ∃ n, p.pooled s.pooled (.worker n a) = some (s'.pooled, es)) := by
  have h' := h.thread hs
  unfold Program.threadStep at hs
  split at hs
  · cases hs
  next t ht =>
    split at hs
    · cases hs
    next w hw =>
      have hmarks := h.standing t (List.mem_of_getElem? ht) w hw
      have hlive : t.live = p.body.holds w := by
        rw [Thread.live, hmarks]
        split_ifs with hholds <;> simp [hholds]
      have hslot : t.live = true → s.pooled.slots t.threadNumber = some (t.job, w) := fun hlive =>
        (h.slots_split ht).mpr (Or.inl ⟨hlive, rfl, rfl, hw⟩)
      split at hs
      · cases hs
      next g w' fs hturn =>
        cases hs
        refine ⟨hcalls, ?_⟩
        rcases hlived : t.live with _ | _
        · obtain ⟨rfl, rfl⟩ := (p.body.goOn_holds hturn).2 (hlive ▸ hlived)
          exact Or.inl ⟨rfl, Pooled.ext rfl rfl (h.slots_silent h' ht rfl hlived hlived)⟩
        · right
          refine ⟨t.threadNumber, ?_⟩
          simp only [Program.pooled, State.pooled_pc, halive, if_true, hslot hlived,
            State.pooled_shared, hturn]
          refine congrArg some (Prod.ext (Pooled.ext rfl rfl ?_) rfl)
          refine (h.slots_turn h' ht rfl hlived fun m x => ?_).symm
          constructor
          · rintro ⟨-, hnumber, hjob, hstate⟩
            exact ⟨hnumber.symm, congrArg some (Prod.ext hjob (Option.some.inj hstate))⟩
          · rintro ⟨rfl, ⟨⟩⟩
            exact ⟨hlived, rfl, rfl, rfl⟩
      next w' fs hturn =>
        cases hs
        refine ⟨hcalls, Or.inr ⟨t.threadNumber, ?_⟩⟩
        have hlived : t.live = true := hlive.trans (p.body.markFree_holds hturn).1
        simp only [Program.pooled, State.pooled_pc, halive, if_true, hslot hlived,
          State.pooled_shared, hturn]
        refine congrArg some (Prod.ext (Pooled.ext rfl rfl ?_) rfl)
        refine (h.slots_turn h' ht rfl hlived fun m x => ?_).symm
        simp [Thread.At, Thread.live]
      next fs hturn =>
        cases hs
        obtain ⟨hholds, rfl⟩ := p.body.exit_holds hturn
        have hlived : t.live = false := hlive.trans hholds
        exact ⟨hcalls, Or.inl ⟨rfl, Pooled.ext rfl rfl (h.slots_silent h' ht rfl hlived hlived)⟩⟩
      next pc fs hturn =>
        cases hs
        have hlived : t.live = true := hlive.trans (p.body.lose_holds hturn)
        refine ⟨fun hpc => ?_, Or.inr ⟨t.threadNumber, ?_⟩⟩
        · rw [hlose _ _ _ _ _ _ hturn] at hpc
          cases hpc
        · simp only [Program.pooled, State.pooled_pc, halive, if_true, hslot hlived,
            State.pooled_shared, hturn]
          rfl

/-- **The step lemma.** -/
lemma step_pooled (h : Owned p s) (hlose : p.Loses) (hcalls : s.Calls p) {a : Action A B}
    (hs : p.step s a = some (s', es)) :
    s'.Calls p ∧ ((es = [] ∧ s'.pooled = s.pooled) ∨
      ∃ b, p.pooled s.pooled b = some (s'.pooled, es)) := by
  have h' := h.step hs
  unfold Program.step at hs
  split_ifs at hs with halive
  have hplace := hcalls halive
  split at hs
  next b hscan =>
    obtain ⟨r, hr, heq⟩ := Option.map_eq_some_iff.mp hs
    cases heq
    refine ⟨fun _ => by rw [hscan]; trivial, Or.inr ⟨.loop b, ?_⟩⟩
    simp only [Program.pooled, State.pooled_pc, halive, if_true, State.pooled_shared, hr]
    rfl
  next b hscan =>
    obtain ⟨r, hr, heq⟩ := Option.map_eq_some_iff.mp hs
    cases heq
    refine ⟨fun _ => by rw [hscan]; trivial, Or.inr ⟨.loop b, ?_⟩⟩
    simp only [Program.pooled, State.pooled_pc, halive, if_true, State.pooled_shared, hr]
    rfl
  · obtain ⟨s₁, hlook, heq⟩ := Option.map_eq_some_iff.mp hs
    cases heq
    rcases look_cases hlook hcalls halive with ⟨hcalls', hsame⟩ | ⟨i, hi, hscan, rfl⟩
    · exact ⟨hcalls', Or.inl ⟨rfl, hsame⟩⟩
    · refine ⟨fun _ => trivial, Or.inr ⟨.join, ?_⟩⟩
      have hseen := h.seen
      rw [State.Seen, hscan] at hseen
      rw [hscan] at hplace
      -- every flag below the count has been seen clear
      have hfree : ∀ n < p.threadsCount, s.pooled.slots n = none := by
        intro n hn
        refine h.slots_none fun k hk => ?_
        have hclear := hseen rfl n (lt_of_lt_of_le hn hi)
        rw [(h.busy k n hk).2] at hclear
        cases hclear
      have hjoins : p.joins s.pc = true ∧ ∀ n < p.threadsCount, (s.pooled.slots n).isNone = true :=
        ⟨hplace, fun n hn => by rw [hfree n hn]; rfl⟩
      simp only [Program.pooled, State.pooled_pc, halive, if_true]
      exact if_pos hjoins
  next n hscan =>
    cases hs
    rw [hscan] at hplace
    exact ⟨fun _ => hplace, Or.inl ⟨rfl, rfl⟩⟩
  next created n hscan =>
    have hseen := h.seen
    rw [State.Seen, hscan] at hseen
    obtain ⟨hn, -, hfree⟩ := hseen
    have hempty : n < p.threadsCount ∧ (s.pooled.slots n).isNone = true :=
      ⟨hn, by rw [h.slots_none hfree]; rfl⟩
    split at hs
    · cases hs
    next j hj =>
      split_ifs at hs with hcreated <;> cases hs
      · refine ⟨fun _ => trivial, Or.inr ⟨.dispatch n true, ?_⟩⟩
        simp only [Program.pooled, State.pooled_pc, halive, if_true, hj, if_pos hempty]
        refine congrArg some (Prod.ext (Pooled.ext rfl rfl ?_) rfl)
        exact (h.slots_create h' rfl hfree).symm
      · refine ⟨fun _ => trivial, Or.inr ⟨.dispatch n false, ?_⟩⟩
        simp only [Program.pooled, State.pooled_pc, halive, if_true, hj, if_pos hempty]
        rfl
  · obtain ⟨hcalls', hturn | ⟨n, hturn⟩⟩ := threadStep_pooled h hlose hcalls halive hs
    · exact ⟨hcalls', Or.inl hturn⟩
    · exact ⟨hcalls', Or.inr ⟨.worker n _, hturn⟩⟩
  · cases hs

/-- **A run, flag by flag, is a run of the pooled program**, if a thread that ends the process ends
it. -/
theorem pooled_run {env : Environment ω (Action A B) ε} {y y' : ω} {shared : γ} {pc : D}
    (hlose : p.Loses) (h : Run p.step env { shared := shared, pc := pc } y es s y') :
    Run p.pooled anything { shared := shared, pc := pc } () es s.pooled () := by
  refine h.simulate State.pooled (I := fun s => Owned p s ∧ s.Calls p)
    ⟨owned_start shared pc, fun _ => trivial⟩ ?_ ?_
  · rintro t a fs t' ⟨howned, hcalls⟩ hs
    exact ⟨howned.step hs, (step_pooled howned hlose hcalls hs).1⟩
  · rintro t a fs t' ⟨howned, hcalls⟩ hs
    exact (step_pooled howned hlose hcalls hs).2

/-! ## What a pooled step can do -/

/-- The steps of a pooled program. -/
inductive Program.Transition (p : Program γ D J W A B ε) (q : Pooled γ D J W) :
    List ε → Pooled γ D J W → Prop
  | loop (b : B) (g : γ) (pc : D) (es : List ε) (h : p.loop q.shared q.pc b = some (g, pc, es)) :
      Transition p q es { q with shared := g, pc := pc }
  | dispatched (n : ℕ) (j : J) (hwants : p.wants q.pc = some j) (hn : n < p.threadsCount)
      (hfree : q.slots n = none) :
      Transition p q [] { q with
        pc := p.created q.pc
        slots := Function.update q.slots n (some (j, p.body.enter j)) }
  | notCreated (n : ℕ) (j : J) (hwants : p.wants q.pc = some j) (hn : n < p.threadsCount)
      (hfree : q.slots n = none) : Transition p q [] { q with pc := p.notCreated q.pc }
  | joined (hjoins : p.joins q.pc = true) (hfree : ∀ n < p.threadsCount, q.slots n = none) :
      Transition p q [] { q with pc := p.joined q.shared q.pc }
  | goOn (n : ℕ) (j : J) (w w' : W) (a : A) (g : γ) (es : List ε) (hslot : q.slots n = some (j, w))
      (hturn : p.body.turn q.shared j w a = some (.goOn g w', es)) :
      Transition p q es { q with
        shared := g
        slots := Function.update q.slots n (some (j, w')) }
  | freed (n : ℕ) (j : J) (w w' : W) (a : A) (es : List ε) (hslot : q.slots n = some (j, w))
      (hturn : p.body.turn q.shared j w a = some (.markFree w', es)) :
      Transition p q es { q with slots := Function.update q.slots n none }
  | lost (n : ℕ) (j : J) (w : W) (a : A) (pc : D) (es : List ε) (hslot : q.slots n = some (j, w))
      (hturn : p.body.turn q.shared j w a = some (.lose pc, es)) :
      Transition p q es { q with pc := pc }

variable {q q' : Pooled γ D J W}

lemma pooled_transition {b : PooledAction A B} (hs : p.pooled q b = some (q', es)) :
    p.alive q.pc = true ∧ p.Transition q es q' := by
  rcases halive : p.alive q.pc with _ | _
  · simp [Program.pooled, halive] at hs
  refine ⟨rfl, ?_⟩
  rcases b with b | ⟨n, created⟩ | _ | ⟨n, a⟩ <;>
    simp only [Program.pooled, halive, if_true] at hs
  case loop =>
    obtain ⟨⟨g, pc, fs⟩, hr, heq⟩ := Option.map_eq_some_iff.mp hs
    cases heq
    exact .loop b g pc _ hr
  case dispatch =>
    split at hs
    · cases hs
    next j hj =>
      split_ifs at hs with hfree hcreated <;> cases hs
      · exact .dispatched n j hj hfree.1 (Option.isNone_iff_eq_none.mp hfree.2)
      · exact .notCreated n j hj hfree.1 (Option.isNone_iff_eq_none.mp hfree.2)
  case join =>
    split_ifs at hs with hjoins
    cases hs
    exact .joined hjoins.1 fun n hn => Option.isNone_iff_eq_none.mp (hjoins.2 n hn)
  case worker =>
    split at hs
    · cases hs
    next j w hslot =>
      split at hs
      next g w' fs hturn =>
        cases hs
        exact .goOn n j w w' a g _ hslot hturn
      next w' fs hturn =>
        cases hs
        exact .freed n j w w' a _ hslot hturn
      next pc fs hturn =>
        cases hs
        exact .lost n j w a pc _ hslot hturn
      all_goals cases hs

/-- The threads in the slots are live ones, with numbers of the pool. -/
def Pooled.Live (p : Program γ D J W A B ε) (q : Pooled γ D J W) : Prop :=
  ∀ n x, q.slots n = some x → n < p.threadsCount ∧ p.body.holds x.2 = true

lemma Pooled.Live.transition (h : q.Live p) (ht : p.Transition q es q') : q'.Live p := by
  have hupdate : ∀ {n y}, (∀ x, y = some x → n < p.threadsCount ∧ p.body.holds x.2 = true) →
      ∀ m x, Function.update q.slots n y m = some x →
        m < p.threadsCount ∧ p.body.holds x.2 = true := by
    intro n y hy m x hx
    rw [Function.update_apply] at hx
    split_ifs at hx with hm
    · exact hm ▸ hy x hx
    · exact h m x hx
  cases ht with
  | loop | notCreated | joined | lost => exact h
  | dispatched n j hwants hn =>
      refine hupdate ?_
      rintro x ⟨⟩
      exact ⟨hn, p.body.holds_enter j⟩
  | goOn n j w w' a g es hslot hturn =>
      obtain ⟨hn, hholds⟩ := h n (j, w) hslot
      refine hupdate ?_
      rintro x ⟨⟩
      exact ⟨hn, (p.body.goOn_holds hturn).1.trans hholds⟩
  | freed n => exact hupdate (by simp)

/-! ## Threads that run a job and call `markFree` -/

/-- What a job does in a turn. -/
inductive JobTurn (γ D W : Type)
  | goOn (shared : γ) (w : W)
  | done
  | lose (pc : D)

/-- The jobs of the threads.  Nobody notices the turn in which one is done. -/
structure Jobs (γ D J W A ε : Type) where
  enter : J → W
  turn : γ → J → W → A → Option (JobTurn γ D W × List ε)
  done_silent : ∀ {g j w a es}, turn g j w a = some (.done, es) → es = []

namespace Jobs

variable (jobs : Jobs γ D J W A ε)

/-- A turn of a thread that calls `markFree` when its job is done, and then has only to exit. -/
def threadTurn (g : γ) (j : J) :
    Option W → Option A → Option (Turn γ D (Option W) × List ε)
  | none, none => some (.exit, [])
  | some w, some a =>
      match jobs.turn g j w a with
      | none => none
      | some (.goOn shared w', es) => some (.goOn shared (some w'), es)
      | some (.done, es) => some (.markFree none, es)
      | some (.lose pc, es) => some (.lose pc, es)
  | _, _ => none

variable {jobs} {g : γ} {j : J} {w : Option W} {a : Option A} {turn : Turn γ D (Option W)}

lemma threadTurn_cases (h : jobs.threadTurn g j w a = some (turn, es)) :
    (w = none ∧ turn = .exit ∧ es = []) ∨ ∃ w₀ a₀, w = some w₀ ∧
      ((∃ g' w', turn = .goOn g' (some w') ∧ jobs.turn g j w₀ a₀ = some (.goOn g' w', es)) ∨
        (turn = .markFree none ∧ jobs.turn g j w₀ a₀ = some (.done, es)) ∨
        ∃ pc, turn = .lose pc ∧ jobs.turn g j w₀ a₀ = some (.lose pc, es)) := by
  unfold threadTurn at h
  split at h
  · cases h
    exact Or.inl ⟨rfl, rfl, rfl⟩
  next w₀ a₀ =>
    refine Or.inr ⟨w₀, a₀, rfl, ?_⟩
    split at h
    · cases h
    next g' w' fs hturn =>
      cases h
      exact Or.inl ⟨g', w', rfl, hturn⟩
    next fs hturn =>
      cases h
      exact Or.inr (Or.inl ⟨rfl, hturn⟩)
    next pc fs hturn =>
      cases h
      exact Or.inr (Or.inr ⟨pc, rfl, hturn⟩)
  · cases h

variable (jobs) in
/-- **A thread with a job calls `markFree` once on every path.** -/
def body : Body γ D J (Option W) (Option A) ε where
  enter := fun j => some (jobs.enter j)
  turn := jobs.threadTurn
  holds := Option.isSome
  holds_enter := fun _ => rfl
  goOn_holds := by
    intro g j w a g' w' es h
    rcases threadTurn_cases h with
      ⟨-, ⟨⟩, -⟩ | ⟨w₀, a₀, rfl, ⟨g₁, w₁, ⟨⟩, -⟩ | ⟨⟨⟩, -⟩ | ⟨_, ⟨⟩, -⟩⟩
    exact ⟨rfl, by simp⟩
  markFree_holds := by
    intro g j w a w' es h
    rcases threadTurn_cases h with ⟨-, ⟨⟩, -⟩ | ⟨w₀, a₀, rfl, ⟨g₁, w₁, ⟨⟩, -⟩ | ⟨⟨⟩, hdone⟩ |
      ⟨_, ⟨⟩, -⟩⟩
    exact ⟨rfl, rfl, jobs.done_silent hdone⟩
  exit_holds := by
    intro g j w a es h
    rcases threadTurn_cases h with ⟨rfl, -, rfl⟩ | ⟨w₀, a₀, rfl, ⟨g₁, w₁, ⟨⟩, -⟩ | ⟨⟨⟩, -⟩ |
      ⟨_, ⟨⟩, -⟩⟩
    exact ⟨rfl, rfl⟩
  lose_holds := by
    intro g j w a pc es h
    rcases threadTurn_cases h with ⟨-, ⟨⟩, -⟩ | ⟨w₀, a₀, rfl, -⟩
    rfl

end Jobs

/-! ## The jobs in the slots -/

variable {q q' : Pooled γ D J (Option W)}

/-- The slots with the jobs that are not done. -/
def Pooled.jobs (q : Pooled γ D J (Option W)) (n : ℕ) : Option (J × W) :=
  (q.slots n).bind fun x => x.2.map fun w => (x.1, w)

lemma Pooled.jobs_none {n : ℕ} (h : q.slots n = none) : q.jobs n = none := by
  simp [Pooled.jobs, h]

lemma Pooled.jobs_some {n : ℕ} {j : J} {w : W} (h : q.slots n = some (j, some w)) :
    q.jobs n = some (j, w) := by
  simp [Pooled.jobs, h]

lemma Pooled.jobs_update {g : γ} {pc : D} {n : ℕ} {j : J} {w : W} :
    Pooled.jobs ⟨g, pc, Function.update q.slots n (some (j, some w))⟩ =
      Function.update q.jobs n (some (j, w)) := by
  funext m
  simp only [Pooled.jobs, Function.update_apply]
  split_ifs
  · rfl
  · rfl

lemma Pooled.jobs_free {g : γ} {pc : D} {n : ℕ} :
    Pooled.jobs ⟨g, pc, Function.update q.slots n none⟩ = Function.update q.jobs n none := by
  funext m
  simp only [Pooled.jobs, Function.update_apply]
  split_ifs
  · rfl
  · rfl

/-! ## Processes that take a search and a wait for one step -/

/-- The process has the steps of the pooled program, on states made of what the threads share, the
place of the loop and the jobs in the slots.  Where the loop has `ended` nothing is in the slots. -/
structure Realizes {σ β : Type} (target : Process σ β ε) (mk : γ → D → (ℕ → Option (J × W)) → σ)
    (ended : D → Bool) (jobs : Jobs γ D J W A ε)
    (p : Program γ D J (Option W) (Option A) B ε) : Prop where
  body : p.body = jobs.body
  loop : ∀ {g pc b g' pc' es}, p.loop g pc b = some (g', pc', es) → ended pc' = false ∧
    ∀ slots, ∃ a, target (mk g pc slots) a = some (mk g' pc' slots, es)
  created : ∀ {pc j}, p.wants pc = some j → ended (p.created pc) = false ∧
    ∀ {g slots n}, n < p.threadsCount → slots n = none → ∃ a, target (mk g pc slots) a =
      some (mk g (p.created pc) (Function.update slots n (some (j, jobs.enter j))), [])
  notCreated : ∀ {pc j}, p.wants pc = some j → ended (p.notCreated pc) = false ∧
    ∀ {g slots n}, n < p.threadsCount → slots n = none →
      ∃ a, target (mk g pc slots) a = some (mk g (p.notCreated pc) slots, [])
  join : ∀ {pc}, p.joins pc = true → ∀ {g slots}, (∀ n, slots n = none) →
    ∃ a, target (mk g pc slots) a = some (mk g (p.joined g pc) slots, [])
  goOn : ∀ {g pc slots n j w a g' w' es}, p.alive pc = true → ended pc = false →
    slots n = some (j, w) → jobs.turn g j w a = some (.goOn g' w', es) →
    ∃ b, target (mk g pc slots) b =
      some (mk g' pc (Function.update slots n (some (j, w'))), es)
  done : ∀ {g pc slots n j w a es}, p.alive pc = true → ended pc = false →
    slots n = some (j, w) → jobs.turn g j w a = some (.done, es) →
    ∃ b, target (mk g pc slots) b = some (mk g pc (Function.update slots n none), es)
  lose : ∀ {g pc slots n j w a pc' es}, p.alive pc = true → ended pc = false →
    slots n = some (j, w) → jobs.turn g j w a = some (.lose pc', es) →
    ∃ b, target (mk g pc slots) b = some (mk g pc' slots, es)
  lost : ∀ {g j w a pc es}, jobs.turn g j w a = some (.lose pc, es) →
    p.alive pc = false ∧ ended pc = false

namespace Realizes

variable {σ β : Type} {target : Process σ β ε} {mk : γ → D → (ℕ → Option (J × W)) → σ}
  {ended : D → Bool} {jobs : Jobs γ D J W A ε} {p : Program γ D J (Option W) (Option A) B ε}

/-- The slots hold live threads, and after the wait nothing. -/
structure InSlots (p : Program γ D J (Option W) (Option A) B ε) (ended : D → Bool)
    (q : Pooled γ D J (Option W)) : Prop where
  live : q.Live p
  ended : ended q.pc = true → ∀ n, q.slots n = none

/-- A thread in a slot has a job, which has a turn. -/
lemma turn_cases (h : Realizes target mk ended jobs p) (hin : InSlots p ended q) {n : ℕ} {j : J}
    {w : Option W} {a : Option A} {turn : Turn γ D (Option W)} (hslot : q.slots n = some (j, w))
    (hturn : p.body.turn q.shared j w a = some (turn, es)) :
    ended q.pc = false ∧ ∃ w₀ a₀, q.jobs n = some (j, w₀) ∧
      ((∃ g' w', turn = .goOn g' (some w') ∧
          jobs.turn q.shared j w₀ a₀ = some (.goOn g' w', es)) ∨
        (turn = .markFree none ∧ jobs.turn q.shared j w₀ a₀ = some (.done, es)) ∨
        ∃ pc, turn = .lose pc ∧ jobs.turn q.shared j w₀ a₀ = some (.lose pc, es)) := by
  have hended : ended q.pc = false := by
    rw [Bool.eq_false_iff]
    intro hended
    rw [hin.ended hended n] at hslot
    cases hslot
  have hheld := (hin.live n _ hslot).2
  rw [h.body] at hturn hheld
  rcases Jobs.threadTurn_cases hturn with ⟨rfl, -⟩ | ⟨w₀, a₀, rfl, hcases⟩
  · cases hheld
  · exact ⟨hended, w₀, a₀, Pooled.jobs_some hslot, hcases⟩

/-- **The step lemma.** -/
lemma step (h : Realizes target mk ended jobs p) (hin : InSlots p ended q)
    {b : PooledAction (Option A) B} (hs : p.pooled q b = some (q', es)) :
    InSlots p ended q' ∧
      ∃ a, target (mk q.shared q.pc q.jobs) a = some (mk q'.shared q'.pc q'.jobs, es) := by
  obtain ⟨halive, ht⟩ := pooled_transition hs
  have hlive := hin.live.transition ht
  cases ht with
  | loop b g pc es hr =>
      obtain ⟨hended, hstep⟩ := h.loop hr
      exact ⟨⟨hlive, fun hended' => absurd hended' (by simp [hended])⟩, hstep q.jobs⟩
  | dispatched n j hwants hn hfree =>
      obtain ⟨hended, hstep⟩ := h.created hwants
      refine ⟨⟨hlive, fun hended' => absurd hended' (by simp [hended])⟩, ?_⟩
      have henter : p.body.enter j = some (jobs.enter j) := by
        rw [h.body]
        rfl
      rw [henter, Pooled.jobs_update]
      exact hstep hn (Pooled.jobs_none hfree)
  | notCreated n j hwants hn hfree =>
      obtain ⟨hended, hstep⟩ := h.notCreated hwants
      exact ⟨⟨hlive, fun hended' => absurd hended' (by simp [hended])⟩,
        hstep hn (Pooled.jobs_none hfree)⟩
  | joined hjoins hfree =>
      have hnone : ∀ n, q.slots n = none := by
        intro n
        rcases hslot : q.slots n with _ | x
        · rfl
        · rw [hfree n (hin.live n x hslot).1] at hslot
          cases hslot
      exact ⟨⟨hlive, fun _ => hnone⟩, h.join hjoins fun n => Pooled.jobs_none (hnone n)⟩
  | goOn n j w w' a g es hslot hturn =>
      obtain ⟨hended, w₀, a₀, hjob, ⟨g', w₁, ⟨⟩, hjobTurn⟩ | ⟨⟨⟩, -⟩ | ⟨_, ⟨⟩, -⟩⟩ :=
        h.turn_cases hin hslot hturn
      refine ⟨⟨hlive, fun hended' => absurd hended' (by simp [hended])⟩, ?_⟩
      rw [Pooled.jobs_update]
      exact h.goOn halive hended hjob hjobTurn
  | freed n j w w' a es hslot hturn =>
      obtain ⟨hended, w₀, a₀, hjob, ⟨_, _, ⟨⟩, -⟩ | ⟨⟨⟩, hjobTurn⟩ | ⟨_, ⟨⟩, -⟩⟩ :=
        h.turn_cases hin hslot hturn
      refine ⟨⟨hlive, fun hended' => absurd hended' (by simp [hended])⟩, ?_⟩
      rw [Pooled.jobs_free]
      exact h.done halive hended hjob hjobTurn
  | lost n j w a pc es hslot hturn =>
      obtain ⟨hended, w₀, a₀, hjob, ⟨_, _, ⟨⟩, -⟩ | ⟨⟨⟩, -⟩ | ⟨_, ⟨⟩, hjobTurn⟩⟩ :=
        h.turn_cases hin hslot hturn
      refine ⟨⟨hlive, fun hended' => absurd hended' ?_⟩, h.lose halive hended hjob hjobTurn⟩
      simp [(h.lost hjobTurn).2]

/-- **A run of the program, flag by flag, is a run of the process** with the same events. -/
theorem run (h : Realizes target mk ended jobs p) {env : Environment ω (Action (Option A) B) ε}
    {y y' : ω} {shared : γ} {pc : D} {s : State γ D J (Option W)}
    (hrun : Run p.step env { shared := shared, pc := pc } y es s y') :
    Run target anything (mk shared pc fun _ => none) () es
      (mk s.shared s.pc s.pooled.jobs) () := by
  have hlose : p.Loses := by
    intro g j w a pc es hturn
    rw [h.body] at hturn
    rcases Jobs.threadTurn_cases hturn with ⟨-, ⟨⟩, -⟩ | ⟨_, _, _, ⟨_, _, ⟨⟩, -⟩ | ⟨⟨⟩, -⟩ |
      ⟨pc, ⟨⟩, hjob⟩⟩
    exact (h.lost hjob).1
  refine (pooled_run hlose hrun).simulate (fun q => mk q.shared q.pc q.jobs)
    (I := fun q => InSlots p ended q) ?_ ?_ ?_
  · refine ⟨?_, fun _ _ => rfl⟩
    rintro n x ⟨⟩
  · exact fun hin hs => (h.step hin hs).1
  · exact fun hin hs => Or.inr (h.step hin hs).2

end Realizes

end Threads

end Clarc
