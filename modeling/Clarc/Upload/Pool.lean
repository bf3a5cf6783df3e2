import Clarc.Threads.Pool
import Clarc.Upload.Ledger

/-!
# `uploadFiles` as a program around a pool

The steps of `Uploader.step` take a search of a free slot, and the wait for all of them, for one
step.  Here `uploadFiles` is a `Threads.Program`, whose steps read one flag at a time and whose
threads are the bodies of `uploader_runOverThreadFunc`: `runOverThread`, then `markFree`, then the
end of the thread.

* `runOverThread` — the job of a thread, read off `workerStep`;
* `step_realizes` — `Uploader.step` has the steps of the pooled program;
* `uploadFiles_run` — **every run of `uploadFiles`, flag by flag, is a run of `Uploader.step`**, so
  that what holds of the runs of `Uploader.step` holds of it.
-/

namespace Clarc

open Bytes Reactive Threads

namespace Uploader

variable (u : Uploader)

/-! ## The program -/

/-- What the threads share: the connection and `failed`. -/
abbrev Shared := Db × Bool

/-- A thread in a pool of its own. -/
def alone (g : Shared) (c : ThreadCommand) (v : Worker) : State where
  conn := g.1
  failed := g.2
  slots := fun _ => some (c, v)

/-- What `workerStep` makes of a job. -/
def jobTurn (g : Shared) (c : ThreadCommand) (v : Worker) (wa : WorkerAction) :
    Option (JobTurn Shared Dispatcher Worker × List Event) :=
  match u.workerStep (alone g c v) 0 c v wa with
  | none => none
  | some (s, es) =>
      if s.pc.running then
        match s.slots 0 with
        | some (_, v') => some (.goOn (s.conn, s.failed) v', es)
        | none => some (.done, es)
      else some (.lose s.pc, es)

variable {u} in
/-- A turn of a job is one of `workerStep`, in whatever slot. -/
lemma jobTurn_cases {s : State} {c : ThreadCommand} {v : Worker} {wa : WorkerAction}
    {turn : JobTurn Shared Dispatcher Worker} {es : List Event}
    (h : u.jobTurn (s.conn, s.failed) c v wa = some (turn, es)) (n : ℕ) :
    (turn = .lose .crashed ∧ u.workerStep s n c v wa = some (s.goto .crashed, es)) ∨
    (turn = .done ∧ es = [] ∧ u.workerStep s n c v wa = some (s.markFree n, es)) ∨
    ∃ v' conn failed, turn = .goOn (conn, failed) v' ∧ u.workerStep s n c v wa =
      some ({ s with conn := conn, failed := failed }.setSlot n c v', es) := by
  unfold jobTurn at h
  split at h
  · cases h
  next t fs hstep =>
    rcases workerStep_elsewhere hstep s n (Or.inl rfl) with ⟨rfl, hs⟩ | ⟨-, rfl, rfl, hs⟩ |
      ⟨v', flag, f, -, -, rfl, hs⟩
    · simp only [alone, State.goto, Dispatcher.running, Bool.false_eq_true, if_false,
        Option.some.injEq, Prod.mk.injEq] at h
      obtain ⟨rfl, rfl⟩ := h
      exact Or.inl ⟨rfl, hs⟩
    · simp only [alone, State.markFree, Dispatcher.running, if_true, Function.update_self,
        Option.some.injEq, Prod.mk.injEq] at h
      obtain ⟨rfl, rfl⟩ := h
      exact Or.inr (Or.inl ⟨rfl, rfl, hs⟩)
    · simp only [alone, State.setSlot, Dispatcher.running, if_true, Function.update_self,
        Option.some.injEq, Prod.mk.injEq] at h
      obtain ⟨rfl, rfl⟩ := h
      exact Or.inr (Or.inr ⟨v', _, _, rfl, hs⟩)

/-- `Uploader::runOverThread`. -/
def runOverThread : Jobs Shared Dispatcher ThreadCommand Worker WorkerAction Event where
  enter := u.enter
  turn := u.jobTurn
  done_silent := by
    intro g c v wa es h
    rcases jobTurn_cases (s := alone g c v) h 0 with ⟨⟨⟩, -⟩ | ⟨-, rfl, -⟩ | ⟨_, _, _, ⟨⟩, -⟩
    rfl

/-- The loop of `uploadFiles` outside of `Threads`. -/
def loopStep (files : LocalFileList) (pfx : Bytes) (g : Shared) (pc : Dispatcher) (a : Action) :
    Option (Shared × Dispatcher × List Event) :=
  match a with
  | .check | .stat _ | .lookup _ =>
      (u.step files pfx { conn := g.1, failed := g.2, pc := pc } a).map fun r =>
        ((r.1.conn, r.1.failed), r.1.pc, r.2)
  | .dispatch _ _ | .join | .worker _ _ => none

/-- `uploadFiles` around its pool; the threads are those of `uploader_runOverThreadFunc`. -/
def uploadFiles (files : LocalFileList) (pfx : Bytes) :
    Program Shared Dispatcher ThreadCommand (Option Worker) (Option WorkerAction) Action Event where
  body := u.runOverThread.body
  threadsCount := u.uploadThreads
  loop := u.loopStep files pfx
  wants
    | .sleeping c => some c
    | _ => none
  created
    | .sleeping c => .top (c.index + 1)
    | pc => pc
  notCreated := fun _ => .exited
  joins
    | .joining => true
    | _ => false
  joined := fun g _ => .returned (!g.2)
  alive
    | .exited | .crashed => false
    | _ => true

variable {u} {files : LocalFileList} {pfx : Bytes} {s : State} {n : ℕ} {c : ThreadCommand}
  {v : Worker} {es : List Event}

/-- The loop outside of `Threads` does not look at the slots, and does not return. -/
lemma step_of_loopStep {a : Action} {g : Shared} {pc : Dispatcher}
    (h : u.loopStep files pfx (s.conn, s.failed) s.pc a = some (g, pc, es)) :
    u.step files pfx s a = some ({ s with conn := g.1, failed := g.2, pc := pc }, es) ∧
      ∀ success, pc ≠ .returned success := by
  rcases a with _ | answer | fails | ⟨n, created⟩ | _ | ⟨n, wa⟩
  case check =>
    rcases hpc : s.pc <;> simp only [loopStep, step, hpc] at h ⊢
    case top =>
      split_ifs at h ⊢ <;> cases h <;> exact ⟨rfl, by simp⟩
    all_goals cases h
  case stat =>
    rcases hpc : s.pc <;> simp only [loopStep, step, hpc] at h ⊢
    case stating =>
      split at h
      · cases h
      · rcases answer with _ | fileInfo
        · cases h
          exact ⟨rfl, by simp [State.goto]⟩
        · dsimp only at h ⊢
          split_ifs at h ⊢ <;> cases h <;> exact ⟨rfl, by simp [State.goto]⟩
    all_goals cases h
  case lookup =>
    rcases hpc : s.pc <;> simp only [loopStep, step, hpc] at h ⊢
    case looking =>
      split at h
      · cases h
      · split at h
        · cases h
          exact ⟨rfl, by simp [State.goto]⟩
        · split_ifs at h ⊢ <;> cases h <;> exact ⟨rfl, by simp [State.goto]⟩
    all_goals cases h
  all_goals cases h

/-! ## Runs -/

/-- A run of `Uploader.step`, with these threads in the slots. -/
def runOf (g : Shared) (pc : Dispatcher) (slots : ℕ → Option (ThreadCommand × Worker)) : State where
  conn := g.1
  failed := g.2
  slots := slots
  pc := pc

/-- The loop has returned. -/
def Dispatcher.isReturned : Dispatcher → Bool
  | .returned _ => true
  | _ => false

/-- The thread in a slot takes its turn. -/
lemma step_worker {g : Shared} {pc : Dispatcher} {slots : ℕ → Option (ThreadCommand × Worker)}
    (halive : (u.uploadFiles files pfx).alive pc = true) (hpc : pc.isReturned = false)
    (hslot : slots n = some (c, v)) (wa : WorkerAction) :
    u.step files pfx (runOf g pc slots) (.worker n wa) =
      u.workerStep (runOf g pc slots) n c v wa := by
  have hrun : (runOf g pc slots).pc.running = true := by
    cases pc
    case returned => cases hpc
    case exited | crashed => cases halive
    all_goals rfl
  simp only [step, hrun, if_true]
  simp only [runOf, hslot]

/-- **`Uploader.step` has the steps of `uploadFiles`.** -/
lemma step_realizes (u : Uploader) (files : LocalFileList) (pfx : Bytes) :
    Realizes (u.step files pfx) runOf Dispatcher.isReturned u.runOverThread
      (u.uploadFiles files pfx) where
  body := rfl
  loop := by
    intro g pc a g' pc' es h
    refine ⟨?_, fun slots => ⟨a, (step_of_loopStep (s := runOf g pc slots) h).1⟩⟩
    have hpc := (step_of_loopStep (s := runOf g pc fun _ => none) h).2
    rcases pc' with _ | _ | _ | _ | _ | success | _ | _ <;>
      first | rfl | exact absurd rfl (hpc success)
  created := by
    intro pc d h
    rcases pc with _ | _ | _ | c | _ | _ | _ | _ <;> cases h
    refine ⟨rfl, fun {g slots n} hn hfree => ⟨.dispatch n true, ?_⟩⟩
    have hempty : n < u.uploadThreads ∧ (slots n).isNone = true := ⟨hn, by rw [hfree]; rfl⟩
    exact (if_pos hempty).trans (if_pos rfl)
  notCreated := by
    intro pc d h
    rcases pc with _ | _ | _ | c | _ | _ | _ | _ <;> cases h
    refine ⟨rfl, fun {g slots n} hn hfree => ⟨.dispatch n false, ?_⟩⟩
    have hempty : n < u.uploadThreads ∧ (slots n).isNone = true := ⟨hn, by rw [hfree]; rfl⟩
    exact (if_pos hempty).trans (if_neg (by simp))
  join := by
    intro pc h g slots hfree
    cases pc <;> cases h
    exact ⟨.join, if_pos fun n _ => by simp [runOf, hfree n]⟩
  goOn := by
    intro g pc slots n d v wa g' v' es halive hpc hslot hturn
    rcases jobTurn_cases (s := runOf g pc slots) hturn n with ⟨⟨⟩, -⟩ | ⟨⟨⟩, -⟩ |
      ⟨_, conn, failed, ⟨⟩, hs⟩
    exact ⟨.worker n wa, (step_worker halive hpc hslot wa).trans hs⟩
  done := by
    intro g pc slots n d v wa es halive hpc hslot hturn
    rcases jobTurn_cases (s := runOf g pc slots) hturn n with ⟨⟨⟩, -⟩ | ⟨-, -, hs⟩ |
      ⟨_, _, _, ⟨⟩, -⟩
    exact ⟨.worker n wa, (step_worker halive hpc hslot wa).trans hs⟩
  lose := by
    intro g pc slots n d v wa pc' es halive hpc hslot hturn
    rcases jobTurn_cases (s := runOf g pc slots) hturn n with ⟨⟨⟩, hs⟩ | ⟨⟨⟩, -⟩ |
      ⟨_, _, _, ⟨⟩, -⟩
    exact ⟨.worker n wa, (step_worker halive hpc hslot wa).trans hs⟩
  lost := by
    intro g d v wa pc es hturn
    rcases jobTurn_cases (s := alone g d v) hturn 0 with ⟨⟨⟩, -⟩ | ⟨⟨⟩, -⟩ | ⟨_, _, _, ⟨⟩, -⟩
    exact ⟨rfl, rfl⟩

/-- **A run of `uploadFiles`, flag by flag, is a run of `Uploader.step`** with the same events. -/
theorem uploadFiles_run {ω : Type}
    {env : Environment ω (Threads.Action (Option WorkerAction) Action) Event} {y y' : ω}
    {conn : Db} {s : Threads.State Shared Dispatcher ThreadCommand (Option Worker)}
    (h : Run (u.uploadFiles files pfx).step env { shared := (conn, false), pc := .top 0 } y es
      s y') : Run (u.step files pfx) anything { conn := conn } () es
        (runOf s.shared s.pc s.pooled.jobs) () :=
  (step_realizes u files pfx).run h

end Uploader

end Clarc
