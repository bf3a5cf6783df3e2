import Clarc.Upload.UnchangedTree

/-!
# Interleavings of an upload run, over answers that belong to the keys

When what a file and its key are answered depends on nothing but what they were answered before, an
upload run has nothing left to choose but whose turn it is.  An `Oracle` is such answers,
`interleaved` the steps of `uploadFiles` under it, from a `Choice` of the loop or of a thread, and
`oneByOne` those in which the loop waits until no thread is left before it goes on: one file after
another.

A single thread then has no choice at all.  `job` is the thread by itself, apart from the pool and
the table, as long as nothing fails:

* `job_of_workerStep` — a thread of a run does what `job` does;
* `workerStep_of_job` — and what `job` does, a thread can do in any run.
-/

namespace Clarc

open Bytes Reactive Sqlite

namespace Uploader

/-! ## Answers and choices -/

/-- What is answered about each file: `lstat` and `calculateFileMd5` by its path, and each attempt
to send something under its key by what is sent, which the command and the place of its thread say,
and by what came of the attempts under this key before. -/
structure Oracle where
  lstat : Bytes → Option Stat
  md5 : Bytes → Option Bytes
  attempt : ThreadCommand → Worker → List Attempt → Attempt

/-- What came of the attempts under each key so far. -/
abbrev Past := Bytes → List Attempt

/-- Whose turn it is.  The rest are failures of SQLite and of `pthread_create`, and the slot that a
new thread gets. -/
inductive Choice
  | loop (fails : Faults) (threadNumber : ℕ) (created : Bool)
  | thread (threadNumber : ℕ) (fails : Faults)

namespace Oracle

variable (w : Oracle)

/-- What a thread does in its turn, and is told. -/
def workerAction (past : List Attempt) (c : ThreadCommand) (fails : Faults) :
    Worker → WorkerAction
  | .checking => .read (w.md5 c.realLocalPath)
  | .updatingMeta => .updateMeta (w.attempt c .updatingMeta past)
  | .uploading r => .upload (w.attempt c (.uploading r) past)
  | .storing _ => .store fails
  | .failing => .fail
  | .finishing => .markFree

/-- The attempts under its key after the turn of a thread. -/
def pastAfter (past : List Attempt) (c : ThreadCommand) : Worker → List Attempt
  | .updatingMeta => past ++ [w.attempt c .updatingMeta past]
  | .uploading r => past ++ [w.attempt c (.uploading r) past]
  | .checking | .storing _ | .failing | .finishing => past

/-- What the loop does in its turn, and is told. -/
def loopAction (files : LocalFileList) (pfx : Bytes) (fails : Faults) (threadNumber : ℕ)
    (created : Bool) : Dispatcher → Option Action
  | .top _ => some .check
  | .stating i => files[i]?.map fun file => .stat (w.lstat (pathOf pfx file))
  | .looking _ _ => some (.lookup fails)
  | .sleeping _ => some (.dispatch threadNumber created)
  | .joining => some .join
  | .returned _ | .exited | .crashed => none

end Oracle

variable (u : Uploader) (w : Oracle) (files : LocalFileList) (pfx : Bytes)

/-- A step of `uploadFiles` when it is told what the oracle answers. -/
def interleaved : Process (State × Past) Choice Event := fun p choice =>
  match choice with
  | .loop fails n created =>
      match w.loopAction files pfx fails n created p.1.pc with
      | none => none
      | some a => (u.step files pfx p.1 a).map fun r => ((r.1, p.2), r.2)
  | .thread n fails =>
      match p.1.slots n with
      | none => none
      | some (c, v) =>
          (u.step files pfx p.1 (.worker n (w.workerAction (p.2 c.path) c fails v))).map fun r =>
            ((r.1, Function.update p.2 c.path (w.pastAfter (p.2 c.path) c v)), r.2)

/-- The files one after another: the loop takes a step only when no thread is left. -/
def oneByOne : Process (State × Past) Choice Event := fun p choice =>
  match choice with
  | .loop _ _ _ =>
      if ∀ n < u.uploadThreads, (p.1.slots n).isNone then u.interleaved w files pfx p choice
      else none
  | .thread _ _ => u.interleaved w files pfx p choice

/-- A thread by itself, until it has to call `markFree`; it stops where something fails. -/
def job (c : ThreadCommand) : Process (Worker × List Attempt) Unit Event := fun p _ =>
  match u.workerStep { conn := { committed := ∅ } } 0 c p.1
      (w.workerAction p.2 c noFaults p.1) with
  | none => none
  | some (s, es) =>
      match s.slots 0 with
      | some (_, v) => if v = .failing then none else some ((v, w.pastAfter p.2 c p.1), es)
      | none => none

variable {u w files pfx} {s s' : State} {n : ℕ} {c : ThreadCommand} {v v' : Worker}
  {wa : WorkerAction} {es : List Event}

/-! ## A thread by itself -/

/-- The store of a thread fails, or leaves its row and its event. -/
lemma workerStep_store {fails : Faults} {md5 : Bytes}
    (h : u.workerStep s n c (.storing md5) (.store fails) = some (s', es)) :
    (∃ conn, s' = { s with conn := conn }.setSlot n c .failing) ∨
      ∃ conn, s' = { s with conn := conn }.setSlot n c .finishing ∧
        es = [.row c ⟨md5.take 32, c.fileInfo.mtime32.toUInt64⟩] := by
  rw [workerStep] at h
  rcases FileListStorage.store_cases fails c.path md5 c.fileInfo.mtime32.toUInt64 s.conn with
    hstore | hstore
  · rw [hstore] at h
    cases h
    exact Or.inl ⟨_, rfl⟩
  · rw [hstore] at h
    cases h
    exact Or.inr ⟨_, rfl, rfl⟩

/-- Without a failing call the store goes through. -/
lemma workerStep_store_noFaults (s : State) (n : ℕ) (c : ThreadCommand) (md5 : Bytes) :
    ∃ conn, u.workerStep s n c (.storing md5) (.store noFaults) =
      some ({ s with conn := conn }.setSlot n c .finishing,
        [.row c ⟨md5.take 32, c.fileInfo.mtime32.toUInt64⟩]) :=
  ⟨_, rfl⟩

variable {past past' : List Attempt}

/-- **A thread of a run does what `job` does**, where nothing fails. -/
lemma job_of_workerStep {fails : Faults} (hv : v ≠ .failing) (hv' : v' ≠ .failing)
    (h : u.workerStep s n c v (w.workerAction past c fails v) = some (s', es))
    (hrun : s'.pc.running = true) (hslot : s'.slots n = some (c, v')) :
    u.job w c (v, past) () = some ((v', w.pastAfter past c v), es) := by
  by_cases hstore : ∃ md5, v = .storing md5
  · obtain ⟨md5, rfl⟩ := hstore
    obtain ⟨conn₀, hnoFaults⟩ := workerStep_store_noFaults (u := u)
      { conn := { committed := ∅ } } 0 c md5
    rcases workerStep_store h with ⟨conn, rfl⟩ | ⟨conn, rfl, rfl⟩ <;>
      rw [State.setSlot_slots_self] at hslot <;> cases hslot
    · exact absurd rfl hv'
    · rw [job, Oracle.workerAction, hnoFaults]
      simp
  · have haction : w.workerAction past c noFaults v = w.workerAction past c fails v := by
      cases v <;> first | rfl | exact absurd ⟨_, rfl⟩ hstore
    have hne : ∀ md5, v ≠ .storing md5 := fun md5 hmd5 => hstore ⟨md5, hmd5⟩
    rcases workerStep_elsewhere h { conn := { committed := ∅ } } 0 (Or.inr hne) with
      ⟨rfl, -⟩ | ⟨-, rfl, -⟩ | ⟨v₁, flag, f, -, -, rfl, helse⟩
    · cases hrun
    · exact absurd hslot (by simp [State.markFree])
    · rw [State.setSlot_slots_self] at hslot
      cases hslot
      rw [job, haction, helse]
      simp [hv']

/-- **What `job` does, a thread can do in any run**, and the loop stays where it is. -/
lemma workerStep_of_job (h : u.job w c (v, past) () = some ((v', past'), es)) (hv : v ≠ .failing)
    (s : State) (n : ℕ) :
    v' ≠ .failing ∧ past' = w.pastAfter past c v ∧
      ∃ conn, u.workerStep s n c v (w.workerAction past c noFaults v) =
        some ({ s with conn := conn }.setSlot n c v', es) := by
  unfold job at h
  dsimp only at h
  split at h
  · cases h
  next s₀ es₀ hstep =>
    split at h
    next d v₀ hslot =>
      split_ifs at h with hfailing
      cases h
      refine ⟨hfailing, rfl, ?_⟩
      by_cases hstore : ∃ md5, v = .storing md5
      · obtain ⟨md5, rfl⟩ := hstore
        obtain ⟨conn₀, hnoFaults⟩ := workerStep_store_noFaults (u := u)
          { conn := { committed := ∅ } } 0 c md5
        rw [Oracle.workerAction, hnoFaults] at hstep
        cases hstep
        rw [State.setSlot_slots_self] at hslot
        cases hslot
        exact workerStep_store_noFaults s n c md5
      · have hne : ∀ md5, v ≠ .storing md5 := fun md5 hmd5 => hstore ⟨md5, hmd5⟩
        rcases workerStep_elsewhere hstep s n (Or.inr hne) with
          ⟨rfl, -⟩ | ⟨-, rfl, -⟩ | ⟨v₁, flag, f, hflag, -, rfl, helse⟩
        · cases hslot
        · exact absurd hslot (by simp [State.markFree])
        · rw [State.setSlot_slots_self] at hslot
          cases hslot
          refine ⟨f s.conn, ?_⟩
          rw [helse, hflag hv, Bool.or_false]
    · cases h

/-! ## Runs -/

/-- A step is a turn of the loop or of a thread, and one of `uploadFiles`. -/
lemma interleaved_cases {past past' : Past} {choice : Choice}
    (h : u.interleaved w files pfx (s, past) choice = some ((s', past'), es)) :
    (past' = past ∧ ∃ fails created n a,
      w.loopAction files pfx fails n created s.pc = some a ∧
        u.step files pfx s a = some (s', es)) ∨
    ∃ n c v fails, s.slots n = some (c, v) ∧ s.pc.running = true ∧
      u.workerStep s n c v (w.workerAction (past c.path) c fails v) = some (s', es) ∧
      past' = Function.update past c.path (w.pastAfter (past c.path) c v) ∧
      u.step files pfx s (.worker n (w.workerAction (past c.path) c fails v)) = some (s', es) := by
  rcases choice with ⟨fails, n, created⟩ | ⟨n, fails⟩
  · simp only [interleaved] at h
    split at h
    · cases h
    next a ha =>
      obtain ⟨⟨s₁, fs⟩, hs, heq⟩ := Option.map_eq_some_iff.mp h
      cases heq
      exact Or.inl ⟨rfl, fails, created, n, a, ha, hs⟩
  · simp only [interleaved] at h
    split at h
    · cases h
    next c v hslot =>
      obtain ⟨⟨s₁, fs⟩, hs, heq⟩ := Option.map_eq_some_iff.mp h
      cases heq
      have hworker := hs
      simp only [step] at hworker
      split_ifs at hworker with hrun
      simp only [hslot] at hworker
      exact Or.inr ⟨n, c, v, fails, hslot, hrun, hworker, rfl, hs⟩

/-- **An interleaving is a run of `uploadFiles`.** -/
theorem step_of_interleaved {p q : State × Past} {o : Unit}
    (h : Run (u.interleaved w files pfx) anything p () es q o) :
    Run (u.step files pfx) anything p.1 () es q.1 () := by
  refine h.simulate Prod.fst (I := fun _ => True) trivial (fun _ _ => trivial) ?_
  rintro ⟨t, past⟩ choice fs ⟨t', past'⟩ - hs
  right
  rcases interleaved_cases hs with ⟨-, _, _, _, a, -, hstep⟩ | ⟨_, _, _, _, -, -, -, -, hstep⟩
  · exact ⟨a, hstep⟩
  · exact ⟨_, hstep⟩

/-- **Going through the files one after another is an interleaving.** -/
theorem interleaved_of_oneByOne {p q : State × Past} {o : Unit}
    (h : Run (u.oneByOne w files pfx) anything p () es q o) :
    Run (u.interleaved w files pfx) anything p () es q () := by
  refine h.simulate id (I := fun _ => True) trivial (fun _ _ => trivial) ?_
  intro t choice fs t' _ hs
  refine Or.inr ⟨choice, ?_⟩
  rcases choice with ⟨fails, n, created⟩ | ⟨n, fails⟩
  · simp only [oneByOne] at hs
    split_ifs at hs
    exact hs
  · exact hs

end Uploader

end Clarc
