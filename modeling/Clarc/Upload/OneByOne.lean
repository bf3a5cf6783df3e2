import Clarc.Upload.Interleaved

/-!
# Parallel uploads against one file after another

Over answers that belong to the keys, an interleaving changes the order in which things happen to
different files and nothing that happens to one of them.  What happens to a file in a run in which
nothing fails is its `Fate`, which the table at the start and the oracle decide (`Fate.unique`); and
`Life` is how far a file has come towards it, in any state of any interleaving.

* `lives_run` — **each file of a run is on the way to its fate**, and the rows are those of the
  events;
* `same_ends` — so two runs in which nothing fails show the same events and end with the same rows;
* `exists_oneByOne` — and there is such a run through the files one by one;
* `interleaved_refines_oneByOne` — **an interleaving ends with the table and the requests of the
  files one after another**, and a success means that each job has stored its row.
-/

namespace Clarc

open Bytes Reactive Sqlite

namespace Uploader

/-! ## The events of one file -/

/-- The place in the list of the file that the event is about. -/
def Event.index : Event → ℕ
  | .stat i _ _ => i
  | .read c _ | .copy c _ _ | .put c _ _ | .row c _ => c.index

/-- The events about one file. -/
def eventsOf (i : ℕ) (es : List Event) : List Event := es.filter fun e => e.index == i

/-- A row after the stores among the events. -/
def rowAfter (old : Option Row) (es : List Event) : Option Row :=
  es.foldl (fun row e => match e with
    | .row _ row' => some row'
    | .stat _ _ _ | .read _ _ | .copy _ _ _ | .put _ _ _ => row) old

variable {u : Uploader} {w : Oracle} {files : LocalFileList} {pfx : Bytes} {conn₀ : Db}
  {es fs : List Event} {s s' : State} {past past' : Past} {i j n : ℕ} {file : LocalFile}
  {c : ThreadCommand} {v v' : Worker}

@[simp] lemma eventsOf_append : eventsOf i (es ++ fs) = eventsOf i es ++ eventsOf i fs :=
  List.filter_append _ _

lemma eventsOf_self (h : ∀ e ∈ fs, e.index = i) : eventsOf i fs = fs := by
  refine List.filter_eq_self.mpr fun e he => ?_
  simpa using h e he

lemma eventsOf_of_ne (h : ∀ e ∈ fs, e.index = j) (hij : i ≠ j) : eventsOf i fs = [] := by
  refine List.filter_eq_nil_iff.mpr fun e he heq => ?_
  exact hij ((by simpa using heq : e.index = i).symm.trans (h e he))

lemma mem_eventsOf {e : Event} : e ∈ eventsOf e.index es ↔ e ∈ es := by
  simp [eventsOf]

@[simp] lemma rowAfter_append (old : Option Row) :
    rowAfter old (es ++ fs) = rowAfter (rowAfter old es) fs :=
  List.foldl_append

/-- A turn of a thread is about its own file. -/
lemma workerStep_index {wa : WorkerAction} (h : u.workerStep s n c v wa = some (s', es)) :
    ∀ e ∈ es, e.index = c.index := by
  rcases workerStep_cases h with ⟨v', conn, flag, hmove, -⟩ | ⟨-, -, rfl, -⟩ | ⟨hlost, -⟩
  · cases hmove <;> simp [Event.index]
  · simp
  · cases hlost <;> simp [Event.index]

/-! ## What happens to a file -/

variable (u w pfx conn₀)

/-- The job that the loop makes of a file that is outdated. -/
def Made (i : ℕ) (file : LocalFile) (c : ThreadCommand) : Prop :=
  ∃ fileInfo, w.lstat (pathOf pfx file) = some fileInfo ∧ fileInfo.size < MAX_S3_FILE_SIZE ∧
    ¬ UpToDate conn₀ (u.keyOf file) fileInfo ∧
    c = u.command pfx i file fileInfo (rowOf conn₀ (u.keyOf file))

/-- The `lstat` of a file. -/
def statEvent (i : ℕ) (file : LocalFile) : Event :=
  .stat i (pathOf pfx file) (w.lstat (pathOf pfx file))

/-- All that a run in which nothing fails shows of a file. -/
inductive Fate (i : ℕ) (file : LocalFile) : List Event → Prop
  | skipped (h : ∀ fileInfo, w.lstat (pathOf pfx file) = some fileInfo →
      MAX_S3_FILE_SIZE ≤ fileInfo.size) : Fate i file [statEvent w pfx i file]
  | upToDate (fileInfo : Stat) (hstat : w.lstat (pathOf pfx file) = some fileInfo)
      (hsize : fileInfo.size < MAX_S3_FILE_SIZE)
      (h : UpToDate conn₀ (u.keyOf file) fileInfo) : Fate i file [statEvent w pfx i file]
  | finished (c : ThreadCommand) (hmade : Made u w pfx conn₀ i file c) (es : List Event)
      (past : List Attempt)
      (hrun : Run (u.job w c) anything (u.enter c, []) () es (.finishing, past) ()) :
      Fate i file (statEvent w pfx i file :: es)

variable {u w pfx conn₀}

lemma job_finishing (past : List Attempt) : u.job w c (.finishing, past) () = none := by
  simp [job, Oracle.workerAction, workerStep, State.markFree]

lemma Made.unique {c' : ThreadCommand} (h : Made u w pfx conn₀ i file c)
    (h' : Made u w pfx conn₀ i file c') : c = c' := by
  obtain ⟨fileInfo, hstat, -, -, rfl⟩ := h
  obtain ⟨fileInfo', hstat', -, -, rfl⟩ := h'
  obtain rfl := Option.some.inj (hstat.symm.trans hstat')
  rfl

lemma Made.index_eq (h : Made u w pfx conn₀ i file c) : c.index = i := by
  obtain ⟨fileInfo, -, -, -, rfl⟩ := h
  rfl

lemma enter_ne_failing (c : ThreadCommand) : u.enter c ≠ .failing := by
  rcases u.enter_cases c with ⟨h, -⟩ | ⟨h, -⟩ | ⟨h, -⟩ <;> simp [h]

/-- A file that is skipped or up to date becomes no job. -/
lemma Made.not_skipped (h : Made u w pfx conn₀ i file c) :
    (¬ ∀ fileInfo, w.lstat (pathOf pfx file) = some fileInfo →
      MAX_S3_FILE_SIZE ≤ fileInfo.size) ∧
    ∀ fileInfo, w.lstat (pathOf pfx file) = some fileInfo →
      ¬ UpToDate conn₀ (u.keyOf file) fileInfo := by
  obtain ⟨fileInfo, hstat, hsize, houtdated, -⟩ := h
  refine ⟨fun hskip => absurd (hskip fileInfo hstat) (not_le.mpr hsize), ?_⟩
  intro fileInfo' hstat'
  obtain rfl := Option.some.inj (hstat.symm.trans hstat')
  exact houtdated

/-- **The table and the oracle decide the fate of a file.** -/
theorem Fate.unique (h : Fate u w pfx conn₀ i file es) (h' : Fate u w pfx conn₀ i file fs) :
    es = fs := by
  cases h with
  | skipped hskip =>
      cases h' with
      | skipped | upToDate => rfl
      | finished c hmade => exact absurd hskip hmade.not_skipped.1
  | upToDate fileInfo hstat hsize hup =>
      cases h' with
      | skipped | upToDate => rfl
      | finished c hmade => exact absurd hup (hmade.not_skipped.2 fileInfo hstat)
  | finished c hmade es past hrun =>
      cases h' with
      | skipped hskip => exact absurd hskip hmade.not_skipped.1
      | upToDate fileInfo hstat hsize hup => exact absurd hup (hmade.not_skipped.2 fileInfo hstat)
      | finished c' hmade' es' past' hrun' =>
          obtain rfl := hmade.unique hmade'
          rw [(hrun.eq_of_stuck hrun' (job_finishing _) (job_finishing _)).2]

/-! ## The way there -/

variable (u w files pfx conn₀)

/-- How far the file in place `i` has come. -/
inductive Life (es : List Event) (s : State) (past : Past) (i : ℕ) (file : LocalFile) : Prop
  | ahead (h : s.pc.stated files.length ≤ i) (hes : eventsOf i es = [])
      (hpast : past (u.keyOf file) = [])
  | looking (fileInfo : Stat) (hpc : s.pc = .looking i fileInfo)
      (hstat : w.lstat (pathOf pfx file) = some fileInfo)
      (hsize : fileInfo.size < MAX_S3_FILE_SIZE)
      (hes : eventsOf i es = [statEvent w pfx i file]) (hpast : past (u.keyOf file) = [])
  | sleeping (c : ThreadCommand) (hpc : s.pc = .sleeping c)
      (hmade : Made u w pfx conn₀ i file c) (hes : eventsOf i es = [statEvent w pfx i file])
      (hpast : past (u.keyOf file) = [])
  | working (n : ℕ) (c : ThreadCommand) (v : Worker) (hslot : s.slots n = some (c, v))
      (hmade : Made u w pfx conn₀ i file c) (hv : v ≠ .failing) (gs : List Event)
      (hes : eventsOf i es = statEvent w pfx i file :: gs)
      (hrun : Run (u.job w c) anything (u.enter c, []) () gs (v, past (u.keyOf file)) ())
  | failing (n : ℕ) (c : ThreadCommand) (hslot : s.slots n = some (c, .failing))
      (hindex : c.index = i)
  | passed (hpc : i < s.pc.position files.length)
      (hfree : ∀ n c v, s.slots n = some (c, v) → c.index ≠ i)
      (hfate : Fate u w pfx conn₀ i file (eventsOf i es))
  | failed (h : s.failed = true)
  | ended (h : s.pc = .exited ∨ s.pc = .crashed)

/-- Each file is on its way, and the rows are what the events say. -/
structure Lives (es : List Event) (s : State) (past : Past) : Prop where
  settled : s.conn.Settled
  others : ∀ key, (∀ file ∈ files, u.keyOf file ≠ key) →
    s.conn.view.lookup key = conn₀.view.lookup key
  rows : ∀ i file, files[i]? = some file → s.conn.view.lookup (u.keyOf file) =
    rowAfter (conn₀.view.lookup (u.keyOf file)) (eventsOf i es)
  known : ∀ e ∈ es, e.index < files.length
  life : ∀ i file, files[i]? = some file → Life u w files pfx conn₀ es s past i file

variable {u w files pfx conn₀}

/-- No thread has the file that the loop is at. -/
lemma Placed.slot_ne (hplaced : Placed u files pfx es s)
    (hpc : s.pc.position files.length = i) : ∀ n c v, s.slots n = some (c, v) → c.index ≠ i := by
  intro n c v hslot
  exact (hpc ▸ (hplaced.job n c v hslot).2.1).ne

section
variable (h : Life u w files pfx conn₀ es s past i file) (hplaced : Placed u files pfx es s)
include h

/-- A file that the step has nothing to do with is where it was. -/
lemma Life.keep (hes : eventsOf i fs = [])
    (hpast : past' (u.keyOf file) = past (u.keyOf file))
    (hstated : s.pc.stated files.length ≤ i → s'.pc.stated files.length ≤ i)
    (hposition : s.pc.position files.length ≤ s'.pc.position files.length)
    (hat : (∀ fileInfo, s.pc = .looking i fileInfo → s'.pc = s.pc) ∧
      ∀ c, s.pc = .sleeping c → c.index = i → s'.pc = s.pc)
    (hslots : ∀ n c v, c.index = i → (s'.slots n = some (c, v) ↔ s.slots n = some (c, v)))
    (hfailed : s.failed = true → s'.failed = true)
    (hended : s.pc = .exited ∨ s.pc = .crashed → s'.pc = .exited ∨ s'.pc = .crashed) :
    Life u w files pfx conn₀ (es ++ fs) s' past' i file := by
  have hsame : eventsOf i (es ++ fs) = eventsOf i es := by
    rw [eventsOf_append, hes, List.append_nil]
  cases h with
  | ahead h hnone hnew => exact .ahead (hstated h) (hsame.trans hnone) (hpast.trans hnew)
  | looking fileInfo hpc hstat hsize hone hnew =>
      exact .looking fileInfo ((hat.1 fileInfo hpc).trans hpc) hstat hsize (hsame.trans hone)
        (hpast.trans hnew)
  | sleeping c hpc hmade hone hnew =>
      exact .sleeping c ((hat.2 c hpc hmade.index_eq).trans hpc) hmade (hsame.trans hone)
        (hpast.trans hnew)
  | working n c v hslot hmade hv gs hgs hrun =>
      exact .working n c v ((hslots n c v hmade.index_eq).mpr hslot) hmade hv gs (hsame.trans hgs)
        (hpast ▸ hrun)
  | failing n c hslot hindex => exact .failing n c ((hslots n c _ hindex).mpr hslot) hindex
  | passed hpc hfree hfate =>
      refine .passed (lt_of_lt_of_le hpc hposition) ?_ (hsame ▸ hfate)
      intro n c v hslot hindex
      exact hfree n c v ((hslots n c v hindex).mp hslot) hindex
  | failed h => exact .failed (hfailed h)
  | ended h => exact .ended (hended h)

include hplaced

/-- The file that the loop is at is with no thread and not behind it: the loop has not stated it, or
is about to look its row up, or waits with its job. -/
lemma Life.of_position (hposition : s.pc.position files.length = i) :
    (s.pc.stated files.length ≤ i ∧ eventsOf i es = [] ∧ past (u.keyOf file) = []) ∨
    (∃ fileInfo, s.pc = .looking i fileInfo ∧ w.lstat (pathOf pfx file) = some fileInfo ∧
      fileInfo.size < MAX_S3_FILE_SIZE ∧ eventsOf i es = [statEvent w pfx i file] ∧
        past (u.keyOf file) = []) ∨
    (∃ c, s.pc = .sleeping c ∧ Made u w pfx conn₀ i file c ∧
      eventsOf i es = [statEvent w pfx i file] ∧ past (u.keyOf file) = []) ∨
    s.failed = true ∨ s.pc = .exited ∨ s.pc = .crashed := by
  have hne := hplaced.slot_ne hposition
  cases h with
  | ahead h hnone hnew => exact Or.inl ⟨h, hnone, hnew⟩
  | looking fileInfo hpc hstat hsize hone hnew =>
      exact Or.inr (Or.inl ⟨fileInfo, hpc, hstat, hsize, hone, hnew⟩)
  | sleeping c hpc hmade hone hnew =>
      exact Or.inr (Or.inr (Or.inl ⟨c, hpc, hmade, hone, hnew⟩))
  | working n c v hs hmade => exact absurd hmade.index_eq (hne n c v hs)
  | failing n c hs hindex => exact absurd hindex (hne n c _ hs)
  | passed hpassed => exact absurd hpassed (hposition ▸ lt_irrefl _)
  | failed h => exact Or.inr (Or.inr (Or.inr (Or.inl h)))
  | ended h => exact Or.inr (Or.inr (Or.inr (Or.inr h)))

/-- The file that the loop is about to state is new. -/
lemma Life.of_stating (hpc : s.pc = .stating i) :
    (eventsOf i es = [] ∧ past (u.keyOf file) = []) ∨ s.failed = true := by
  have hposition : s.pc.position files.length = i := by rw [hpc, Dispatcher.position]
  rcases h.of_position hplaced hposition with ⟨-, hnone, hnew⟩ | ⟨fileInfo, hlooking, -⟩ |
    ⟨c, hsleeping, -⟩ | hfailed | hended
  · exact Or.inl ⟨hnone, hnew⟩
  · simp [hpc] at hlooking
  · simp [hpc] at hsleeping
  · exact Or.inr hfailed
  · simp [hpc] at hended

/-- The file whose row the loop is about to look up has been stated, and no more. -/
lemma Life.of_looking {fileInfo : Stat} (hpc : s.pc = .looking i fileInfo) :
    (w.lstat (pathOf pfx file) = some fileInfo ∧ fileInfo.size < MAX_S3_FILE_SIZE ∧
      eventsOf i es = [statEvent w pfx i file] ∧ past (u.keyOf file) = []) ∨ s.failed = true := by
  have hposition : s.pc.position files.length = i := by rw [hpc, Dispatcher.position]
  rcases h.of_position hplaced hposition with ⟨hahead, -⟩ | ⟨fileInfo', hlooking, hstated⟩ |
    ⟨c, hsleeping, -⟩ | hfailed | hended
  · simp [hpc, Dispatcher.stated] at hahead
  · rw [hpc] at hlooking
    cases hlooking
    exact Or.inl hstated
  · simp [hpc] at hsleeping
  · exact Or.inr hfailed
  · simp [hpc] at hended

/-- The job that waits for a slot is the one that the file makes. -/
lemma Life.of_sleeping (hpc : s.pc = .sleeping c) (hindex : c.index = i) :
    (Made u w pfx conn₀ i file c ∧ eventsOf i es = [statEvent w pfx i file] ∧
      past (u.keyOf file) = []) ∨ s.failed = true := by
  have hposition : s.pc.position files.length = i := by rw [hpc, Dispatcher.position, hindex]
  rcases h.of_position hplaced hposition with ⟨hahead, -⟩ | ⟨fileInfo, hlooking, -⟩ |
    ⟨c', hsleeping, hstated⟩ | hfailed | hended
  · rw [hpc, Dispatcher.stated, hindex] at hahead
    omega
  · simp [hpc] at hlooking
  · rw [hpc] at hsleeping
    cases hsleeping
    exact Or.inl hstated
  · exact Or.inr hfailed
  · simp [hpc] at hended

/-- The thread of a file has done what `job` does, if it has not failed. -/
lemma Life.of_slot (hrun : s.pc.running = true) (hslot : s.slots n = some (c, v))
    (hindex : c.index = i) :
    (v ≠ .failing ∧ Made u w pfx conn₀ i file c ∧
      ∃ gs, eventsOf i es = statEvent w pfx i file :: gs ∧
        Run (u.job w c) anything (u.enter c, []) () gs (v, past (u.keyOf file)) ()) ∨
    v = .failing ∨ s.failed = true := by
  obtain ⟨-, hlt, hjob⟩ := hplaced.job n c v hslot
  rw [hindex] at hlt
  cases h with
  | ahead h =>
      have hle : s.pc.position files.length ≤ s.pc.stated files.length := by
        rcases s.pc with _ | _ | _ | _ | _ | _ | _ | _ <;>
          simp [Dispatcher.position, Dispatcher.stated]
      omega
  | looking fileInfo' hpc' =>
      rw [hpc', Dispatcher.position] at hlt
      exact absurd hlt (lt_irrefl _)
  | sleeping d hpc' hmade =>
      rw [hpc', Dispatcher.position, hmade.index_eq] at hlt
      exact absurd hlt (lt_irrefl _)
  | working m d v' hs hmade hv gs hgs hrun =>
      obtain rfl := hplaced.distinct m n d c v' v hs hslot (hmade.index_eq.trans hindex.symm)
      rw [hs] at hslot
      cases hslot
      exact Or.inl ⟨hv, hmade, gs, hgs, hrun⟩
  | failing m d hs hd =>
      obtain rfl := hplaced.distinct m n d c _ v hs hslot (hd.trans hindex.symm)
      rw [hs] at hslot
      cases hslot
      exact Or.inr (Or.inl rfl)
  | passed hpassed hfree => exact absurd hindex (hfree n c v hslot)
  | failed h => exact Or.inr (Or.inr h)
  | ended h => rcases h with h | h <;> rw [h] at hrun <;> cases hrun

end

/-! ## Steps -/

/-- A step that leaves the connection and stores nothing. -/
lemma Lives.quiet (h : Lives u w files pfx conn₀ es s past) (hconn : s'.conn = s.conn)
    (hfs : ∀ e ∈ fs, e.index < files.length ∧ ∀ c row, e ≠ .row c row)
    (hlife : ∀ i file, files[i]? = some file →
      Life u w files pfx conn₀ (es ++ fs) s' past' i file) :
    Lives u w files pfx conn₀ (es ++ fs) s' past' where
  settled := hconn ▸ h.settled
  others := by
    rw [hconn]
    exact h.others
  rows := by
    intro i file hfile
    have hquiet : ∀ (old : Option Row) (gs : List Event), (∀ e ∈ gs, ∀ c row, e ≠ .row c row) →
        rowAfter old gs = old := by
      intro old gs hgs
      induction gs generalizing old with
      | nil => rfl
      | cons e gs ih =>
          rw [rowAfter, List.foldl_cons]
          rcases e with _ | _ | _ | _ | ⟨c, row⟩
          case row => exact absurd rfl (hgs _ List.mem_cons_self c row)
          all_goals exact ih old fun e he => hgs e (List.mem_cons_of_mem _ he)
    rw [hconn, h.rows i file hfile, eventsOf_append, rowAfter_append]
    refine (hquiet _ _ fun e he => ?_).symm
    exact (hfs e (List.mem_filter.mp he).1).2
  known := by
    intro e he
    rcases List.mem_append.mp he with he | he
    · exact h.known e he
    · exact (hfs e he).1
  life := hlife

/-- What holds of a file and of the others holds of all. -/
lemma forall_files {i : ℕ} {file : LocalFile} (hfile : files[i]? = some file)
    {P : ℕ → LocalFile → Prop} (hhere : P i file)
    (hothers : ∀ j f, j ≠ i → files[j]? = some f → P j f) (j : ℕ) (f : LocalFile)
    (hf : files[j]? = some f) : P j f := by
  by_cases hji : j = i
  · subst hji
    obtain rfl := Option.some.inj (hfile.symm.trans hf)
    exact hhere
  · exact hothers j f hji hf

/-- **A turn of the loop.** -/
lemma Lives.loop (h : Lives u w files pfx conn₀ es s past) (hplaced : Placed u files pfx es s)
    {fails : Faults} {created : Bool} {a : Action}
    (ha : w.loopAction files pfx fails n created s.pc = some a)
    (ht : u.Transition files pfx s a fs s') : Lives u w files pfx conn₀ (es ++ fs) s' past := by
  -- the row of a file whose events are no store is the one at the start
  have hrow : ∀ i file, files[i]? = some file → eventsOf i es = [statEvent w pfx i file] →
      rowOf s.conn (u.keyOf file) = rowOf conn₀ (u.keyOf file) := by
    intro i file hfile hes
    rw [rowOf, h.rows i file hfile, hes]
    rfl
  cases ht with
  | more i hpc hfailed hi =>
      refine h.quiet rfl (by simp) fun j f hf => ?_
      refine (h.life j f hf).keep rfl rfl (by simp [hpc, Dispatcher.stated])
        (by simp [hpc, Dispatcher.position]) (by simp [hpc]) (fun _ _ _ _ => Iff.rfl) id
        (by simp [hpc])
  | done i hpc hend =>
      refine h.quiet rfl (by simp) fun j f hf => ?_
      have hj := (List.getElem?_eq_some_iff.mp hf).1
      rcases hend with hfailed | hlen
      · exact .failed hfailed
      · refine (h.life j f hf).keep rfl rfl ?_ ?_ (by simp [hpc]) (fun _ _ _ _ => Iff.rfl) id
          (by simp [hpc])
        · simp only [hpc, Dispatcher.stated]
          omega
        · exact hplaced.position_le
  | skipped i file answer hpc hfile hskip =>
      have hanswer : answer = w.lstat (pathOf pfx file) := by
        simpa [hpc, Oracle.loopAction, hfile] using ha.symm
      subst hanswer
      have hi := (List.getElem?_eq_some_iff.mp hfile).1
      refine h.quiet rfl (by simp [Event.index, hi]) (forall_files hfile ?_ fun j f hji hf => ?_)
      · rcases (h.life i file hfile).of_stating hplaced hpc with ⟨hnone, hnew⟩ | hfailed
        · refine .passed (by simp [Dispatcher.position])
            (hplaced.slot_ne (by rw [hpc, Dispatcher.position])) ?_
          · rw [eventsOf_append, hnone, eventsOf_self (by simp [Event.index])]
            exact .skipped hskip
        · exact .failed hfailed
      · refine (h.life j f hf).keep (eventsOf_of_ne (by simp [Event.index]) hji) rfl ?_
          (by simp [hpc, Dispatcher.position]) (by simp [hpc]) (fun _ _ _ _ => Iff.rfl) id
          (by simp [hpc])
        simp only [hpc, Dispatcher.stated, State.goto_pc]
        omega
  | stated i file fileInfo hpc hfile hsize =>
      have hstat : some fileInfo = w.lstat (pathOf pfx file) := by
        simpa [hpc, Oracle.loopAction, hfile] using ha.symm
      have hi := (List.getElem?_eq_some_iff.mp hfile).1
      refine h.quiet rfl (by simp [Event.index, hi]) (forall_files hfile ?_ fun j f hji hf => ?_)
      · rcases (h.life i file hfile).of_stating hplaced hpc with ⟨hnone, hnew⟩ | hfailed
        · refine .looking fileInfo rfl hstat.symm hsize ?_ hnew
          rw [eventsOf_append, hnone, eventsOf_self (by simp [Event.index]), statEvent, hstat]
          rfl
        · exact .failed hfailed
      · refine (h.life j f hf).keep (eventsOf_of_ne (by simp [Event.index]) hji) rfl ?_
          (by simp [hpc, Dispatcher.position]) (by simp [hpc]) (fun _ _ _ _ => Iff.rfl) id
          (by simp [hpc])
        simp only [hpc, Dispatcher.stated, State.goto_pc]
        omega
  | lookupFailed i fileInfo file fails hpc hfile hfails =>
      exact h.quiet rfl (by simp) fun j f hf => .failed rfl
  | upToDate i fileInfo file fails hpc hfile hup =>
      refine h.quiet rfl (by simp) (forall_files hfile ?_ fun j f hji hf => ?_)
      · rcases (h.life i file hfile).of_looking hplaced hpc with
          ⟨hstat, hsize, hone, -⟩ | hfailed
        · refine .passed (by simp [Dispatcher.position])
            (hplaced.slot_ne (by rw [hpc, Dispatcher.position])) ?_
          · rw [List.append_nil, hone]
            rw [UpToDate, hrow i file hfile hone] at hup
            exact .upToDate fileInfo hstat hsize hup
        · exact .failed hfailed
      · refine (h.life j f hf).keep rfl rfl ?_ (by simp [hpc, Dispatcher.position]) ?_
          (fun _ _ _ _ => Iff.rfl) id (by simp [hpc])
        · simp only [hpc, Dispatcher.stated, State.goto_pc]
          omega
        · simp [hpc, Ne.symm hji]
  | outdated i fileInfo file fails hpc hfile houtdated =>
      refine h.quiet rfl (by simp) (forall_files hfile ?_ fun j f hji hf => ?_)
      · rcases (h.life i file hfile).of_looking hplaced hpc with
          ⟨hstat, hsize, hone, hnew⟩ | hfailed
        · rw [UpToDate, hrow i file hfile hone] at houtdated
          refine .sleeping _ rfl ⟨fileInfo, hstat, hsize, houtdated, ?_⟩ (by simpa using hone) hnew
          rw [hrow i file hfile hone]
        · exact .failed hfailed
      · refine (h.life j f hf).keep rfl rfl ?_ (by simp [hpc, Dispatcher.position, command]) ?_
          (fun _ _ _ _ => Iff.rfl) id (by simp [hpc])
        · simp only [hpc, Dispatcher.stated, State.goto_pc, command]
          omega
        · simp [hpc, Ne.symm hji]
  | dispatched n c hpc hn hfree =>
      refine h.quiet rfl (by simp) fun j f hf => ?_
      by_cases hjc : c.index = j
      · rcases (h.life j f hf).of_sleeping hplaced hpc hjc with ⟨hmade, hone, hnew⟩ | hfailed
        · refine .working n c (u.enter c) (State.setSlot_slots_self n c _) hmade
            (enter_ne_failing c) [] (by simpa using hone) ?_
          rw [hnew]
          exact .start
        · exact .failed hfailed
      · refine (h.life j f hf).keep rfl rfl ?_ (by simp [hpc, Dispatcher.position]) ?_ ?_ id
          (by simp [hpc])
        · simp [hpc, Dispatcher.stated]
        · simp [hpc, hjc]
        · intro m d v hd
          by_cases hmn : m = n
          · subst hmn
            rw [State.goto_slots, State.setSlot_slots_self, hfree]
            simp only [Option.some.injEq, Prod.mk.injEq, reduceCtorEq, iff_false]
            rintro ⟨rfl, -⟩
            exact hjc hd
          · rw [State.goto_slots, State.setSlot_slots_of_ne hmn]
  | notCreated n c hpc => exact h.quiet rfl (by simp) fun j f hf => .ended (Or.inl rfl)
  | joined hpc hfree =>
      refine h.quiet rfl (by simp) fun j f hf => ?_
      exact (h.life j f hf).keep rfl rfl (by simp [hpc, Dispatcher.stated])
        (by simp [hpc, Dispatcher.position]) (by simp [hpc]) (fun _ _ _ _ => Iff.rfl) id
        (by simp [hpc])
  | move n c v v' wa fs conn flag hrun hslot hmove =>
      cases hpc : s.pc <;> simp [hpc, Oracle.loopAction] at ha
  | freed n c hrun hslot => cases hpc : s.pc <;> simp [hpc, Oracle.loopAction] at ha
  | lost n c v wa fs hrun hslot hlost => cases hpc : s.pc <;> simp [hpc, Oracle.loopAction] at ha

/-- The rows after a turn of a thread: at most that of its own file is another. -/
lemma Move.rows {conn conn' : Db} {flag : Bool} {wa : WorkerAction} (hsettled : conn.Settled)
    (hmove : u.Move conn c v wa fs v' conn' flag) :
    conn'.Settled ∧ (∀ key, key ≠ c.path → conn'.view.lookup key = conn.view.lookup key) ∧
      conn'.view.lookup c.path = rowAfter (conn.view.lookup c.path) fs := by
  cases hmove with
  | stored md5 fails =>
      refine ⟨by simp [hsettled], ?_, ?_⟩
      · intro key hkey
        simp [AList.lookup_insert_ne hkey]
      · simp [rowAfter]
  | _ => exact ⟨hsettled, fun _ _ => rfl, rfl⟩

/-- **A turn of a thread.** -/
lemma Lives.thread (h : Lives u w files pfx conn₀ es s past) (hplaced : Placed u files pfx es s)
    (hkeys : KeysDistinct u files) {fails : Faults} (hrun : s.pc.running = true)
    (hslot : s.slots n = some (c, v))
    (hs : u.workerStep s n c v (w.workerAction (past c.path) c fails v) = some (s', fs)) :
    Lives u w files pfx conn₀ (es ++ fs) s'
      (Function.update past c.path (w.pastAfter (past c.path) c v)) := by
  obtain ⟨-, hlt, hjob⟩ := hplaced.job n c v hslot
  obtain ⟨file, hfile, -, hpath⟩ := hjob.file
  have hindex := workerStep_index hs
  have hi := hjob.index_lt
  have hne : ∀ j f, files[j]? = some f → j ≠ c.index → u.keyOf f ≠ c.path := by
    intro j f hf hj heq
    exact hj (hkeys j c.index f file hf hfile (heq.trans hpath))
  -- the thread has slot `n`, and no other thread has its file
  have halone : ∀ m d v₁, s.slots m = some (d, v₁) → d.index = c.index → m = n :=
    fun m d v₁ hm hd => hplaced.distinct m n d c v₁ v hm hslot hd
  rcases workerStep_cases hs with ⟨v', conn, flag, hmove, rfl⟩ | ⟨rfl, -, rfl, rfl⟩ | ⟨hlost, rfl⟩
  · obtain ⟨hsettled, hrows, hself⟩ := hmove.rows h.settled
    refine ⟨hsettled, ?_, ?_, ?_, ?_⟩
    · intro key hkey
      have hkey' : key ≠ c.path := by
        rintro rfl
        exact hkey file (List.mem_of_getElem? hfile) hpath.symm
      exact (hrows key hkey').trans (h.others key hkey)
    · intro j f hf
      rw [eventsOf_append, rowAfter_append, ← h.rows j f hf]
      by_cases hj : j = c.index
      · subst hj
        obtain rfl := Option.some.inj (hfile.symm.trans hf)
        rw [eventsOf_self hindex, ← hpath]
        exact hself
      · rw [eventsOf_of_ne hindex hj]
        exact hrows _ (hne j f hf hj)
    · intro e he
      rcases List.mem_append.mp he with he | he
      · exact h.known e he
      · exact hindex e he ▸ hi
    · intro j f hf
      by_cases hj : j = c.index
      · subst hj
        obtain rfl := Option.some.inj (hfile.symm.trans hf)
        rcases (h.life c.index file hfile).of_slot hplaced hrun hslot rfl with
          ⟨hv, hmade, gs, hgs, hjobRun⟩ | rfl | hfailed
        · by_cases hv' : v' = .failing
          · subst hv'
            exact .failing n c (State.setSlot_slots_self n c _) rfl
          · have hstep : u.job w c (v, past c.path) () =
                some ((v', w.pastAfter (past c.path) c v), fs) :=
              job_of_workerStep hv hv' hs hrun (State.setSlot_slots_self n c v')
            refine .working n c v' (State.setSlot_slots_self n c v') hmade hv' (gs ++ fs) ?_ ?_
            · rw [eventsOf_append, hgs, eventsOf_self hindex, List.cons_append]
            · rw [← hpath] at hjobRun ⊢
              rw [Function.update_self]
              exact hjobRun.move hstep trivial
        · cases hmove
          exact .failed (by simp)
        · exact .failed (by simp [hfailed])
      · refine (h.life j f hf).keep (eventsOf_of_ne hindex hj)
          (Function.update_of_ne (hne j f hf hj) _ _) id le_rfl (by simp) ?_
          (by simp +contextual) id
        intro m d v₁ hd
        have hmn : m ≠ n ∨ m = n := (em (m = n)).symm
        rcases hmn with hmn | rfl
        · rw [State.setSlot_slots_of_ne hmn]
        · rw [State.setSlot_slots_self, hslot]
          constructor <;>
            · rintro ⟨⟩
              exact absurd hd.symm hj
  · refine h.quiet rfl (by simp) fun j f hf => ?_
    by_cases hj : j = c.index
    · subst hj
      obtain rfl := Option.some.inj (hfile.symm.trans hf)
      rcases (h.life c.index file hfile).of_slot hplaced hrun hslot rfl with
        ⟨-, hmade, gs, hgs, hjobRun⟩ | hfailing | hfailed
      · refine .passed hlt ?_ ?_
        · intro m d v₁ hm hd
          obtain ⟨hmn, hm⟩ := State.markFree_slots hm
          exact hmn (halone m d v₁ hm hd)
        · rw [List.append_nil, hgs]
          exact .finished c hmade gs _ hjobRun
      · cases hfailing
      · exact .failed hfailed
    · refine (h.life j f hf).keep rfl (Function.update_of_ne (hne j f hf hj) _ _) id le_rfl
        (by simp) ?_ id id
      intro m d v₁ hd
      by_cases hmn : m = n
      · subst hmn
        rw [hslot]
        simp only [State.markFree, Function.update_self, reduceCtorEq, Option.some.injEq,
          Prod.mk.injEq, false_iff, not_and]
        rintro rfl
        exact absurd hd.symm hj
      · rw [State.markFree_slots_of_ne hmn]
  · refine h.quiet rfl ?_ fun j f hf => .ended (Or.inr rfl)
    intro e he
    refine ⟨hindex e he ▸ hi, ?_⟩
    rintro d row rfl
    generalize w.workerAction (past c.path) c fails v = wa at hlost
    cases hlost <;> simp at he

/-! ## Runs -/

lemma lives_start (hconn : conn₀.Settled) :
    Lives u w files pfx conn₀ [] { conn := conn₀ } fun _ => [] where
  settled := hconn
  others := fun _ _ => rfl
  rows := fun _ _ _ => rfl
  known := by simp
  life := fun i file _ => .ahead (Nat.zero_le i) rfl rfl

/-- **Each file of a run is on its way.** -/
theorem lives_run (hkeys : KeysDistinct u files) (hconn : conn₀.Settled)
    (h : Run (u.interleaved w files pfx) anything ({ conn := conn₀ }, fun _ => []) () es
      (s, past) ()) : Placed u files pfx es s ∧ Lives u w files pfx conn₀ es s past := by
  refine h.invariant (I := fun es p _ => Placed u files pfx es p.1 ∧
    Lives u w files pfx conn₀ es p.1 p.2) ⟨placed_start, lives_start hconn⟩ ?_
  rintro es ⟨t, past⟩ x choice fs ⟨t', past'⟩ y ⟨hplaced, hlives⟩ hs -
  rcases interleaved_cases hs with ⟨rfl, fails, created, n, a, ha, hstep⟩ |
    ⟨n, c, v, fails, hslot, hrun, hworker, rfl, hstep⟩
  · have ht := step_transition hstep
    exact ⟨hplaced.transition ht, hlives.loop hplaced ha ht⟩
  · exact ⟨hplaced.transition (step_transition hstep),
      hlives.thread hplaced hkeys hrun hslot hworker⟩

/-- A run that has returned success has brought each file to its fate. -/
lemma Lives.fate (h : Lives u w files pfx conn₀ es s past) (hplaced : Placed u files pfx es s)
    (hpc : s.pc = .returned true) (hfile : files[i]? = some file) :
    Fate u w pfx conn₀ i file (eventsOf i es) := by
  obtain ⟨hfailed, hslots⟩ := hplaced.returned true hpc
  have hi := (List.getElem?_eq_some_iff.mp hfile).1
  cases h.life i file hfile with
  | ahead h =>
      rw [hpc] at h
      exact absurd h (not_le.mpr hi)
  | looking fileInfo hpc' => simp [hpc] at hpc'
  | sleeping c hpc' => simp [hpc] at hpc'
  | working n c v hslot => simp [hslots n] at hslot
  | failing n c hslot => simp [hslots n] at hslot
  | passed hpassed hfree hfate => exact hfate
  | failed h => simp [h] at hfailed
  | ended h => simp [hpc] at h

/-- **Two runs in which nothing fails show the same events**, each file for itself, **and end with
the same rows.** -/
theorem same_ends (hkeys : KeysDistinct u files) (hconn : conn₀.Settled) {s' : State}
    {past' : Past}
    (h : Run (u.interleaved w files pfx) anything ({ conn := conn₀ }, fun _ => []) () es
      (s, past) ()) (hpc : s.pc = .returned true)
    (h' : Run (u.interleaved w files pfx) anything ({ conn := conn₀ }, fun _ => []) () fs
      (s', past') ()) (hpc' : s'.pc = .returned true) :
    (∀ e, e ∈ es ↔ e ∈ fs) ∧
      ∀ key, s.conn.committed.lookup key = s'.conn.committed.lookup key := by
  obtain ⟨hplaced, hlives⟩ := lives_run hkeys hconn h
  obtain ⟨hplaced', hlives'⟩ := lives_run hkeys hconn h'
  have hevents : ∀ i file, files[i]? = some file → eventsOf i es = eventsOf i fs :=
    fun i file hfile => (hlives.fate hplaced hpc hfile).unique (hlives'.fate hplaced' hpc' hfile)
  have hmem : ∀ e, e.index < files.length → (e ∈ es ↔ e ∈ fs) := by
    intro e he
    rw [← mem_eventsOf, hevents e.index _ (List.getElem?_eq_getElem he), mem_eventsOf]
  refine ⟨?_, ?_⟩
  · intro e
    constructor
    · exact fun he => (hmem e (hlives.known e he)).mp he
    · exact fun he => (hmem e (hlives'.known e he)).mpr he
  · intro key
    rw [← Connection.view_of_settled hlives.settled, ← Connection.view_of_settled hlives'.settled]
    by_cases hkey : ∃ file ∈ files, u.keyOf file = key
    · obtain ⟨file, hmemFile, rfl⟩ := hkey
      obtain ⟨i, hi⟩ := List.mem_iff_getElem?.mp hmemFile
      rw [hlives.rows i file hi, hlives'.rows i file hi, hevents i file hi]
    · push Not at hkey
      rw [hlives.others key hkey, hlives'.others key hkey]

/-! ## One after another -/

/-- A turn of the loop when no thread is left. -/
lemma oneByOne_loop {a : Action} (hfree : ∀ n, s.slots n = none)
    (ha : w.loopAction files pfx noFaults 0 true s.pc = some a)
    (hs : u.step files pfx s a = some (s', es)) (past : Past) :
    Run (u.oneByOne w files pfx) anything (s, past) () es (s', past) () := by
  refine .one (a := .loop noFaults 0 true) ?_ trivial
  simp [oneByOne, interleaved, hfree, ha, hs]

/-- A turn of a thread. -/
lemma oneByOne_thread (hrun : s.pc.running = true) (hslot : s.slots 0 = some (c, v))
    (hs : u.workerStep s 0 c v (w.workerAction (past c.path) c noFaults v) = some (s', es)) :
    Run (u.oneByOne w files pfx) anything (s, past) () es
      (s', Function.update past c.path (w.pastAfter (past c.path) c v)) () := by
  refine .one (a := .thread 0 noFaults) ?_ trivial
  simp [oneByOne, interleaved, step, hrun, hslot, hs]

/-- The thread leaves its slot. -/
lemma oneByOne_freed (hrun : s.pc.running = true) (hslot : s.slots 0 = some (c, .finishing))
    (past : Past) :
    Run (u.oneByOne w files pfx) anything (s, past) () [] (s.markFree 0, past) () := by
  have hpast : Function.update past c.path (w.pastAfter (past c.path) c .finishing) = past :=
    Function.update_eq_self _ _
  have hturn : Run (u.oneByOne w files pfx) anything (s, past) () [] (s.markFree 0,
      Function.update past c.path (w.pastAfter (past c.path) c .finishing)) () :=
    oneByOne_thread hrun hslot rfl
  rwa [hpast] at hturn

/-- The thread in slot 0 runs as `job` does. -/
lemma oneByOne_job {p p' : Worker × List Attempt} {o : Unit} (hrun : s.pc.running = true)
    (hslot : s.slots 0 = some (c, p.1)) (hpast : past c.path = p.2) (hp : p.1 ≠ .failing)
    (h : Run (u.job w c) anything p () es p' o) :
    p'.1 ≠ .failing ∧ ∃ conn past', past' c.path = p'.2 ∧
      Run (u.oneByOne w files pfx) anything (s, past) () es
        ({ s with conn := conn }.setSlot 0 c p'.1, past') () := by
  induction h with
  | start =>
      refine ⟨hp, s.conn, past, hpast, ?_⟩
      have hself : s.setSlot 0 c p.1 = s := by
        rw [State.setSlot, ← hslot, Function.update_eq_self]
      rw [show ({ s with conn := s.conn } : State) = s from rfl, hself]
      exact .start
  | @move es q _ _ fs q' _ _ hs _ ih =>
      obtain ⟨hq, conn, past', hpast', hrun'⟩ := ih
      obtain ⟨v, attempts⟩ := q
      obtain ⟨v', attempts'⟩ := q'
      obtain ⟨hv', hafter, conn', hstep⟩ := workerStep_of_job hs hq
        ({ s with conn := conn }.setSlot 0 c v) 0
      have hturn : Run (u.oneByOne w files pfx) anything
          ({ s with conn := conn }.setSlot 0 c v, past') () fs
          ({ s with conn := conn' }.setSlot 0 c v',
            Function.update past' c.path (w.pastAfter (past' c.path) c v)) () := by
        refine oneByOne_thread (v := v) hrun (State.setSlot_slots_self 0 c v) ?_
        rw [hpast', hstep]
        simp [State.setSlot]
      refine ⟨hv', conn', _, ?_, hrun'.trans hturn⟩
      rw [Function.update_self, hpast', hafter]

/-- The loop looks up the row of a file. -/
lemma step_looking {conn : Db} {fileInfo : Stat} (hfile : files[i]? = some file) :
    (UpToDate conn (u.keyOf file) fileInfo →
      u.step files pfx { conn := conn, pc := .looking i fileInfo } (.lookup noFaults) =
        some ({ conn := conn, pc := .top (i + 1) }, [])) ∧
    (¬ UpToDate conn (u.keyOf file) fileInfo →
      u.step files pfx { conn := conn, pc := .looking i fileInfo } (.lookup noFaults) =
        some ({ conn := conn, pc := .sleeping (u.command pfx i file fileInfo
          (rowOf conn (u.keyOf file))) }, [])) := by
  simp only [step, hfile, lookup_noFaults]
  exact ⟨fun hup => if_pos hup, fun hout => if_neg hout⟩

/-- **A file that stands alone goes all the way to its fate.** -/
lemma oneByOne_file {conn : Db} {gs : List Event} (hfile : files[i]? = some file)
    (hrow : rowOf conn (u.keyOf file) = rowOf conn₀ (u.keyOf file))
    (hpast : past (u.keyOf file) = []) (hfate : Fate u w pfx conn₀ i file gs) :
    ∃ conn' past', Run (u.oneByOne w files pfx) anything
      ({ conn := conn, pc := .stating i }, past) () gs
      ({ conn := conn', pc := .top (i + 1) }, past') () := by
  have hasked : w.loopAction files pfx noFaults 0 true (.stating i) =
      some (.stat (w.lstat (pathOf pfx file))) := by
    simp [Oracle.loopAction, hfile]
  have hstated : ∀ fileInfo, w.lstat (pathOf pfx file) = some fileInfo →
      fileInfo.size < MAX_S3_FILE_SIZE → Run (u.oneByOne w files pfx) anything
        ({ conn := conn, pc := .stating i }, past) () [statEvent w pfx i file]
        ({ conn := conn, pc := .looking i fileInfo }, past) () := by
    intro fileInfo hstat hsize
    refine oneByOne_loop (fun _ => rfl) hasked ?_ past
    simp [step, hfile, statEvent, hstat, not_le.mpr hsize, State.goto]
  cases hfate with
  | skipped hskip =>
      refine ⟨conn, past, oneByOne_loop (fun _ => rfl) hasked ?_ past⟩
      rcases hstat : w.lstat (pathOf pfx file) with _ | fileInfo
      · simp [step, hfile, statEvent, hstat, State.goto]
      · simp [step, hfile, statEvent, hstat, hskip fileInfo hstat, State.goto]
  | upToDate fileInfo hstat hsize hup =>
      rw [UpToDate, ← hrow] at hup
      have hlooked : Run (u.oneByOne w files pfx) anything
          ({ conn := conn, pc := .looking i fileInfo }, past) () []
          ({ conn := conn, pc := .top (i + 1) }, past) () :=
        oneByOne_loop (fun _ => rfl) rfl ((step_looking hfile).1 hup) past
      exact ⟨conn, past, by simpa using (hstated fileInfo hstat hsize).trans hlooked⟩
  | finished c hmade gs attempts hjob =>
      obtain ⟨fileInfo, hstat, hsize, houtdated, hc⟩ := hmade
      rw [UpToDate, ← hrow] at houtdated
      rw [← hrow] at hc
      have hlooked : Run (u.oneByOne w files pfx) anything
          ({ conn := conn, pc := .looking i fileInfo }, past) () []
          ({ conn := conn, pc := .sleeping c }, past) () := by
        rw [hc]
        exact oneByOne_loop (fun _ => rfl) rfl ((step_looking hfile).2 houtdated) past
      obtain ⟨hindex, hpath⟩ : c.index = i ∧ c.path = u.keyOf file := by
        rw [hc]
        exact ⟨rfl, rfl⟩
      let s₁ : State :=
        (({ conn := conn, pc := .sleeping c } : State).setSlot 0 c (u.enter c)).goto (.top (i + 1))
      have hdispatched : Run (u.oneByOne w files pfx) anything
          ({ conn := conn, pc := .sleeping c }, past) () [] (s₁, past) () := by
        refine oneByOne_loop (fun _ => rfl) rfl ?_ past
        simp [step, u.uploadThreads_pos, s₁, hindex]
      have hslot : s₁.slots 0 = some (c, u.enter c) := by
        rw [State.goto_slots, State.setSlot_slots_self]
      have hnew : past c.path = [] := hpath ▸ hpast
      obtain ⟨-, conn', past', -, hworked⟩ : Worker.finishing ≠ .failing ∧ ∃ conn' past',
          past' c.path = attempts ∧ Run (u.oneByOne w files pfx) anything (s₁, past) () gs
            ({ s₁ with conn := conn' }.setSlot 0 c .finishing, past') () :=
        oneByOne_job rfl hslot hnew (enter_ne_failing c) hjob
      have hend : ({ s₁ with conn := conn' }.setSlot 0 c .finishing).markFree 0 =
          { conn := conn', pc := .top (i + 1) } := by
        simp [State.markFree, State.setSlot, State.goto, s₁]
      have hfreed : Run (u.oneByOne w files pfx) anything
          ({ s₁ with conn := conn' }.setSlot 0 c .finishing, past') () [] _ () :=
        oneByOne_freed rfl (State.setSlot_slots_self 0 c _) past'
      rw [hend] at hfreed
      refine ⟨conn', past', ?_⟩
      have hall := ((((hstated fileInfo hstat hsize).trans hlooked).trans hdispatched).trans
        hworked).trans hfreed
      simpa using hall

/-- **There is a run through the files one after another** when each file has a fate. -/
lemma exists_oneByOne (hkeys : KeysDistinct u files) (hconn : conn₀.Settled)
    (hfates : ∀ i file, files[i]? = some file → ∃ gs, Fate u w pfx conn₀ i file gs) :
    ∃ es s past, Run (u.oneByOne w files pfx) anything ({ conn := conn₀ }, fun _ => []) () es
      (s, past) () ∧ s.pc = .returned true := by
  have htop : ∀ i ≤ files.length, ∃ es conn past, Run (u.oneByOne w files pfx) anything
      ({ conn := conn₀ }, fun _ => []) () es ({ conn := conn, pc := .top i }, past) () := by
    intro i
    induction i with
    | zero => exact fun _ => ⟨[], conn₀, _, .start⟩
    | succ i ih =>
        intro hi
        obtain ⟨es, conn, past, hrun⟩ := ih (Nat.le_of_succ_le hi)
        have hchecked : u.step files pfx { conn := conn, pc := .top i } .check =
            some ({ conn := conn, pc := .stating i }, []) := by
          simp [step, Nat.not_le.mpr hi, State.goto]
        have hstating := hrun.trans (oneByOne_loop (fun _ => rfl) rfl hchecked past)
        rw [List.append_nil] at hstating
        -- nothing has happened to the file so far
        have hfile : files[i]? = some files[i] := List.getElem?_eq_getElem hi
        obtain ⟨hplaced, hlives⟩ := lives_run hkeys hconn (interleaved_of_oneByOne hstating)
        rcases (hlives.life i _ hfile).of_stating hplaced rfl with ⟨hnone, hpast⟩ | hfailed
        · have hrow : rowOf conn (u.keyOf files[i]) = rowOf conn₀ (u.keyOf files[i]) := by
            have hlookup := hlives.rows i _ hfile
            rw [hnone] at hlookup
            rw [rowOf, hlookup]
            rfl
          obtain ⟨gs, hfate⟩ := hfates i _ hfile
          obtain ⟨conn', past', hnext⟩ := oneByOne_file hfile hrow hpast hfate
          exact ⟨_, conn', past', hstating.trans hnext⟩
        · cases hfailed
  obtain ⟨es, conn, past, hrun⟩ := htop files.length le_rfl
  have hchecked : u.step files pfx { conn := conn, pc := .top files.length } .check =
      some ({ conn := conn, pc := .joining }, []) := by
    simp [step, State.goto]
  have hjoined : u.step files pfx { conn := conn, pc := .joining } .join =
      some ({ conn := conn, pc := .returned true }, []) := by
    simp [step, State.goto]
  have hend := (hrun.trans (oneByOne_loop (fun _ => rfl) rfl hchecked past)).trans
    (oneByOne_loop (fun _ => rfl) rfl hjoined past)
  exact ⟨_, _, past, hend, rfl⟩

/-! ## Every job is finished -/

/-- `failed` stays set. -/
lemma failed_transition {a : Action} (ht : u.Transition files pfx s a fs s')
    (h : s.failed = true) : s'.failed = true := by
  cases ht with
  | move => simp [h]
  | lookupFailed => rfl
  | _ => exact h

/-- A process that has ended makes no step. -/
lemma ended_transition {a : Action} (ht : u.Transition files pfx s a fs s')
    (h : s.pc = .exited ∨ s.pc = .crashed) : s'.pc = .exited ∨ s'.pc = .crashed := by
  cases ht with
  | lost => exact Or.inr rfl
  | notCreated => exact Or.inl rfl
  | freed | move => exact h
  | _ => simp_all

/-- A thread that has only its slot to give back has stored its row, or has failed. -/
def FinishedStored (es : List Event) (s : State) : Prop :=
  ∀ n c, s.slots n = some (c, .finishing) → (∃ row, .row c row ∈ es) ∨ s.failed = true

lemma FinishedStored.transition {a : Action} (hdry : u.dryRun = false)
    (h : FinishedStored es s) (ht : u.Transition files pfx s a fs s') :
    FinishedStored (es ++ fs) s' := by
  have hold : ∀ {m d}, s.slots m = some (d, .finishing) →
      (∃ row, .row d row ∈ es ++ fs) ∨ s'.failed = true := by
    intro m d hm
    rcases h m d hm with ⟨row, hrow⟩ | hfailed
    · exact Or.inl ⟨row, List.mem_append_left _ hrow⟩
    · exact Or.inr (failed_transition ht hfailed)
  cases ht with
  | dispatched n c hpc hn hfree =>
      intro m d hm
      rcases State.setSlot_slots_cases hm with ⟨rfl, rfl, henter⟩ | ⟨-, hm⟩
      · rcases u.enter_cases d with ⟨h, -⟩ | ⟨-, h⟩ | ⟨h, -⟩
        · cases henter.trans h
        · cases hdry.symm.trans h
        · cases henter.trans h
      · exact hold hm
  | move n c v v' wa fs conn flag hrun hslot hmove =>
      intro m d hm
      rcases State.setSlot_slots_cases hm with ⟨rfl, rfl, hv'⟩ | ⟨-, hm⟩
      · subst hv'
        generalize hw : Worker.finishing = v' at hmove
        cases hmove with
        | stored md5 fails => exact Or.inl ⟨_, List.mem_append_right _ List.mem_cons_self⟩
        | flagged => exact Or.inr (by simp)
        | sameDry hd => rw [hdry] at hd; cases hd
        | differs =>
            rw [startUpload_eq hdry] at hw
            cases hw
        | put | notPut =>
            exact absurd hw.symm (afterUpload_ne_finishing _)
        | _ => cases hw
      · exact hold hm
  | freed n c hrun hslot => exact fun m d hm => hold (State.markFree_slots hm).2
  | _ => exact fun m d hm => hold hm

/-- A job that was dispatched is in its slot, or has stored its row, if nothing has failed. -/
lemma dispatched_run {ω : Type} {env : Environment ω Action Event} {x y z : ω} {s₁ : State}
    (hdry : u.dryRun = false) (h₁ : Run (u.step files pfx) env { conn := conn₀ } x es s₁ y)
    (hslot : s₁.slots n = some (c, v)) (h₂ : Run (u.step files pfx) env s₁ y fs s z) :
    (∃ m v', s.slots m = some (c, v')) ∨ (∃ row, .row c row ∈ es ++ fs) ∨ s.failed = true ∨
      s.pc = .exited ∨ s.pc = .crashed := by
  have hstored : FinishedStored es s₁ := by
    refine h₁.invariant (I := fun es s _ => FinishedStored es s) (fun m d hm => by cases hm) ?_
    intro es t x a fs t' y hI hs _
    exact hI.transition hdry (step_transition hs)
  have hall : FinishedStored (es ++ fs) s ∧ ((∃ m v', s.slots m = some (c, v')) ∨
      (∃ row, .row c row ∈ es ++ fs) ∨ s.failed = true ∨ s.pc = .exited ∨ s.pc = .crashed) := by
    refine h₂.invariant (I := fun fs s _ => FinishedStored (es ++ fs) s ∧
      ((∃ m v', s.slots m = some (c, v')) ∨ (∃ row, .row c row ∈ es ++ fs) ∨ s.failed = true ∨
        s.pc = .exited ∨ s.pc = .crashed)) ⟨by simpa using hstored, Or.inl ⟨n, v, hslot⟩⟩ ?_
    rintro fs t x a gs t' y ⟨hfinished, hI⟩ hs -
    have ht := step_transition hs
    rw [← List.append_assoc]
    refine ⟨hfinished.transition hdry ht, ?_⟩
    rcases hI with ⟨m, v', hm⟩ | ⟨row, hrow⟩ | hfailed | hended
    · cases ht with
      | dispatched k d hpc hk hfree =>
          refine Or.inl ⟨m, v', ?_⟩
          have hmk : m ≠ k := by
            rintro rfl
            rw [hfree] at hm
            cases hm
          rw [State.goto_slots, State.setSlot_slots_of_ne hmk, hm]
      | move k d v₁ v₂ wa gs conn flag hrun hk hmove =>
          by_cases hmk : m = k
          · subst hmk
            rw [hm] at hk
            cases hk
            exact Or.inl ⟨m, v₂, State.setSlot_slots_self m c v₂⟩
          · exact Or.inl ⟨m, v', (State.setSlot_slots_of_ne hmk d v₂).trans hm⟩
      | freed k d hrun hk =>
          by_cases hmk : m = k
          · subst hmk
            rw [hm] at hk
            cases hk
            rcases hfinished m c hm with ⟨row, hrow⟩ | hfailed
            · exact Or.inr (Or.inl ⟨row, List.mem_append_left _ hrow⟩)
            · exact Or.inr (Or.inr (Or.inl hfailed))
          · exact Or.inl ⟨m, v', (State.markFree_slots_of_ne hmk).trans hm⟩
      | _ => exact Or.inl ⟨m, v', hm⟩
    · exact Or.inr (Or.inl ⟨row, List.mem_append_left _ hrow⟩)
    · refine Or.inr (Or.inr (Or.inl ?_))
      exact failed_transition ht hfailed
    · exact Or.inr (Or.inr (Or.inr (ended_transition ht hended)))
  exact hall.2

/-- A job that is about to raise `failed` raises it before its slot is free. -/
lemma failing_run {ω : Type} {env : Environment ω Action Event} {y z : ω} {s₁ : State}
    (hslot : s₁.slots n = some (c, .failing)) (h : Run (u.step files pfx) env s₁ y fs s z) :
    s.slots n = some (c, .failing) ∨ s.failed = true := by
  refine h.invariant (I := fun _ s _ => s.slots n = some (c, .failing) ∨ s.failed = true)
    (Or.inl hslot) ?_
  rintro fs t x a gs t' y (hn | hfailed) hs -
  · have ht := step_transition hs
    cases ht with
    | dispatched k d hpc hk hfree =>
        left
        have hnk : n ≠ k := by
          rintro rfl
          rw [hfree] at hn
          cases hn
        rw [State.goto_slots, State.setSlot_slots_of_ne hnk, hn]
    | move k d v₁ v₂ wa gs conn flag hrun hk hmove =>
        by_cases hnk : n = k
        · subst hnk
          rw [hn] at hk
          cases hk
          cases hmove
          exact Or.inr (by simp)
        · exact Or.inl ((State.setSlot_slots_of_ne hnk d v₂).trans hn)
    | freed k d hrun hk =>
        have hnk : n ≠ k := by
          rintro rfl
          rw [hn] at hk
          cases hk
        exact Or.inl ((State.markFree_slots_of_ne hnk).trans hn)
    | _ => exact Or.inl hn
  · exact Or.inr (failed_transition (step_transition hs) hfailed)

/-! ## Requests, and the refinement -/

/-- What `updateMeta` and `uploadFile` send. -/
inductive RequestKind
  | copy
  | put
  deriving DecidableEq, Repr

/-- The key and the kind of the request that the event shows. -/
def Event.requestKind : Event → Option (Bytes × RequestKind)
  | .copy c _ _ => some (c.path, .copy)
  | .put c _ _ => some (c.path, .put)
  | .stat _ _ _ | .read _ _ | .row _ _ => none

/-- `uploadFiles` at its start, with nothing sent so far. -/
abbrev started (table : Files) : State × Past := ({ conn := { committed := table } }, fun _ => [])

/-- **Parallel uploads refine uploads one after another.**  When no job fails, an interleaving
returns success with the table, and has sent the requests, of every run through the files one by
one, and there is such a run.  When it returns success, each job that ever held a slot has not
failed and, unless the run is dry, has stored its row; and no slot is taken. -/
theorem interleaved_refines_oneByOne {table : Files} {success : Bool}
    (hnodup : files.paths.Nodup) (hrooted : files.Rooted)
    (h : Run (u.interleaved w files pfx) anything (started table) () es (s, past) ())
    (hpc : s.pc = .returned success) :
    (s.failed = false → success = true ∧
      (∃ fs s' past', Run (u.oneByOne w files pfx) anything (started table) () fs (s', past') () ∧
        s'.pc = .returned true) ∧
      ∀ fs s' past',
        Run (u.oneByOne w files pfx) anything (started table) () fs (s', past') () →
        s'.pc = .returned true →
        (∀ key, s.conn.committed.lookup key = s'.conn.committed.lookup key) ∧
        ∀ r, r ∈ es.filterMap Event.requestKind ↔ r ∈ fs.filterMap Event.requestKind) ∧
    (success = true → s.failed = false ∧ (∀ n, s.slots n = none) ∧
      ∀ fs gs t past₁,
        Run (u.interleaved w files pfx) anything (started table) () fs (t, past₁) () →
        Run (u.interleaved w files pfx) anything (t, past₁) () gs (s, past) () →
        ∀ n c v, t.slots n = some (c, v) →
          v ≠ .failing ∧ (u.dryRun = false → ∃ row, .row c row ∈ fs ++ gs)) := by
  have hkeys : KeysDistinct u files := keysDistinct hnodup hrooted
  have hconn : ({ committed := table } : Db).Settled := rfl
  obtain ⟨hplaced, hlives⟩ := lives_run hkeys hconn h
  obtain ⟨hsuccess, hslots⟩ := hplaced.returned success hpc
  refine ⟨?_, ?_⟩
  · intro hfailed
    have htrue : success = true := by simpa [hfailed] using hsuccess
    rw [htrue] at hpc
    refine ⟨htrue, ?_, ?_⟩
    · exact exists_oneByOne hkeys hconn fun i file hfile =>
        ⟨_, hlives.fate hplaced hpc hfile⟩
    · intro fs s' past' h' hpc'
      obtain ⟨hevents, htable⟩ :=
        same_ends hkeys hconn h hpc (interleaved_of_oneByOne h') hpc'
      refine ⟨htable, fun r => ?_⟩
      simp only [List.mem_filterMap, hevents]
  · intro htrue
    have hfailed : s.failed = false := by simpa [htrue] using hsuccess.symm
    refine ⟨hfailed, hslots, ?_⟩
    intro fs gs t past₁ h₁ h₂ n c v hslot
    have hstep₁ := step_of_interleaved h₁
    have hstep₂ := step_of_interleaved h₂
    refine ⟨?_, ?_⟩
    · rintro rfl
      rcases failing_run hslot hstep₂ with hn | hflag
      · simp [hslots n] at hn
      · simp [hfailed] at hflag
    · intro hdry
      rcases dispatched_run hdry hstep₁ hslot hstep₂ with ⟨m, v', hm⟩ | hrow | hflag | hended
      · simp [hslots m] at hm
      · exact hrow
      · simp [hfailed] at hflag
      · simp [hpc] at hended

/-- Two small files that the server accepts. -/
def sampleOracle : Oracle where
  lstat := fun _ => some (sampleStat 1000)
  md5 := fun _ => none
  attempt := fun _ _ _ => .performed sampleSystem sampleResponse

/-- Both files are dispatched before the first is sent, and the second is stored first. -/
def sampleChoices : List Choice :=
  let loop := Choice.loop noFaults
  [loop 0 true, loop 0 true, loop 0 true, loop 0 true, loop 1 true, loop 1 true, loop 1 true,
    loop 1 true, .thread 1 noFaults, .thread 0 noFaults, .thread 1 noFaults, .thread 1 noFaults,
    loop 0 true, .thread 0 noFaults, .thread 0 noFaults, loop 0 true]

theorem interleaved_refines_oneByOne_sample :
    ∃ es s past, Run ((sampleUploader []).interleaved sampleOracle
        [⟨ascii "/a", 3⟩, ⟨ascii "/b", 3⟩] (ascii "/home")) anything (started ∅) () es
        (s, past) () ∧
      es.filterMap Event.requestKind = [(ascii "b", .put), (ascii "a", .put)] ∧
      ∃ fs s' past', Run ((sampleUploader []).oneByOne sampleOracle
          [⟨ascii "/a", 3⟩, ⟨ascii "/b", 3⟩] (ascii "/home")) anything (started ∅) () fs
          (s', past') () ∧
        ∀ key, s.conn.committed.lookup key = s'.conn.committed.lookup key := by
  obtain ⟨es, ⟨s, past⟩, hrun, hpc, hfailed, hsent⟩ := run_of_exec
    ((sampleUploader []).interleaved sampleOracle [⟨ascii "/a", 3⟩, ⟨ascii "/b", 3⟩]
      (ascii "/home")) (started ∅) sampleChoices (fun _ _ => True)
    (fun es p => p.1.pc = .returned true ∧ p.1.failed = false ∧
      es.filterMap Event.requestKind = [(ascii "b", .put), (ascii "a", .put)]) (by decide)
  obtain ⟨-, ⟨fs, s', past', hrun', hpc'⟩, hsame⟩ :=
    (interleaved_refines_oneByOne (by decide) (by decide) hrun hpc).1 hfailed
  exact ⟨es, s, past, hrun, hsent, fs, s', past', hrun', (hsame fs s' past' hrun' hpc').1⟩

end Uploader

end Clarc
