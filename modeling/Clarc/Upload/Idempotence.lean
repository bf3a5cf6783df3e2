import Clarc.Upload.UnchangedTree

/-!
# A second run over the same tree

A file is passed over when the mtime in its row equals the mtime of the file, as 64-bit numbers, and
is not 0.  What a run writes there has been through a cast to 32 bits, so the second run passes over
the file exactly when that cast lost nothing (`mtime_kept_iff`): from the first second of 1970 to
the year 2106.  Outside of these years the file is uploaded again by every run.

`second_run_idle_iff` puts this together over a whole list.
-/

namespace Clarc

open Bytes Reactive Sqlite

namespace Uploader

variable {u : Uploader} {files : LocalFileList} {pfx : Bytes} {lstat : Bytes → Option Stat}
  {conn₀ : Db} {es : List Event} {s : State}

/-- The stored mtime counts as that of the file exactly when the file's mtime is positive and fits
32 bits. -/
lemma mtime_kept_iff (fileInfo : Stat) :
    (0 < fileInfo.mtime32.toUInt64 ∧ fileInfo.mtime32.toUInt64 = fileInfo.mtime64) ↔
      0 < fileInfo.mtime ∧ fileInfo.mtime < 4294967296 := by
  have hint : fileInfo.mtime.toInt = fileInfo.mtime64.toNat ∨
      (fileInfo.mtime.toInt = (fileInfo.mtime64.toNat : ℤ) - 2 ^ 64 ∧
        2 ^ 63 ≤ fileInfo.mtime64.toNat) := by
    have hcond : fileInfo.mtime.toInt = if 2 * fileInfo.mtime64.toNat < 2 ^ 64
        then (fileInfo.mtime64.toNat : ℤ) else (fileInfo.mtime64.toNat : ℤ) - (2 ^ 64 : ℕ) :=
      BitVec.toInt_eq_toNat_cond fileInfo.mtime.toBitVec
    split_ifs at hcond with h
    · exact Or.inl hcond
    · exact Or.inr ⟨hcond, by omega⟩
  have hcast : fileInfo.mtime32.toUInt64.toNat = fileInfo.mtime64.toNat % 2 ^ 32 := by
    simp [Stat.mtime32, Stat.mtime64]
  have hlt := fileInfo.mtime64.toNat_lt
  have hzero : (0 : Int64).toInt = 0 := by decide
  have hbound : (4294967296 : Int64).toInt = 4294967296 := by decide
  rw [Int64.lt_iff_toInt_lt, Int64.lt_iff_toInt_lt, UInt64.lt_iff_toNat_lt, ← UInt64.toNat_inj,
    hcast, hzero, hbound]
  simp only [UInt64.toNat_zero]
  omega

/-- The event is a request. -/
def Event.isRequest : Event → Prop
  | .copy _ _ _ | .put _ _ _ => True
  | .stat _ _ _ | .read _ _ | .row _ _ => False

instance (e : Event) : Decidable e.isRequest :=
  match e with
  | .copy _ _ _ | .put _ _ _ => inferInstanceAs (Decidable True)
  | .stat _ _ _ | .read _ _ | .row _ _ => inferInstanceAs (Decidable False)

/-- Every run from this table over this tree sends no request and changes no row. -/
def Idle (u : Uploader) (files : LocalFileList) (pfx : Bytes) (lstat : Bytes → Option Stat)
    (conn : Db) : Prop :=
  ∀ es s, Run (u.step files pfx) (unchangedTree lstat) { conn := conn } () es s () →
    (∀ e ∈ es, ¬ e.isRequest) ∧ s.conn.committed = conn.committed

/-- Every file of the list that is not skipped is up to date. -/
def AllUpToDate (u : Uploader) (files : LocalFileList) (pfx : Bytes)
    (lstat : Bytes → Option Stat) (conn : Db) : Prop :=
  ∀ file ∈ files, ∀ fileInfo, statOf lstat pfx file = some fileInfo →
    UpToDate conn (u.keyOf file) fileInfo

/-! ## Up to date is idle -/

/-- A run that has nothing to do: the loop is alone, and looks at files that are up to date. -/
structure Quiet (u : Uploader) (files : LocalFileList) (pfx : Bytes)
    (lstat : Bytes → Option Stat) (conn : Db) (es : List Event) (s : State) : Prop where
  conn : s.conn = conn
  slots : ∀ n, s.slots n = none
  requests : ∀ e ∈ es, ¬ e.isRequest
  sleeping : ∀ c, s.pc ≠ .sleeping c
  looking : ∀ i fileInfo file, s.pc = .looking i fileInfo → files[i]? = some file →
    statOf lstat pfx file = some fileInfo

lemma Quiet.transition {conn : Db} {fs : List Event} {s' : State} {a : Action}
    (hup : AllUpToDate u files pfx lstat conn) (h : Quiet u files pfx lstat conn es s)
    (ht : u.Transition files pfx s a fs s') (hans : Answered lstat a fs) :
    Quiet u files pfx lstat conn (es ++ fs) s' := by
  have hstep : ∀ {pc : Dispatcher} {failed : Bool}, (∀ e ∈ fs, ¬ e.isRequest) →
      (∀ c, pc ≠ .sleeping c) → (∀ i fileInfo file, pc = .looking i fileInfo →
        files[i]? = some file → statOf lstat pfx file = some fileInfo) →
      Quiet u files pfx lstat conn (es ++ fs) { s with failed := failed, pc := pc } := by
    intro pc failed hfs hsleeping hlooking
    refine ⟨h.conn, h.slots, ?_, hsleeping, hlooking⟩
    intro e he
    rcases List.mem_append.mp he with he | he
    · exact h.requests e he
    · exact hfs e he
  have hslot : ∀ {n : ℕ} {x : ThreadCommand × Worker}, s.slots n ≠ some x := by
    intro n x hx
    rw [h.slots n] at hx
    cases hx
  cases ht with
  | more i hpc hfailed hi => exact hstep (by simp) (by simp) (by simp)
  | done i hpc hend => exact hstep (by simp) (by simp) (by simp)
  | skipped i file answer hpc hfile hskip =>
      exact hstep (by simp [Event.isRequest]) (by simp) (by simp)
  | stated i file fileInfo hpc hfile hsize =>
      refine hstep (by simp [Event.isRequest]) (by simp) ?_
      rintro j st f ⟨⟩ hf
      obtain rfl := Option.some.inj (hfile.symm.trans hf)
      have hanswer : some fileInfo = lstat (pathOf pfx file) := hans _ List.mem_cons_self
      rw [statOf, ← hanswer, Option.filter_some, if_pos (by simpa using hsize)]
  | lookupFailed i fileInfo file fails hpc hfile hfails =>
      exact hstep (by simp) (by simp) (by simp)
  | upToDate i fileInfo file fails hpc hfile hsame =>
      exact hstep (by simp) (by simp) (by simp)
  | outdated i fileInfo file fails hpc hfile hrow =>
      have hstat := h.looking i fileInfo file hpc hfile
      exact absurd (h.conn ▸ hup file (List.mem_of_getElem? hfile) fileInfo hstat) hrow
  | dispatched n c hpc hn hfree => exact absurd hpc (h.sleeping c)
  | notCreated n c hpc => exact absurd hpc (h.sleeping c)
  | joined hpc hfree => exact hstep (by simp) (by simp) (by simp)
  | move n c w w' a fs conn flag hrun hs hmove => exact absurd hs hslot
  | freed n c hrun hs => exact absurd hs hslot
  | lost n c w a fs hrun hs hlost => exact absurd hs hslot

/-- **A run over a tree that is up to date does nothing.** -/
theorem idle_of_allUpToDate {conn : Db} (hup : AllUpToDate u files pfx lstat conn) :
    Idle u files pfx lstat conn := by
  intro es s h
  have hquiet : Quiet u files pfx lstat conn es s := by
    refine h.invariant (I := fun es s _ => Quiet u files pfx lstat conn es s) ?_ ?_
    · exact ⟨rfl, fun _ => rfl, by simp, by simp, by simp⟩
    · intro es t x a fs t' y hI hs henv
      exact hI.transition hup (step_transition hs) henv
  exact ⟨hquiet.requests, congrArg Connection.committed hquiet.conn⟩

/-! ## Idle is up to date -/

variable (lstat) in
/-- A step whose events agree with the tree. -/
lemma run_one {t : State} {a : Action} (h : u.step files pfx s a = some (t, es))
    (hans : ∀ e ∈ es, e.Answered lstat) :
    Run (u.step files pfx) (unchangedTree lstat) s () es t () :=
  Run.one h hans

variable (u pfx lstat) in
/-- The loop looks at file `i`, and goes on to its row when the file is not skipped. -/
lemma run_to_looking (conn : Db) {i : ℕ} {file : LocalFile} (hfile : files[i]? = some file) :
    Run (u.step files pfx) (unchangedTree lstat) { conn := conn, pc := .top i } ()
      [.stat i (pathOf pfx file) (lstat (pathOf pfx file))]
      (match statOf lstat pfx file with
        | none => { conn := conn, pc := .top (i + 1) }
        | some fileInfo => { conn := conn, pc := .looking i fileInfo }) () := by
  have hi := (List.getElem?_eq_some_iff.mp hfile).1
  have hcheck : u.step files pfx { conn := conn, pc := .top i } .check =
      some ({ conn := conn, pc := .stating i }, []) := by
    simp only [step, Bool.false_eq_true, false_or, if_neg (not_le.mpr hi), State.goto]
  have hstat : u.step files pfx { conn := conn, pc := .stating i }
      (.stat (lstat (pathOf pfx file))) =
        some (match statOf lstat pfx file with
          | none => { conn := conn, pc := .top (i + 1) }
          | some fileInfo => { conn := conn, pc := .looking i fileInfo },
          [.stat i (pathOf pfx file) (lstat (pathOf pfx file))]) := by
    simp only [step, hfile, statOf]
    rcases lstat (pathOf pfx file) with _ | fileInfo
    · rfl
    · by_cases hsize : MAX_S3_FILE_SIZE ≤ fileInfo.size
      · simp [hsize, State.goto, Option.filter_some, not_lt.mpr hsize]
      · simp [hsize, State.goto, Option.filter_some, not_le.mp hsize]
  exact (run_one lstat hcheck (by simp)).trans (run_one lstat hstat (by simp [Event.Answered]))

variable (u files pfx lstat) in
/-- Over files that are skipped or up to date, the loop can run on to any place. -/
lemma run_to_top (conn : Db) : ∀ i ≤ files.length,
    (∀ j < i, ∀ file, files[j]? = some file → ∀ fileInfo,
      statOf lstat pfx file = some fileInfo → UpToDate conn (u.keyOf file) fileInfo) →
    ∃ es, Run (u.step files pfx) (unchangedTree lstat) { conn := conn } () es
      { conn := conn, pc := .top i } ()
  | 0, _, _ => ⟨[], .start⟩
  | i + 1, hi, hup => by
      obtain ⟨es, hrun⟩ := run_to_top conn i (by omega) fun j hj => hup j (by omega)
      obtain ⟨file, hfile⟩ : ∃ file, files[i]? = some file :=
        ⟨_, List.getElem?_eq_getElem (show i < files.length by omega)⟩
      have hlook := run_to_looking u pfx lstat conn hfile
      rcases hstat : statOf lstat pfx file with _ | fileInfo
      · simp only [hstat] at hlook
        exact ⟨_, hrun.trans hlook⟩
      · simp only [hstat] at hlook
        have hsame : UpToDate conn _ fileInfo := hup i (by omega) _ hfile fileInfo hstat
        have hnext : u.step files pfx { conn := conn, pc := .looking i fileInfo }
            (.lookup noFaults) = some ({ conn := conn, pc := .top (i + 1) }, []) := by
          simp only [step, hfile, lookup_noFaults]
          split_ifs with h
          · rfl
          · exact absurd hsame h
        exact ⟨_, (hrun.trans hlook).trans (run_one lstat hnext (by simp))⟩

/-- What the account database and the link say in the run below. -/
def anyone : System where
  user := some []
  group := some []
  target := some []

lemma request_built (localPath remotePath : Bytes) (url : Option Bytes) (contentType : Bytes)
    (fileInfo : Stat) :
    ∃ request, u.uploadFileRequest localPath remotePath url contentType fileInfo anyone =
      some request := by
  unfold uploadFileRequest softLinkData anyone
  simp only [addUidAndGidHeaders]
  split_ifs <;> simp

variable (u) in
/-- A thread that has to send a request can send it. -/
lemma worker_sends (s : State) (n : ℕ) (c : ThreadCommand) {w : Worker}
    (hw : w = .updatingMeta ∨ ∃ r, w = .uploading r) :
    ∃ a t e, u.workerStep s n c w a = some (t, [e]) ∧ e.isRequest := by
  let response : Response := { code := .ok, responseCode := 200, headers := [] }
  rcases hw with rfl | ⟨r, rfl⟩
  · have hreq : ∃ request, u.updateMetaRequest c.path c.contentType c.fileInfo anyone =
        some request := ⟨_, rfl⟩
    obtain ⟨request, hreq⟩ := hreq
    refine ⟨.updateMeta (.performed anyone response), ?_⟩
    simp only [workerStep, Attempt.unopened, exchange, hreq, Option.map_some, Bool.false_eq_true,
      if_false]
    split
    · exact ⟨_, _, rfl, trivial⟩
    · exact ⟨_, _, rfl, trivial⟩
  · obtain ⟨request, hreq⟩ := request_built (u := u) c.realLocalPath c.path r.url c.contentType
      c.fileInfo
    refine ⟨.upload (.performed anyone response), ?_⟩
    simp only [workerStep, Attempt.unopened, exchange, hreq, Option.map_some, Bool.false_and,
      Bool.false_eq_true, if_false]
    split
    · exact ⟨_, _, rfl, trivial⟩
    · exact ⟨_, _, rfl, trivial⟩

variable (u files pfx lstat) in
/-- A thread that has to send a request sends it in some run. -/
lemma run_worker_sends (s : State) (n : ℕ) {c : ThreadCommand} {w : Worker}
    (hrun : s.pc.running = true) (hslot : s.slots n = some (c, w))
    (hw : w = .updatingMeta ∨ ∃ r, w = .uploading r) :
    ∃ es t, Run (u.step files pfx) (unchangedTree lstat) s () es t () ∧ ∃ e ∈ es, e.isRequest := by
  obtain ⟨a, t, e, hstep, he⟩ := worker_sends u s n c hw
  have hs : u.step files pfx s (.worker n a) = some (t, [e]) := by
    simp only [step, hrun, if_true, hslot, hstep]
  refine ⟨[e], t, run_one lstat hs ?_, e, List.mem_cons_self, he⟩
  intro e' he'
  obtain rfl := List.mem_singleton.mp he'
  cases e' <;> trivial

variable (u files pfx lstat) in
/-- A job that waits for a thread leads to a request in some run. -/
lemma run_to_request (conn : Db) (c : ThreadCommand) (hdry : u.dryRun = false) :
    ∃ es s, Run (u.step files pfx) (unchangedTree lstat)
      { conn := conn, pc := .sleeping c } () es s () ∧ ∃ e ∈ es, e.isRequest := by
  have hdispatch : u.step files pfx { conn := conn, pc := .sleeping c } (.dispatch 0 true) =
      some ((({ conn := conn, pc := .sleeping c } : State).setSlot 0 c (u.enter c)).goto
        (.top (c.index + 1)), []) := by
    simp [step, u.uploadThreads_pos]
  have hdispatched := run_one lstat hdispatch (by simp)
  obtain ⟨s, hs⟩ : ∃ s, s = (({ conn := conn, pc := .sleeping c } : State).setSlot 0 c
      (u.enter c)).goto (.top (c.index + 1)) := ⟨_, rfl⟩
  have hslot : s.slots 0 = some (c, u.enter c) := by
    rw [hs, State.goto_slots, State.setSlot_slots_self]
  have hrunning : s.pc.running = true := by
    rw [hs]
    rfl
  rw [← hs] at hdispatched
  by_cases hcheck : (!c.fileInfo.isSoftLink && c.shouldCheckMd5) = true
  -- the md5 is read first: let it be the stored one
  · have henter : u.enter c = .checking := by
      simp [enter, hcheck]
    have hread : u.step files pfx s (.worker 0 (.read (some c.storedMd5))) =
        some (s.setSlot 0 c .updatingMeta, [.read c (some c.storedMd5)]) := by
      simp [step, hrunning, hslot, henter, workerStep, hdry]
    obtain ⟨es, t, hrun, he⟩ := run_worker_sends u files pfx lstat (s.setSlot 0 c .updatingMeta) 0
      hrunning (State.setSlot_slots_self 0 c .updatingMeta) (Or.inl rfl)
    obtain ⟨e, he, hreq⟩ := he
    exact ⟨_, t, (hdispatched.trans (run_one lstat hread (by simp [Event.Answered]))).trans hrun, e,
      List.mem_append_right _ he, hreq⟩
  · have henter : u.enter c = .uploading {} := by
      simp [enter, hcheck, startUpload, hdry]
    obtain ⟨es, t, hrun, e, he, hreq⟩ := run_worker_sends u files pfx lstat s 0 hrunning hslot
      (Or.inr ⟨_, henter⟩)
    exact ⟨_, t, hdispatched.trans hrun, e, List.mem_append_right _ he, hreq⟩

/-- A table over which every run is idle is up to date. -/
theorem allUpToDate_of_idle {conn : Db} (hdry : u.dryRun = false)
    (hidle : Idle u files pfx lstat conn) : AllUpToDate u files pfx lstat conn := by
  by_contra hnot
  -- the first file that is neither skipped nor up to date is uploaded
  have hexists : ∃ i : ℕ, ∃ file fileInfo, files[i]? = some file ∧
      statOf lstat pfx file = some fileInfo ∧ ¬ UpToDate conn (u.keyOf file) fileInfo := by
    simp only [AllUpToDate, not_forall] at hnot
    obtain ⟨file, hfile, fileInfo, hstat, hold⟩ := hnot
    obtain ⟨i, hi⟩ := List.mem_iff_getElem?.mp hfile
    exact ⟨i, file, fileInfo, hi, hstat, hold⟩
  classical
  obtain ⟨file, fileInfo, hfile, hstat, hold⟩ := Nat.find_spec hexists
  have hbefore := fun j hj => Nat.find_min hexists (m := j) hj
  set i := Nat.find hexists
  have hi := (List.getElem?_eq_some_iff.mp hfile).1
  obtain ⟨es, htop⟩ := run_to_top u files pfx lstat conn i hi.le
    fun j hj f hf st hst => by
      by_contra hup
      exact hbefore j hj ⟨f, st, hf, hst, hup⟩
  have hlook := run_to_looking u pfx lstat conn hfile
  simp only [hstat] at hlook
  have hnext : u.step files pfx { conn := conn, pc := .looking i fileInfo } (.lookup noFaults) =
      some (({ conn := conn } : State).goto (.sleeping
        (u.command pfx i file fileInfo (rowOf conn (u.keyOf file)))), []) := by
    simp only [step, hfile, lookup_noFaults]
    split_ifs with h
    · exact absurd h hold
    · rfl
  obtain ⟨fs, t, hrun, e, he, hreq⟩ := run_to_request u files pfx lstat conn
    (u.command pfx i file fileInfo (rowOf conn (u.keyOf file))) hdry
  have hwhole := ((htop.trans hlook).trans (run_one lstat hnext (by simp))).trans hrun
  exact (hidle _ t hwhole).1 e (List.mem_append_right _ he) hreq

/-- **When a second run has nothing to do**: when every file that the first run did not skip has an
mtime that survives the cast to 32 bits and is not 0, or was up to date before the first run. -/
theorem second_run_idle_iff (hnodup : files.paths.Nodup) (hrooted : files.Rooted)
    (hdry : u.dryRun = false) (hconn : conn₀.Settled)
    (h : Run (u.step files pfx) (unchangedTree lstat) { conn := conn₀ } () es s ())
    (hpc : s.pc = .returned true) :
    Idle u files pfx lstat s.conn ↔
      ∀ file ∈ files, ∀ fileInfo, statOf lstat pfx file = some fileInfo →
        (0 < fileInfo.mtime ∧ fileInfo.mtime < 4294967296) ∨
          UpToDate conn₀ (u.keyOf file) fileInfo := by
  have hsettled : s.conn.Settled :=
    (ledger_run hconn (keysDistinct hnodup hrooted) hdry h).2.settled
  -- the row a file has now, and whether it is up to date
  have hfile : ∀ file ∈ files, ∀ fileInfo, statOf lstat pfx file = some fileInfo →
      (UpToDate s.conn (u.keyOf file) fileInfo ↔
        (0 < fileInfo.mtime ∧ fileInfo.mtime < 4294967296) ∨
          UpToDate conn₀ (u.keyOf file) fileInfo) := by
    intro file hfile fileInfo hstat
    have hrow := row_after_success hnodup hrooted hdry hconn h hpc hfile
    simp only [hstat] at hrow
    rcases hrow with ⟨hup, hrow⟩ | ⟨hold, md5, hrow⟩
    · have hsame : rowOf s.conn (u.keyOf file) = rowOf conn₀ (u.keyOf file) := by
        rw [rowOf, rowOf, Connection.view_of_settled hsettled, Connection.view_of_settled hconn,
          hrow]
      rw [UpToDate, hsame]
      exact ⟨fun _ => Or.inr hup, fun _ => hup⟩
    · have hsame : rowOf s.conn (u.keyOf file) = (md5, fileInfo.mtime32.toUInt64) := by
        rw [rowOf, Connection.view_of_settled hsettled, hrow]
      rw [UpToDate, hsame, mtime_kept_iff]
      exact ⟨Or.inl, fun h => h.resolve_right hold⟩
  constructor
  · intro hidle file hmem fileInfo hstat
    exact (hfile file hmem fileInfo hstat).mp (allUpToDate_of_idle hdry hidle file hmem _ hstat)
  · intro hcond
    refine idle_of_allUpToDate ?_
    intro file hmem fileInfo hstat
    exact (hfile file hmem fileInfo hstat).mpr (hcond file hmem fileInfo hstat)

theorem second_run_idle_iff_sample :
    ∃ es s, Run ((sampleUploader []).step [⟨ascii "/a", 3⟩] (ascii "/home"))
        (unchangedTree fun _ => some (sampleStat 1000)) { conn := { committed := ∅ } } () es s () ∧
      s.pc = .returned true ∧ Idle (sampleUploader []) [⟨ascii "/a", 3⟩] (ascii "/home")
        (fun _ => some (sampleStat 1000)) s.conn := by
  obtain ⟨es, s, hrun, hpc⟩ := run_of_exec
    ((sampleUploader []).step [⟨ascii "/a", 3⟩] (ascii "/home"))
    { conn := { committed := ∅ } } (sampleActions 1000)
    (Answered fun _ => some (sampleStat 1000)) (fun _ s => s.pc = .returned true)
    (by decide)
  refine ⟨es, s, hrun, hpc, (second_run_idle_iff (by decide) (by decide) rfl (opened_mk ∅).1 hrun
    hpc).mpr ?_⟩
  intro file _ fileInfo hstat
  obtain rfl : sampleStat 1000 = fileInfo := by
    simpa [statOf, Option.filter_some, sampleStat, MAX_S3_FILE_SIZE] using hstat
  left
  decide

/-- The same file, looked up, found unchanged by its md5 and copied onto itself. -/
def sampleAgain : List Action :=
  [.check, .stat (some (sampleStat (-1))), .lookup noFaults, .dispatch 0 true,
    .worker 0 (.read (some (ascii "900150983cd24fb0d6963f7d28e17f72"))),
    .worker 0 (.updateMeta (.performed sampleSystem sampleResponse))]

/-- A file of the last second before 1970 is uploaded by the second run too. -/
theorem second_run_uploads_again :
    ∃ es s, Run ((sampleUploader []).step [⟨ascii "/a", 3⟩] (ascii "/home"))
        (unchangedTree fun _ => some (sampleStat (-1))) { conn := { committed := ∅ } } () es s () ∧
      s.pc = .returned true ∧ ∃ es' s',
        Run ((sampleUploader []).step [⟨ascii "/a", 3⟩] (ascii "/home"))
          (unchangedTree fun _ => some (sampleStat (-1))) { conn := s.conn } () es' s' () ∧
        ∃ e ∈ es', e.isRequest := by
  obtain ⟨es, s, hrun, hpc, hagain⟩ := run_of_exec
    ((sampleUploader []).step [⟨ascii "/a", 3⟩] (ascii "/home"))
    { conn := { committed := ∅ } } (sampleActions (-1))
    (Answered fun _ => some (sampleStat (-1)))
    (fun _ s => s.pc = .returned true ∧
      (exec ((sampleUploader []).step [⟨ascii "/a", 3⟩] (ascii "/home")) { conn := s.conn }
        sampleAgain).any (fun r => decide (∃ e ∈ shown r.2, e.isRequest) &&
          r.2.all fun p => decide (Answered (fun _ => some (sampleStat (-1))) p.1 p.2)) = true)
    (by decide)
  obtain ⟨es', s', hrun', hreq⟩ := run_of_exec _ _ sampleAgain
    (Answered fun _ => some (sampleStat (-1))) (fun es _ => ∃ e ∈ es, e.isRequest) hagain
  exact ⟨es, s, hrun, hpc, es', s', hrun', hreq⟩

end Uploader

end Clarc
