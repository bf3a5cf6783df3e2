import Clarc.Upload.Ledger

/-!
# Upload runs over a tree that stays as it is

While nothing is written, every `lstat` of a run gives the answer of one function of the path.  The
fate of a file is then decided by the table at the start of the run and by that answer.

* `run_unchangedTree` — a single run states each file once, so **every run is one over a tree that
  stays as it is**;
* `row_after_success` — after a successful run the row of a file that is not skipped is the one
  that was up to date, or carries the file's mtime cut to 32 bits;
* `mem_after_success` — so the keys of the table are the old ones and those of the files that were
  not skipped.
-/

namespace Clarc

open Bytes Reactive Sqlite

namespace Uploader

/-- The event agrees with the tree. -/
def Event.Answered (lstat : Bytes → Option Stat) : Event → Prop
  | .stat _ path answer => answer = lstat path
  | .read _ _ | .copy _ _ _ | .put _ _ _ | .row _ _ => True

instance (lstat : Bytes → Option Stat) (e : Event) : Decidable (e.Answered lstat) :=
  match e with
  | .stat _ path answer => inferInstanceAs (Decidable (answer = lstat path))
  | .read _ _ | .copy _ _ _ | .put _ _ _ | .row _ _ => inferInstanceAs (Decidable True)

/-- The events of a step agree with the tree. -/
def Answered (lstat : Bytes → Option Stat) (_ : Action) (es : List Event) : Prop :=
  ∀ e ∈ es, e.Answered lstat

instance (lstat : Bytes → Option Stat) (a : Action) (es : List Event) :
    Decidable (Answered lstat a es) :=
  inferInstanceAs (Decidable (∀ e ∈ es, e.Answered lstat))

/-- The environment in which no file changes and everything else may happen. -/
def unchangedTree (lstat : Bytes → Option Stat) : Environment Unit Action Event :=
  always (Answered lstat)

/-- What `uploadFiles` has of a file that it does not skip. -/
def statOf (lstat : Bytes → Option Stat) (pfx : Bytes) (file : LocalFile) : Option Stat :=
  (lstat (pathOf pfx file)).filter fun fileInfo => fileInfo.size < MAX_S3_FILE_SIZE

/-- A connection as `FileListStorage` opens it. -/
def Opened (conn : Db) : Prop := conn.Settled ∧ conn.temporary = none

lemma opened_mk (t : Files) : Opened { committed := t } := by
  constructor <;> rfl

variable {u : Uploader} {files : LocalFileList} {pfx : Bytes} {lstat : Bytes → Option Stat}
  {conn₀ : Db} {es : List Event} {s : State}

/-- All events of a run agree with the tree. -/
lemma answered_run {s₀ : State} (h : Run (u.step files pfx) (unchangedTree lstat) s₀ () es s ()) :
    ∀ e ∈ es, e.Answered lstat := by
  refine h.invariant (I := fun es _ _ => ∀ e ∈ es, e.Answered lstat) (by simp) ?_
  intro es t x a fs t' y hI _ henv e he
  rcases List.mem_append.mp he with he | he
  · exact hI e he
  · exact henv e he

/-! ## One run -/

/-- How many files the loop has stated. -/
def Dispatcher.stated (count : ℕ) : Dispatcher → ℕ
  | .top i | .stating i => i
  | .looking i _ => i + 1
  | .sleeping c => c.index + 1
  | .joining | .returned _ | .exited | .crashed => count

/-- The files stated so far, each stated once. -/
structure StatedOnce (files : LocalFileList) (pfx : Bytes) (es : List Event) (s : State) :
    Prop where
  file : ∀ i path answer, .stat i path answer ∈ es →
    ∃ file, files[i]? = some file ∧ path = pathOf pfx file
  passed : ∀ i path answer, .stat i path answer ∈ es → i < s.pc.stated files.length
  once : ∀ i path path' answer answer', .stat i path answer ∈ es → .stat i path' answer' ∈ es →
    answer = answer'

variable {fs : List Event} {s' : State} {a : Action}

/-- A step that states nothing. -/
lemma StatedOnce.quiet (h : StatedOnce files pfx es s)
    (hfs : ∀ i path answer, .stat i path answer ∉ fs)
    (hpos : ∀ i < files.length, i < s.pc.stated files.length → i < s'.pc.stated files.length) :
    StatedOnce files pfx (es ++ fs) s' := by
  have hold : ∀ i path answer, .stat i path answer ∈ es ++ fs → .stat i path answer ∈ es := by
    intro i path answer hmem
    rcases List.mem_append.mp hmem with hmem | hmem
    · exact hmem
    · exact absurd hmem (hfs i path answer)
  refine ⟨?_, ?_, ?_⟩
  · exact fun i path answer hmem => h.file i path answer (hold i path answer hmem)
  · intro i path answer hmem
    obtain ⟨file, hfile, -⟩ := h.file i path answer (hold i path answer hmem)
    exact hpos i (List.getElem?_eq_some_iff.mp hfile).1
      (h.passed i path answer (hold i path answer hmem))
  · intro i path path' answer answer' hmem hmem'
    exact h.once i path path' answer answer' (hold _ _ _ hmem) (hold _ _ _ hmem')

/-- The next file is stated. -/
lemma StatedOnce.stat (h : StatedOnce files pfx es s) {i : ℕ} {file : LocalFile}
    {answer : Option Stat} (hpc : s.pc = .stating i) (hfile : files[i]? = some file)
    (hpc' : s'.pc.stated files.length = i + 1) :
    StatedOnce files pfx (es ++ [.stat i (pathOf pfx file) answer]) s' := by
  have hpassed : ∀ j path answer', .stat j path answer' ∈ es → j < i := by
    intro j path answer' hmem
    have hlt := h.passed j path answer' hmem
    rwa [hpc] at hlt
  have hcases : ∀ j path answer',
      .stat j path answer' ∈ es ++ [.stat i (pathOf pfx file) answer] →
        .stat j path answer' ∈ es ∨ (j = i ∧ path = pathOf pfx file ∧ answer' = answer) := by
    intro j path answer' hmem
    rcases List.mem_append.mp hmem with hmem | hmem
    · exact Or.inl hmem
    · cases List.mem_singleton.mp hmem
      exact Or.inr ⟨rfl, rfl, rfl⟩
  refine ⟨?_, ?_, ?_⟩
  · intro j path answer' hmem
    rcases hcases j path answer' hmem with hold | ⟨rfl, rfl, -⟩
    · exact h.file j path answer' hold
    · exact ⟨file, hfile, rfl⟩
  · intro j path answer' hmem
    rw [hpc']
    rcases hcases j path answer' hmem with hold | ⟨rfl, -⟩
    · exact Nat.lt_succ_of_lt (hpassed j path answer' hold)
    · exact Nat.lt_succ_self j
  · intro j path path' answer₁ answer₂ hmem hmem'
    rcases hcases j path answer₁ hmem with hold | ⟨rfl, -, rfl⟩ <;>
      rcases hcases _ path' answer₂ hmem' with hold' | ⟨heq, -, rfl⟩
    · exact h.once j path path' answer₁ answer₂ hold hold'
    · exact absurd (hpassed j path answer₁ hold) (heq ▸ lt_irrefl j)
    · exact absurd (hpassed j path' answer₂ hold') (lt_irrefl j)
    · rfl

lemma StatedOnce.transition (h : StatedOnce files pfx es s)
    (ht : u.Transition files pfx s a fs s') : StatedOnce files pfx (es ++ fs) s' := by
  cases ht with
  | skipped i file answer hpc hfile | stated i file fileInfo hpc hfile =>
      exact h.stat hpc hfile rfl
  | more i hpc | lookupFailed i _ _ _ hpc | upToDate i _ _ _ hpc | outdated i _ _ _ hpc
  | dispatched _ _ hpc =>
      refine h.quiet (by simp) fun j _ hj => ?_
      rw [hpc] at hj
      exact hj
  | done | joined | notCreated => exact h.quiet (by simp) fun j hj _ => hj
  | freed => exact h.quiet (by simp) fun j _ hj => hj
  | move n c v v' wa fs conn flag hrun hslot hmove =>
      refine h.quiet ?_ fun j _ hj => hj
      cases hmove <;> simp
  | lost n c v wa fs hrun hslot hlost =>
      refine h.quiet ?_ fun j hj _ => hj
      cases hlost <;> simp

/-- The answer that the run had for a path. -/
def answerTo (es : List Event) (path : Bytes) : Option Stat :=
  (es.findSome? fun e => match e with
    | .stat _ path' answer => if path' = path then some answer else none
    | .read _ _ | .copy _ _ _ | .put _ _ _ | .row _ _ => none).getD none

/-- **Every run is a run over a tree that stays as it is.** -/
theorem run_unchangedTree {ω : Type} {env : Environment ω Action Event} {x x' : ω}
    (hnodup : files.paths.Nodup) (hrooted : files.Rooted)
    (h : Run (u.step files pfx) env { conn := conn₀ } x es s x') :
    Run (u.step files pfx) (unchangedTree (answerTo es)) { conn := conn₀ } () es s () := by
  have hstated : StatedOnce files pfx es s := by
    refine h.invariant (I := fun es s _ => StatedOnce files pfx es s)
      ⟨by simp, by simp, by simp⟩ ?_
    intro es t y a fs t' y' hI hs _
    exact hI.transition (step_transition hs)
  refine h.of_events ?_
  rintro (⟨i, path, answer⟩ | _ | _ | _ | _) he <;> try trivial
  -- the answer that is found for the path is one for the same file
  obtain ⟨file, hfile, hpath⟩ := hstated.file i path answer he
  show answer = answerTo es path
  rcases hfound : es.findSome? fun e => match e with
    | .stat _ path' answer => if path' = path then some answer else none
    | .read _ _ | .copy _ _ _ | .put _ _ _ | .row _ _ => none with _ | answer'
  · have hnone := List.findSome?_eq_none_iff.mp hfound _ he
    simp at hnone
  · obtain ⟨e', he', hsome⟩ := List.exists_of_findSome?_eq_some hfound
    rcases e' with ⟨j, path', answer''⟩ | _ | _ | _ | _ <;> try cases hsome
    dsimp only at hsome
    split_ifs at hsome with hsame
    obtain rfl := Option.some.inj hsome
    subst hsame
    obtain ⟨file', hfile', hpath'⟩ := hstated.file j path' answer'' he'
    have htail : file.path.drop 1 = file'.path.drop 1 :=
      List.append_cancel_left (hpath.symm.trans hpath')
    have hkey : u.keyOf file = u.keyOf file' := congrArg u.remotePath htail
    obtain rfl := keysDistinct hnodup hrooted i j file file' hfile hfile' hkey
    rw [answerTo, hfound]
    exact hstated.once i path' path' answer answer'' he he'

section
variable (hnodup : files.paths.Nodup) (hrooted : files.Rooted) (hdry : u.dryRun = false)
  (hconn : conn₀.Settled)
  (h : Run (u.step files pfx) (unchangedTree lstat) { conn := conn₀ } () es s ())
include hnodup hrooted hdry hconn h

/-- **The row of a file after a successful run.** -/
theorem row_after_success (hpc : s.pc = .returned true) {file : LocalFile}
    (hfile : file ∈ files) :
    match statOf lstat pfx file with
    | none => s.conn.committed.lookup (u.keyOf file) = conn₀.committed.lookup (u.keyOf file)
    | some fileInfo =>
        (UpToDate conn₀ (u.keyOf file) fileInfo ∧
          s.conn.committed.lookup (u.keyOf file) = conn₀.committed.lookup (u.keyOf file)) ∨
        (¬ UpToDate conn₀ (u.keyOf file) fileInfo ∧ ∃ md5,
          s.conn.committed.lookup (u.keyOf file) = some ⟨md5, fileInfo.mtime32.toUInt64⟩) := by
  obtain ⟨hplaced, hledger⟩ := ledger_run hconn (keysDistinct hnodup hrooted) hdry h
  obtain ⟨i, hi⟩ := List.mem_iff_getElem?.mp hfile
  obtain ⟨answer, hstat, hcases⟩ := returned_account hplaced hledger hpc hi
  have hanswer : answer = lstat (pathOf pfx file) := answered_run h _ hstat
  rw [Connection.view_of_settled hledger.settled, Connection.view_of_settled hconn] at hcases
  rcases hcases with ⟨hskip, hrow⟩ | ⟨fileInfo, hsome, hsize, hrow⟩
  · have hnone : statOf lstat pfx file = none := by
      rw [statOf, ← hanswer, Option.filter_eq_none_iff]
      intro fileInfo hmem
      simpa using hskip fileInfo hmem
    simpa [hnone] using hrow
  · have hsome' : statOf lstat pfx file = some fileInfo := by
      rw [statOf, ← hanswer, hsome, Option.filter_some, if_pos (by simpa using hsize)]
    simpa [hsome'] using hrow

/-- A run leaves the connection as it was opened. -/
lemma opened_run (htemporary : conn₀.temporary = none) : Opened s.conn := by
  obtain ⟨-, hledger⟩ := ledger_run hconn (keysDistinct hnodup hrooted) hdry h
  exact ⟨hledger.settled, hledger.temporary.trans htemporary⟩

/-- **The keys after a successful run**: a file of the list has a row when it had one, or when the
run did not skip it. -/
theorem mem_after_success (hpc : s.pc = .returned true) {file : LocalFile}
    (hfile : file ∈ files) :
    u.keyOf file ∈ s.conn.committed ↔
      u.keyOf file ∈ conn₀.committed ∨ (statOf lstat pfx file).isSome := by
  have hrow := row_after_success hnodup hrooted hdry hconn h hpc hfile
  have hmem : ∀ t : Files, u.keyOf file ∈ t ↔ (t.lookup (u.keyOf file)).isSome := fun t =>
    AList.lookup_isSome.symm
  rw [hmem, hmem]
  rcases hstat : statOf lstat pfx file with _ | fileInfo
  · simp only [hstat] at hrow
    simp [hrow]
  · simp only [hstat] at hrow
    rcases hrow with ⟨hup, hrow⟩ | ⟨-, md5, hrow⟩
    · have hold : (conn₀.committed.lookup (u.keyOf file)).isSome := by
        rcases hlook : conn₀.committed.lookup (u.keyOf file) with _ | row
        · have hpos := hup.1
          rw [rowOf, Connection.view_of_settled hconn, hlook] at hpos
          simp at hpos
        · rfl
      simp [hrow, hold]
    · simp [hrow]

end

/-! ## One file, uploaded -/

/-- An uploader that stores below `destinationFolder`. -/
def sampleUploader (destinationFolder : Bytes) : Uploader where
  amazonCredentials := ⟨ascii "bucket", ascii "s3.amazonaws.com"⟩
  destinationFolder := some destinationFolder
  uploadThreads_pos := defaultThreads_pos
  uploadThreads_lt := defaultThreads_lt

/-- A small regular file. -/
def sampleStat (mtime : Int64) : Stat where
  mode := 0o100644
  size := 3
  mtime := mtime
  uid := 1000
  gid := 1000

/-- The file's owner. -/
def sampleSystem : System where
  user := some (ascii "user")
  group := some (ascii "users")

/-- A response that accepts a file. -/
def sampleResponse : Response where
  code := .ok
  responseCode := 200
  headers := ascii
    "HTTP/1.1 200 OK\r\nETag: \"900150983cd24fb0d6963f7d28e17f72\"\r\nServer: AmazonS3\r\n\r\n"

/-- One file `/a`, stated, looked up, uploaded and stored. -/
def sampleActions (mtime : Int64) : List Action :=
  [.check, .stat (some (sampleStat mtime)), .lookup noFaults, .dispatch 0 true,
    .worker 0 (.upload (.performed sampleSystem sampleResponse)), .worker 0 (.store noFaults),
    .worker 0 .markFree, .check, .join]

end Uploader

end Clarc
