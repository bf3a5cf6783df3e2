import Clarc.Core.Run
import Clarc.Storage.FileListStorage
import Clarc.Upload.UploadFile

/-!
# The upload run: `Uploader::uploadFiles` and its worker threads

`uploadFiles` walks the local list, decides for each file whether its row is up to date, and hands
every other file to a thread of its own.  The threads share the database connection and the flag
`failed` with the dispatching loop.  A `State` holds these, the slots of the pool with the thread in
each, and the place of the dispatcher; `step` is one step of one of them, and an `Action` says whose
turn it is and what the world answered.  So a list of actions is an interleaving.

Steps end where another thread could notice the difference: at a request, at a statement on the
connection, at a write to `failed`, at a change of a slot.  A thread takes any free slot (the code
takes the first); a pointer that is absent where the code uses it ends the process (`crashed`), as
a thread that cannot be created does (`exited`).

* `Transition` lists the steps, and `step_transition` says that there are no others.
-/

namespace Clarc

open Bytes Reactive

namespace Uploader

/-! ## State -/

/-- `Uploader::createRealLocalPath`. -/
def createRealLocalPath (pfx path : Bytes) : Bytes := pfx ++ ascii "/" ++ path

/-- `ThreadCommand`.  `index` is the place of its file in the list. -/
structure ThreadCommand where
  index : ℕ
  realLocalPath : Bytes
  path : Bytes
  contentType : Bytes
  fileInfo : Stat
  storedMd5 : Bytes
  shouldCheckMd5 : Bool
  deriving DecidableEq, Repr

/-- Where a thread stands in `runOverThread`. -/
inductive Worker
  | checking
  | updatingMeta
  | uploading (r : Retry)
  | storing (md5 : Bytes)
  | failing
  | finishing
  deriving DecidableEq, Repr

/-- Where the dispatching loop stands; `exited` and `crashed` are the ends of the process. -/
inductive Dispatcher
  | top (i : ℕ)
  | stating (i : ℕ)
  | looking (i : ℕ) (fileInfo : Stat)
  | sleeping (c : ThreadCommand)
  | joining
  | returned (success : Bool)
  | exited
  | crashed
  deriving DecidableEq, Repr

/-- The loop, or the wait after it, is still going on. -/
def Dispatcher.running : Dispatcher → Bool
  | .top _ | .stating _ | .looking _ _ | .sleeping _ | .joining => true
  | .returned _ | .exited | .crashed => false

/-- A run of `uploadFiles`. -/
structure State where
  conn : Db
  failed : Bool := false
  slots : ℕ → Option (ThreadCommand × Worker) := fun _ => none
  pc : Dispatcher := .top 0

/-- What the outside world sees of a run. -/
inductive Event
  | stat (index : ℕ) (realLocalPath : Bytes) (answer : Option Stat)
  | read (c : ThreadCommand) (md5 : Option Bytes)
  | copy (c : ThreadCommand) (request : Request) (response : Response)
  | put (c : ThreadCommand) (request : Request) (response : Response)
  | row (c : ThreadCommand) (row : Row)

/-- A step of a thread, with what it is told. -/
inductive WorkerAction
  | read (md5 : Option Bytes)
  | updateMeta (attempt : Attempt)
  | upload (attempt : Attempt)
  | store (fails : Faults)
  | fail
  | markFree

/-- A step of the run, with what it is told. -/
inductive Action
  | check
  | stat (answer : Option Stat)
  | lookup (fails : Faults)
  | dispatch (threadNumber : ℕ) (created : Bool)
  | join
  | worker (threadNumber : ℕ) (a : WorkerAction)

variable (u : Uploader)

/-- The remote key of a listed file. -/
def keyOf (file : LocalFile) : Bytes := u.remotePath (file.path.drop 1)

/-- Where a listed file is. -/
def pathOf (pfx : Bytes) (file : LocalFile) : Bytes :=
  createRealLocalPath pfx (file.path.drop 1)

/-- The job `uploadFiles` makes of a file once its row has been looked up. -/
def command (pfx : Bytes) (i : ℕ) (file : LocalFile) (fileInfo : Stat)
    (row : Bytes × UInt64) : ThreadCommand where
  index := i
  realLocalPath := pathOf pfx file
  path := u.keyOf file
  contentType := guessContentType (file.path.drop 1)
  fileInfo := fileInfo
  storedMd5 := row.1
  shouldCheckMd5 := 0 < row.2

/-! ## Steps -/

namespace State

variable (s : State)

/-- The thread in a slot moves on. -/
def setSlot (n : ℕ) (c : ThreadCommand) (w : Worker) : State :=
  { s with slots := Function.update s.slots n (some (c, w)) }

/-- `Threads::markFree`. -/
def markFree (n : ℕ) : State := { s with slots := Function.update s.slots n none }

/-- The dispatcher moves on. -/
def goto (pc : Dispatcher) : State := { s with pc := pc }

end State

/-- `runOverThread` where neither the md5 is to be checked nor is it the stored one. -/
def startUpload : Worker := if u.dryRun then .finishing else .uploading {}

/-- The beginning of `runOverThread`. -/
def enter (c : ThreadCommand) : Worker :=
  if !c.fileInfo.isSoftLink && c.shouldCheckMd5 then .checking else u.startUpload

/-- What a call sends: nothing, or one request and what came back; `none` when the process is lost
while the request is built. -/
def exchange (build : System → Option Request) : Attempt → Option (List (Request × Response))
  | .cannotOpen _ => some []
  | .authFailed system => (build system).map fun _ => []
  | .performed system response => (build system).map fun request => [(request, response)]

/-- `Uploader::updateMeta` once its request is sent, or signing has failed: whether it succeeded. -/
def updateMeta : Attempt → Option Bool
  | .cannotOpen _ => some false
  | .authFailed _ => some false
  | .performed _ response => response.go.map fun t => t.res = .ok

/-- What a turn of the upload loop leads to. -/
def afterUpload : RetryResult → Worker
  | .again r => .uploading r
  | .success httpStatusCode md5 =>
      match md5ToStore httpStatusCode md5 with
      | some m => .storing m
      | none => .failing
  | .failed => .failing

/-- A step of the thread `c` in slot `n`. -/
def workerStep (s : State) (n : ℕ) (c : ThreadCommand) :
    Worker → WorkerAction → Option (State × List Event)
  | .checking, .read none => some (s.goto .crashed, [.read c none])
  | .checking, .read (some md5) =>
      let w := if md5 = c.storedMd5 then if u.dryRun then .finishing else .updatingMeta
        else u.startUpload
      some (s.setSlot n c w, [.read c (some md5)])
  | .updatingMeta, .updateMeta attempt =>
      -- no file is opened for this request
      if attempt.unopened then none
      else
        match exchange (u.updateMetaRequest c.path c.contentType c.fileInfo) attempt with
        | none => some (s.goto .crashed, [])
        | some sent =>
            let es := sent.map fun p => Event.copy c p.1 p.2
            match updateMeta attempt with
            | none => some (s.goto .crashed, es)
            | some success =>
                some (s.setSlot n c (if success then .storing c.storedMd5 else .failing), es)
  | .uploading r, .upload attempt =>
      -- nor for the upload of a link
      if attempt.unopened && c.fileInfo.isSoftLink then none
      else
        match exchange (u.uploadFileRequest c.realLocalPath c.path r.url c.contentType c.fileInfo)
            attempt with
        | none => some (s.goto .crashed, [])
        | some sent =>
            let es := sent.map fun p => Event.put c p.1 p.2
            match r.nextWithin ERROR_RESULT_SIZE c.realLocalPath attempt with
            | none => some (s.goto .crashed, es)
            | some result => some (s.setSlot n c (afterUpload result), es)
  | .storing md5, .store fails =>
      match (FileListStorage.store fails c.path md5 c.fileInfo.mtime32.toUInt64).runOn s.conn with
      | (none, conn) => some ({ s with conn := conn }.setSlot n c .failing, [])
      | (some _, conn) =>
          some ({ s with conn := conn }.setSlot n c .finishing,
            [.row c ⟨md5.take 32, c.fileInfo.mtime32.toUInt64⟩])
  | .failing, .fail => some ({ s with failed := true }.setSlot n c .finishing, [])
  | .finishing, .markFree => some (s.markFree n, [])
  | _, _ => none

/-- A step of `uploadFiles(fileListStorage, files, prefix)`. -/
def step (files : LocalFileList) (pfx : Bytes) : Process State Action Event := fun s a =>
  match a, s.pc with
  | .check, .top i =>
      if s.failed ∨ files.length ≤ i then some (s.goto .joining, [])
      else some (s.goto (.stating i), [])
  | .stat answer, .stating i =>
      match files[i]? with
      | none => none
      | some file =>
          let es := [Event.stat i (pathOf pfx file) answer]
          match answer with
          | none => some (s.goto (.top (i + 1)), es)
          | some fileInfo =>
              if MAX_S3_FILE_SIZE ≤ fileInfo.size then some (s.goto (.top (i + 1)), es)
              else some (s.goto (.looking i fileInfo), es)
  | .lookup fails, .looking i fileInfo =>
      match files[i]? with
      | none => none
      | some file =>
          match (FileListStorage.lookup fails (u.keyOf file)).runOn s.conn with
          | (none, conn) =>
              some ({ s with conn := conn, failed := true }.goto (.top (i + 1)), [])
          | (some (md5, mtime), conn) =>
              if 0 < mtime ∧ mtime = fileInfo.mtime64 then
                some ({ s with conn := conn }.goto (.top (i + 1)), [])
              else
                some ({ s with conn := conn }.goto
                  (.sleeping (u.command pfx i file fileInfo (md5, mtime))), [])
  | .dispatch n created, .sleeping c =>
      if n < u.uploadThreads ∧ (s.slots n).isNone then
        if created then some ((s.setSlot n c (u.enter c)).goto (.top (c.index + 1)), [])
        else some (s.goto .exited, [])
      else none
  | .join, .joining =>
      if ∀ n < u.uploadThreads, (s.slots n).isNone then
        some (s.goto (.returned (!s.failed)), [])
      else none
  | .worker n a, pc =>
      if pc.running then
        match s.slots n with
        | none => none
        | some (c, w) => u.workerStep s n c w a
      else none
  | _, _ => none

/-! ## What a step can do -/

/-- The steps of a thread that keep its slot: the connection they leave, and whether they raise
`failed`. -/
inductive Move (conn : Db) (c : ThreadCommand) :
    Worker → WorkerAction → List Event → Worker → Db → Bool → Prop
  | same (h : u.dryRun = false) : Move conn c .checking (.read (some c.storedMd5))
      [.read c (some c.storedMd5)] .updatingMeta conn false
  | sameDry (h : u.dryRun = true) : Move conn c .checking (.read (some c.storedMd5))
      [.read c (some c.storedMd5)] .finishing conn false
  | differs (md5 : Bytes) (h : md5 ≠ c.storedMd5) : Move conn c .checking (.read (some md5))
      [.read c (some md5)] u.startUpload conn false
  | copied (system : System) (request : Request) (response : Response) (t : Transfer)
      (hreq : u.updateMetaRequest c.path c.contentType c.fileInfo system = some request)
      (hgo : response.go = some t) (hok : t.res = .ok) :
      Move conn c .updatingMeta (.updateMeta (.performed system response))
        [.copy c request response] (.storing c.storedMd5) conn false
  | notCopied (system : System) (request : Request) (response : Response) (t : Transfer)
      (hreq : u.updateMetaRequest c.path c.contentType c.fileInfo system = some request)
      (hgo : response.go = some t) (hok : t.res ≠ .ok) :
      Move conn c .updatingMeta (.updateMeta (.performed system response))
        [.copy c request response] .failing conn false
  | copyUnsigned (system : System) :
      Move conn c .updatingMeta (.updateMeta (.authFailed system)) [] .failing conn false
  | put (r : Retry) (system : System) (request : Request) (response : Response)
      (result : RetryResult)
      (hreq : u.uploadFileRequest c.realLocalPath c.path r.url c.contentType c.fileInfo system =
        some request)
      (hnext : r.nextWithin ERROR_RESULT_SIZE c.realLocalPath (.performed system response) =
        some result) :
      Move conn c (.uploading r) (.upload (.performed system response))
        [.put c request response] (afterUpload result) conn false
  | notPut (r : Retry) (attempt : Attempt) (result : RetryResult)
      (hsend : ∀ system response, attempt ≠ .performed system response)
      (hopen : ∀ strerror, attempt = .cannotOpen strerror → c.fileInfo.isSoftLink = false)
      (hnext : r.nextWithin ERROR_RESULT_SIZE c.realLocalPath attempt = some result) :
      Move conn c (.uploading r) (.upload attempt) [] (afterUpload result) conn false
  | stored (md5 : Bytes) (fails : Faults) : Move conn c (.storing md5) (.store fails)
      [.row c ⟨md5.take 32, c.fileInfo.mtime32.toUInt64⟩] .finishing
      (conn.update (AList.insert c.path ⟨md5.take 32, c.fileInfo.mtime32.toUInt64⟩)) false
  | notStored (md5 : Bytes) (fails : Faults)
      (h : ((FileListStorage.store fails c.path md5 c.fileInfo.mtime32.toUInt64).runOn conn).1 =
        none) :
      Move conn c (.storing md5) (.store fails) [] .failing conn false
  | flagged : Move conn c .failing .fail [] .finishing conn true

/-- The events of a thread that loses the process. -/
inductive Lost (c : ThreadCommand) : Worker → WorkerAction → List Event → Prop
  | read : Lost c .checking (.read none) [.read c none]
  | unsentCopy (attempt : Attempt) : Lost c .updatingMeta (.updateMeta attempt) []
  | copy (system : System) (request : Request) (response : Response) (h : response.go = none) :
      Lost c .updatingMeta (.updateMeta (.performed system response)) [.copy c request response]
  | unsentPut (r : Retry) (attempt : Attempt) : Lost c (.uploading r) (.upload attempt) []
  | put (r : Retry) (system : System) (request : Request) (response : Response)
      (h : r.nextWithin ERROR_RESULT_SIZE c.realLocalPath (.performed system response) = none) :
      Lost c (.uploading r) (.upload (.performed system response)) [.put c request response]

/-- The row of a key as `lookup` returns it. -/
def rowOf (conn : Db) (key : Bytes) : Bytes × UInt64 :=
  match conn.view.lookup key with
  | some row => (row.md5, row.mtime)
  | none => ([], 0)

/-- The test by which `uploadFiles` passes over a file. -/
def UpToDate (conn : Db) (key : Bytes) (fileInfo : Stat) : Prop :=
  0 < (rowOf conn key).2 ∧ (rowOf conn key).2 = fileInfo.mtime64

/-- The steps of a run. -/
inductive Transition (files : LocalFileList) (pfx : Bytes) (s : State) :
    Action → List Event → State → Prop
  | more (i : ℕ) (hpc : s.pc = .top i) (hfailed : s.failed = false) (hi : i < files.length) :
      Transition files pfx s .check [] (s.goto (.stating i))
  | done (i : ℕ) (hpc : s.pc = .top i) (h : s.failed = true ∨ files.length ≤ i) :
      Transition files pfx s .check [] (s.goto .joining)
  | skipped (i : ℕ) (file : LocalFile) (answer : Option Stat) (hpc : s.pc = .stating i)
      (hfile : files[i]? = some file)
      (h : ∀ fileInfo, answer = some fileInfo → MAX_S3_FILE_SIZE ≤ fileInfo.size) :
      Transition files pfx s (.stat answer)
        [.stat i (pathOf pfx file) answer] (s.goto (.top (i + 1)))
  | stated (i : ℕ) (file : LocalFile) (fileInfo : Stat) (hpc : s.pc = .stating i)
      (hfile : files[i]? = some file) (h : fileInfo.size < MAX_S3_FILE_SIZE) :
      Transition files pfx s (.stat (some fileInfo))
        [.stat i (pathOf pfx file) (some fileInfo)]
        (s.goto (.looking i fileInfo))
  | lookupFailed (i : ℕ) (fileInfo : Stat) (file : LocalFile) (fails : Faults)
      (hpc : s.pc = .looking i fileInfo) (hfile : files[i]? = some file)
      (h : ((FileListStorage.lookup fails (u.keyOf file)).runOn s.conn).1 =
        none) :
      Transition files pfx s (.lookup fails) [] { s with failed := true, pc := .top (i + 1) }
  | upToDate (i : ℕ) (fileInfo : Stat) (file : LocalFile) (fails : Faults)
      (hpc : s.pc = .looking i fileInfo) (hfile : files[i]? = some file)
      (h : UpToDate s.conn (u.keyOf file) fileInfo) :
      Transition files pfx s (.lookup fails) [] (s.goto (.top (i + 1)))
  | outdated (i : ℕ) (fileInfo : Stat) (file : LocalFile) (fails : Faults)
      (hpc : s.pc = .looking i fileInfo) (hfile : files[i]? = some file)
      (h : ¬ UpToDate s.conn (u.keyOf file) fileInfo) :
      Transition files pfx s (.lookup fails) [] (s.goto (.sleeping
        (u.command pfx i file fileInfo (rowOf s.conn (u.keyOf file)))))
  | dispatched (n : ℕ) (c : ThreadCommand) (hpc : s.pc = .sleeping c) (hn : n < u.uploadThreads)
      (hfree : s.slots n = none) :
      Transition files pfx s (.dispatch n true) []
        ((s.setSlot n c (u.enter c)).goto (.top (c.index + 1)))
  | notCreated (n : ℕ) (c : ThreadCommand) (hpc : s.pc = .sleeping c) :
      Transition files pfx s (.dispatch n false) [] (s.goto .exited)
  | joined (hpc : s.pc = .joining) (hfree : ∀ n < u.uploadThreads, s.slots n = none) :
      Transition files pfx s .join [] (s.goto (.returned (!s.failed)))
  | move (n : ℕ) (c : ThreadCommand) (w w' : Worker) (a : WorkerAction) (es : List Event)
      (conn : Db) (flag : Bool) (hrun : s.pc.running = true) (hslot : s.slots n = some (c, w))
      (hmove : u.Move s.conn c w a es w' conn flag) :
      Transition files pfx s (.worker n a) es
        ({ s with conn := conn, failed := s.failed || flag }.setSlot n c w')
  | freed (n : ℕ) (c : ThreadCommand) (hrun : s.pc.running = true)
      (hslot : s.slots n = some (c, .finishing)) :
      Transition files pfx s (.worker n .markFree) [] (s.markFree n)
  | lost (n : ℕ) (c : ThreadCommand) (w : Worker) (a : WorkerAction) (es : List Event)
      (hrun : s.pc.running = true) (hslot : s.slots n = some (c, w)) (h : Lost c w a es) :
      Transition files pfx s (.worker n a) es (s.goto .crashed)

variable {u} {files : LocalFileList} {pfx : Bytes} {s s' : State} {a : Action} {es : List Event}

/-- Outside a dry run a job uploads. -/
lemma startUpload_eq (hdry : u.dryRun = false) : u.startUpload = .uploading {} := by
  rw [startUpload, hdry]
  rfl

/-- A job begins with the md5 that is to be checked; without one a dry run is at its end, and
another run at the upload. -/
lemma enter_cases (u : Uploader) (c : ThreadCommand) :
    (u.enter c = .checking ∧ c.shouldCheckMd5 = true) ∨
      (u.enter c = .finishing ∧ u.dryRun = true) ∨
      (u.enter c = .uploading {} ∧ u.dryRun = false) := by
  unfold enter
  split_ifs with hcheck
  · rw [Bool.and_eq_true] at hcheck
    exact Or.inl ⟨rfl, hcheck.2⟩
  · rcases hdry : u.dryRun
    · exact Or.inr (Or.inr ⟨startUpload_eq hdry, rfl⟩)
    · exact Or.inr (Or.inl ⟨by rw [startUpload, if_pos hdry], rfl⟩)

/-- The upload loop leads to another turn, to a row or to failure. -/
lemma afterUpload_cases (result : RetryResult) :
    (∃ r, afterUpload result = .uploading r) ∨ (∃ md5, afterUpload result = .storing md5) ∨
      afterUpload result = .failing := by
  rcases result with r' | ⟨status, m⟩ | _
  · exact Or.inl ⟨r', rfl⟩
  · rcases hstore : md5ToStore status m with _ | m'
    · exact Or.inr (Or.inr (by simp [afterUpload, hstore]))
    · exact Or.inr (Or.inl ⟨m', by simp [afterUpload, hstore]⟩)
  · exact Or.inr (Or.inr rfl)

/-- It does not lead to the end of the job. -/
lemma afterUpload_ne_finishing (result : RetryResult) : afterUpload result ≠ .finishing := by
  rcases afterUpload_cases result with ⟨r, hr⟩ | ⟨md5, hmd5⟩ | hfailing
  · simp [hr]
  · simp [hmd5]
  · simp [hfailing]

/-- What a performed call sends. -/
lemma exchange_performed {build : System → Option Request} {system : System}
    {response : Response} {sent : List (Request × Response)}
    (h : exchange build (.performed system response) = some sent) :
    ∃ request, build system = some request ∧ sent = [(request, response)] := by
  simp only [exchange, Option.map_eq_some_iff] at h
  obtain ⟨request, hreq, rfl⟩ := h
  exact ⟨request, hreq, rfl⟩

/-- A step of a thread is a move, the release of its slot, or the end of the process. -/
lemma workerStep_cases {n : ℕ} {c : ThreadCommand} {w : Worker} {wa : WorkerAction}
    (h : u.workerStep s n c w wa = some (s', es)) :
    (∃ w' conn flag, u.Move s.conn c w wa es w' conn flag ∧
      s' = { s with conn := conn, failed := s.failed || flag }.setSlot n c w') ∨
    (w = .finishing ∧ wa = .markFree ∧ es = [] ∧ s' = s.markFree n) ∨
    (Lost c w wa es ∧ s' = s.goto .crashed) := by
  have hsame : ∀ w', s.setSlot n c w' =
      ({ s with conn := s.conn, failed := s.failed || false } : State).setSlot n c w' := by
    intro w'
    simp [State.setSlot]
  rcases w with _ | _ | r | md5 | _ | _ <;>
    rcases wa with answer | attempt | attempt | fails | _ | _
  case checking.read =>
    rcases answer with _ | m
    · simp only [workerStep, Option.some.injEq, Prod.mk.injEq] at h
      obtain ⟨rfl, rfl⟩ := h
      exact Or.inr (Or.inr ⟨.read, rfl⟩)
    · simp only [workerStep, Option.some.injEq, Prod.mk.injEq] at h
      obtain ⟨rfl, rfl⟩ := h
      refine Or.inl ⟨_, _, _, ?_, hsame _⟩
      split_ifs with hm hdry
      · exact hm ▸ .sameDry hdry
      · exact hm ▸ .same (by simpa using hdry)
      · exact .differs m hm
  case updatingMeta.updateMeta =>
    rcases attempt with strerror | system | ⟨system, response⟩
    · simp [workerStep, Attempt.unopened] at h
    · simp only [workerStep, Attempt.unopened, Bool.false_eq_true, if_false] at h
      rcases hex : exchange (u.updateMetaRequest c.path c.contentType c.fileInfo)
          (.authFailed system) with _ | sent
      · simp only [hex, Option.some.injEq, Prod.mk.injEq] at h
        obtain ⟨rfl, rfl⟩ := h
        exact Or.inr (Or.inr ⟨.unsentCopy _, rfl⟩)
      · obtain rfl : sent = [] := by
          simp only [exchange, Option.map_eq_some_iff] at hex
          obtain ⟨_, _, h⟩ := hex
          exact h.symm
        simp only [hex, updateMeta, Option.some.injEq, Prod.mk.injEq] at h
        obtain ⟨rfl, rfl⟩ := h
        exact Or.inl ⟨_, _, _, .copyUnsigned system, hsame _⟩
    · simp only [workerStep, Attempt.unopened, Bool.false_eq_true, if_false] at h
      rcases hex : exchange (u.updateMetaRequest c.path c.contentType c.fileInfo)
          (.performed system response) with _ | sent
      · simp only [hex, Option.some.injEq, Prod.mk.injEq] at h
        obtain ⟨rfl, rfl⟩ := h
        exact Or.inr (Or.inr ⟨.unsentCopy _, rfl⟩)
      · obtain ⟨request, hreq, rfl⟩ := exchange_performed hex
        rcases hgo : response.go with _ | t
        · simp only [hex, updateMeta, hgo, Option.map_none, Option.some.injEq,
            Prod.mk.injEq] at h
          obtain ⟨rfl, rfl⟩ := h
          exact Or.inr (Or.inr ⟨.copy system request response hgo, rfl⟩)
        · simp only [hex, updateMeta, hgo, Option.map_some, Option.some.injEq,
            Prod.mk.injEq] at h
          obtain ⟨rfl, rfl⟩ := h
          refine Or.inl ⟨_, _, _, ?_, hsame _⟩
          by_cases hok : t.res = .ok
          · simpa [hok] using Move.copied system request response t hreq hgo hok
          · simpa [hok] using Move.notCopied system request response t hreq hgo hok
  case uploading.upload =>
    simp only [workerStep] at h
    split_ifs at h with hlink
    have hopen : ∀ strerror, attempt = .cannotOpen strerror →
        c.fileInfo.isSoftLink = false := by
      rintro strerror rfl
      simpa [Attempt.unopened] using hlink
    rcases hex : exchange (u.uploadFileRequest c.realLocalPath c.path r.url c.contentType
        c.fileInfo) attempt with _ | sent
    · simp only [hex, Option.some.injEq, Prod.mk.injEq] at h
      obtain ⟨rfl, rfl⟩ := h
      exact Or.inr (Or.inr ⟨.unsentPut r attempt, rfl⟩)
    · rcases hnext : r.nextWithin ERROR_RESULT_SIZE c.realLocalPath attempt with _ | result
      · simp only [hex, hnext, Option.some.injEq, Prod.mk.injEq] at h
        obtain ⟨rfl, rfl⟩ := h
        rcases attempt with strerror | system | ⟨system, response⟩
        · simp only [exchange, Option.some.injEq] at hex
          exact Or.inr (Or.inr ⟨hex ▸ .unsentPut r _, rfl⟩)
        · simp only [exchange, Option.map_eq_some_iff] at hex
          obtain ⟨_, _, rfl⟩ := hex
          exact Or.inr (Or.inr ⟨.unsentPut r _, rfl⟩)
        · obtain ⟨request, _, rfl⟩ := exchange_performed hex
          exact Or.inr (Or.inr ⟨.put r system request response hnext, rfl⟩)
      · simp only [hex, hnext, Option.some.injEq, Prod.mk.injEq] at h
        obtain ⟨rfl, rfl⟩ := h
        refine Or.inl ⟨_, _, _, ?_, hsame _⟩
        rcases attempt with strerror | system | ⟨system, response⟩
        · simp only [exchange, Option.some.injEq] at hex
          exact hex ▸ .notPut r _ result (by simp) hopen hnext
        · simp only [exchange, Option.map_eq_some_iff] at hex
          obtain ⟨_, _, rfl⟩ := hex
          exact .notPut r _ result (by simp) hopen hnext
        · obtain ⟨request, hreq, rfl⟩ := exchange_performed hex
          exact .put r system request response result hreq hnext
  case storing.store =>
    rw [workerStep] at h
    rcases FileListStorage.store_cases fails c.path md5 c.fileInfo.mtime32.toUInt64 s.conn with
      hstore | hstore
    · simp only [hstore, Option.some.injEq, Prod.mk.injEq] at h
      obtain ⟨rfl, rfl⟩ := h
      exact Or.inl ⟨_, _, _, .notStored md5 fails (by rw [hstore]), hsame _⟩
    · simp only [hstore, Option.some.injEq, Prod.mk.injEq] at h
      obtain ⟨rfl, rfl⟩ := h
      refine Or.inl ⟨_, _, _, .stored md5 fails, ?_⟩
      simp
  case failing.fail =>
    simp only [workerStep, Option.some.injEq, Prod.mk.injEq] at h
    obtain ⟨rfl, rfl⟩ := h
    refine Or.inl ⟨_, _, _, .flagged, ?_⟩
    simp
  case finishing.markFree =>
    simp only [workerStep, Option.some.injEq, Prod.mk.injEq] at h
    obtain ⟨rfl, rfl⟩ := h
    exact Or.inr (Or.inl ⟨rfl, rfl, rfl, rfl⟩)
  all_goals simp [workerStep] at h

/-- A thread that only moves on does so in another state as well. -/
lemma setSlot_elsewhere (s t : State) (n m : ℕ) (c : ThreadCommand) (v v' : Worker)
    (es : List Event) :
    ∃ v'' flag f, (v ≠ .failing → flag = false) ∧ ((∀ md5, v ≠ .storing md5) → f = id) ∧
      s.setSlot n c v' =
        ({ s with conn := f s.conn, failed := s.failed || flag } : State).setSlot n c v'' ∧
      some (t.setSlot m c v', es) =
        some (({ t with conn := f t.conn, failed := t.failed || flag } : State).setSlot m c v'',
          es) := by
  have hsame : ∀ (r : State) (k : ℕ), r.setSlot k c v' =
      ({ r with conn := id r.conn, failed := r.failed || false } : State).setSlot k c v' := by
    intro r k
    simp [State.setSlot]
  exact ⟨v', false, id, fun _ => rfl, fun _ => rfl, hsame s n,
    congrArg some (Prod.ext (hsame t m) rfl)⟩

/-- **A turn of a thread does not depend on the rest of the run**, except for the store, which is
made on the connection. -/
lemma workerStep_elsewhere {n : ℕ} {c : ThreadCommand} {v : Worker} {wa : WorkerAction}
    (h : u.workerStep s n c v wa = some (s', es)) (t : State) (m : ℕ)
    (hconn : t.conn = s.conn ∨ ∀ md5, v ≠ .storing md5) :
    (s' = s.goto .crashed ∧ u.workerStep t m c v wa = some (t.goto .crashed, es)) ∨
    (v = .finishing ∧ s' = s.markFree n ∧ es = [] ∧
      u.workerStep t m c v wa = some (t.markFree m, es)) ∨
    ∃ v' flag f, (v ≠ .failing → flag = false) ∧ ((∀ md5, v ≠ .storing md5) → f = id) ∧
      s' = { s with conn := f s.conn, failed := s.failed || flag }.setSlot n c v' ∧
      u.workerStep t m c v wa =
        some ({ t with conn := f t.conn, failed := t.failed || flag }.setSlot m c v', es) := by
  rcases v with _ | _ | r | md5 | _ | _ <;>
    rcases wa with answer | attempt | attempt | fails | _ | _
  case checking.read =>
    rcases answer with _ | md5 <;> cases h
    · exact Or.inl ⟨rfl, rfl⟩
    · exact Or.inr (Or.inr (setSlot_elsewhere s t n m c _ _ _))
  case updatingMeta.updateMeta =>
    simp only [workerStep] at h ⊢
    split_ifs at h ⊢
    split at h
    · cases h
      exact Or.inl ⟨rfl, rfl⟩
    · split at h <;> cases h
      · exact Or.inl ⟨rfl, rfl⟩
      · exact Or.inr (Or.inr (setSlot_elsewhere s t n m c _ _ _))
  case uploading.upload =>
    simp only [workerStep] at h ⊢
    split_ifs at h ⊢
    split at h
    · cases h
      exact Or.inl ⟨rfl, rfl⟩
    · split at h <;> cases h
      · exact Or.inl ⟨rfl, rfl⟩
      · exact Or.inr (Or.inr (setSlot_elsewhere s t n m c _ _ _))
  case storing.store =>
    obtain hconn | hne := hconn
    · simp only [workerStep, hconn] at h ⊢
      split at h <;> cases h
      · exact Or.inr (Or.inr ⟨.failing, false, fun _ => _, fun _ => rfl,
          fun hne => absurd rfl (hne md5), by simp; rfl, by simp⟩)
      · exact Or.inr (Or.inr ⟨.finishing, false, fun _ => _, fun _ => rfl,
          fun hne => absurd rfl (hne md5), by simp; rfl, by simp⟩)
    · exact absurd rfl (hne md5)
  case failing.fail =>
    cases h
    refine Or.inr (Or.inr ⟨.finishing, true, id, fun h => absurd rfl h, fun _ => rfl, ?_, ?_⟩) <;>
      simp [workerStep]
  case finishing.markFree =>
    cases h
    exact Or.inr (Or.inl ⟨rfl, rfl, rfl, rfl⟩)
  all_goals cases h

/-- What a lookup returns, and that it changes nothing. -/
lemma lookup_eq (fails : Faults) (key : Bytes) (conn : Db) :
    (FileListStorage.lookup fails key).runOn conn = (none, conn) ∨
      (FileListStorage.lookup fails key).runOn conn = (some (rowOf conn key), conn) :=
  FileListStorage.lookup_cases fails key conn

lemma lookup_noFaults (key : Bytes) (conn : Db) :
    (FileListStorage.lookup noFaults key).runOn conn = (some (rowOf conn key), conn) := rfl

/-- **A step is one of the transitions.** -/
theorem step_transition (h : u.step files pfx s a = some (s', es)) :
    u.Transition files pfx s a es s' := by
  rcases a with _ | answer | fails | ⟨n, created⟩ | _ | ⟨n, wa⟩
  case worker =>
    simp only [step] at h
    split_ifs at h with hrun
    split at h
    · cases h
    next c w hslot =>
      rcases workerStep_cases h with ⟨w', conn, flag, hmove, rfl⟩ | ⟨rfl, rfl, rfl, rfl⟩ |
        ⟨hlost, rfl⟩
      · exact .move n c w w' wa es conn flag hrun hslot hmove
      · exact .freed n c hrun hslot
      · exact .lost n c w wa es hrun hslot hlost
  case check =>
    rcases hpc : s.pc with i | i | ⟨i, st⟩ | c | _ | b | _ | _ <;> simp only [step, hpc] at h
    case top =>
      split_ifs at h with hdone
      · cases h
        exact .done i hpc hdone
      · cases h
        push Not at hdone
        exact .more i hpc (by simpa using hdone.1) hdone.2
    all_goals cases h
  case stat =>
    rcases hpc : s.pc with i | i | ⟨i, st⟩ | c | _ | b | _ | _ <;> simp only [step, hpc] at h
    case stating =>
      split at h
      · cases h
      next file hfile =>
        rcases answer with _ | fileInfo
        · cases h
          exact .skipped i file none hpc hfile (by simp)
        · dsimp only at h
          split_ifs at h with hsize
          · cases h
            exact .skipped i file _ hpc hfile (by rintro _ ⟨⟩; exact hsize)
          · cases h
            exact .stated i file fileInfo hpc hfile (by omega)
    all_goals cases h
  case lookup =>
    rcases hpc : s.pc with i | i | ⟨i, fileInfo⟩ | c | _ | b | _ | _ <;>
      simp only [step, hpc] at h
    case looking =>
      split at h
      · cases h
      next file hfile =>
        rcases lookup_eq fails (u.keyOf file) s.conn with hlook | hlook
        · simp only [hlook] at h
          cases h
          exact .lookupFailed i fileInfo file fails hpc hfile (by rw [hlook])
        · simp only [hlook] at h
          split_ifs at h with hsame
          · cases h
            exact .upToDate i fileInfo file fails hpc hfile hsame
          · cases h
            exact .outdated i fileInfo file fails hpc hfile hsame
    all_goals cases h
  case dispatch =>
    rcases hpc : s.pc with i | i | ⟨i, fileInfo⟩ | c | _ | b | _ | _ <;>
      simp only [step, hpc] at h
    case sleeping =>
      split_ifs at h with hfree hcreated
      · cases h
        subst hcreated
        exact .dispatched n c hpc hfree.1 (by simpa using hfree.2)
      · cases h
        obtain rfl : created = false := by simpa using hcreated
        exact .notCreated n c hpc
    all_goals cases h
  case join =>
    rcases hpc : s.pc with i | i | ⟨i, fileInfo⟩ | c | _ | b | _ | _ <;>
      simp only [step, hpc] at h
    case joining =>
      split_ifs at h with hfree
      cases h
      exact .joined hpc (by simpa using hfree)
    all_goals cases h

end Uploader

end Clarc
