import Clarc.Core.Run
import Clarc.Delete.Bookkeeping
import Clarc.Listing.Access
import Clarc.Listing.RebuildDatabase
import Clarc.Listing.ResolveMtimes
import Clarc.Upload.Uploader

/-!
# The whole program: `main.cc`

A run of `main` from the check of the credentials on is a run of `Main.step`.  A step ends at most
at one request, one `COMMIT` or one answer of the file system, so the states of a run are the points
at which the process may be stopped.  The steps of `resolveMtimes` and `uploadFiles` are those of
their own processes.

A failed rebuild and a failed check of the credentials end the process with status 1, a thread that
cannot be created ends it with status 255 (`exit(-1)`); everything that comes after a failed upload
is left out, and nobody asks what `performDeletion` and `uploadDatabase` return.

* `step_transition` — **what a step can do**, said once: every invariant of a run goes through it;
* `resolve_run`, `upload_run` — the runs of `resolveMtimes` and `uploadFiles` are parts of a run;
* `rebuildDatabase_run` — **the steps that store the remote list are those of `rebuildDatabase`**,
  whatever fails;
* `performDeletion_run` — **the steps that delete are those of `performDeletion`**, whatever the
  server answers and whatever fails.
-/

namespace Clarc

open Bytes Reactive Sqlite RemoteListOfFiles

namespace Main

/-- The command line: what `parseCommandline` leaves in the settings of `main` and of the objects it
makes. -/
structure Options where
  uploader : Uploader
  re : Re2
  excludeFilePattern : FilePattern := []
  source : Bytes
  databasePath : Bytes
  databaseFilename : Bytes := ascii ".clarc.sqlite3"
  autoCreateBucket : Option Bytes := none
  performRebuild : Bool := false
  performUpload : Bool := true
  performDelete : Bool := false
  base64Md5 : Bytes → Bytes

namespace Options

variable (o : Options)

/-- The patterns the walk excludes, those of the database among them. -/
def excluded (path : Bytes) : Bool :=
  (o.excludeFilePattern.addDatabase o.re o.databaseFilename).matches o.re path

/-- The list of local files: `recurseIn("", source)`. -/
def localFileList (tree : Node) : Option LocalFileList := tree.recurseIn o.excluded [] []

/-- The settings of the `Deleter`. -/
def deleter : Deleter where
  amazonCredentials := o.uploader.amazonCredentials
  databaseFilename := o.databaseFilename
  dryRun := o.uploader.dryRun
  useSsl := o.uploader.useSsl
  base64Md5 := o.base64Md5

/-- `buildDatabaseFilePath`. -/
def databaseFilePath : Bytes := o.databasePath ++ ascii "/" ++ o.databaseFilename

/-- The key of the database: behind the destination folder, even an empty one. -/
def remoteDatabasePath : Bytes :=
  match o.uploader.destinationFolder with
  | some destinationFolder => destinationFolder ++ ascii "/" ++ o.databaseFilename
  | none => o.databaseFilename

/-- The PUT of `uploadDatabase`. -/
def databaseRequest (url : Option Bytes) (fileInfo : Stat) : System → Option Request :=
  o.uploader.uploadFileRequest o.databaseFilePath o.remoteDatabasePath url
    (ascii "application/octet-stream") fileInfo

end Options

/-! ## States -/

/-- Where `main` stands. -/
inductive Phase
  | checkingAuth
  | creatingBucket (url : Option Bytes)
  | opening
  | listing (l : Listing)
  | resolving (r : Resolve)
  | truncating (remote : List RemoteFile)
  | storing (remote : List RemoteFile) (bounds : List (ℕ × ℕ))
  | walking
  | uploading (files : LocalFileList) (t : Uploader.State)
  | calculating (files : LocalFileList)
  | deleting (batch : List Bytes) (rest : List (List Bytes))
  | storingDeleted (batch : List Bytes) (rest : List (List Bytes))
  | statingDatabase
  | uploadingDatabase (fileInfo : Stat) (r : Uploader.Retry)
  | exited (status : ℕ)
  | crashed

/-- A run of `main`: its connection to the database, and where it stands. -/
structure State where
  conn : Db
  phase : Phase

/-- The process begins, with what the files table has. -/
def start (o : Options) (table : Files) : State where
  conn := { committed := table }
  phase := if o.uploader.dryRun then .opening else .checkingAuth

/-- What the outside world sees of a run. -/
inductive Event
  | auth (request : Request) (response : Response)
  | create (request : Request) (response : Response)
  | list (request : Request) (response : Response)
  | resolve (e : HeadEvent)
  | upload (e : Uploader.Event)
  | post (batch : List Bytes) (request : Request) (response : Response)
  | database (request : Request) (response : Response)

/-- A step, with what it is told.  Without a response `prepare` has failed. -/
inductive Action
  | auth (response : Option Response)
  | create (response : Option Response)
  | openDatabase (opened : Bool)
  | list (response : Option Response)
  | resolve (a : ResolveAction)
  | truncate (fails : Faults)
  | store (fails : Faults)
  | walk
  | upload (a : Uploader.Action)
  | calculate (fails : Faults)
  | post (response : Option Response)
  | storeDeleted (fails : Faults)
  | stat (answer : Option Stat)
  | database (attempt : Uploader.Attempt)

variable (o : Options)

/-- After the rebuild, or without one. -/
def afterRebuild : Phase := if o.performUpload then .walking else .exited 0

/-- After the deletion, or without one. -/
def afterDelete : Phase := if o.uploader.dryRun then .exited 0 else .statingDatabase

/-- The next batch; a dry run builds the documents of all batches and sends none. -/
def nextBatch : List (List Bytes) → Phase
  | [] => afterDelete o
  | batch :: rest =>
      if o.uploader.dryRun then
        if (batch :: rest).all (fun b => (Deleter.batchXml b).isSome) then afterDelete o
        else .crashed
      else .deleting batch rest

/-- The next chunk of the remote list. -/
def nextChunk (remote : List RemoteFile) : List (ℕ × ℕ) → Phase
  | [] => afterRebuild o
  | bounds => .storing remote bounds

/-- What the end of an iteration of `downloadList` leads to. -/
def afterList : ListStep → Phase
  | .again l => .listing l
  | .done (.returned true files) => .resolving (.start files)
  | .done (.returned false _) => .exited 1
  | .done .crashed => .crashed

/-- What a step of `resolveMtimes` leads to. -/
def afterResolve (r : Resolve) : Phase :=
  match r.pc with
  | .returned true => if o.uploader.dryRun then afterRebuild o else .truncating r.files
  | .returned false => .exited 1
  | .exited => .exited 255
  | .crashed => .crashed
  | _ => .resolving r

/-- What a step of `uploadFiles` leads to. -/
def afterUpload (files : LocalFileList) (t : Uploader.State) : Phase :=
  match t.pc with
  | .returned true => if o.performDelete then .calculating files else afterDelete o
  | .returned false => .exited 0
  | .exited => .exited 255
  | .crashed => .crashed
  | _ => .uploading files t

/-- The event of a request, unless `prepare` has failed. -/
def sent (e : Response → Event) (response : Option Response) : List Event :=
  (response.map e).toList

lemma mem_sent {e : Response → Event} {response : Option Response} {e' : Event}
    (h : e' ∈ sent e response) : ∃ r, response = some r ∧ e' = e r := by
  rcases response with _ | r
  · cases h
  · exact ⟨r, rfl, List.mem_singleton.mp h⟩

/-! ## Steps -/

/-- A step of `main` on a local tree. -/
def step (tree : Node) : Process State Action Event := fun s a =>
  let u := o.uploader
  match a, s.phase with
  | .auth response, .checkingAuth =>
      let phase := match checkAuth response with
        | .crashed => .crashed
        | .success => .opening
        | .bucketDoesntExist =>
            if o.autoCreateBucket.isSome then .creatingBucket none else .exited 1
        | .failed => .exited 1
      some ({ s with phase := phase },
        sent (.auth (authRequest u.amazonCredentials u.useSsl)) response)
  | .create response, .creatingBucket url =>
      let phase := match createBucket response with
        | .crashed => .crashed
        | .again url => .creatingBucket (some url)
        | .returned success => if success then .opening else .exited 1
      some ({ s with phase := phase },
        sent (.create (createRequest u.amazonCredentials u.useSsl url
          (o.autoCreateBucket.getD []))) response)
  | .openDatabase opened, .opening =>
      let phase := if opened then
          if o.performRebuild then .listing {} else afterRebuild o
        else .exited 1
      some ({ s with phase := phase }, [])
  | .list response, .listing l =>
      some ({ s with phase := afterList (l.next response) },
        sent (.list (l.request u.amazonCredentials u.useSsl)) response)
  | .resolve a, .resolving r =>
      (resolveStep u.amazonCredentials u.useSsl r a).map fun p =>
        ({ s with phase := afterResolve o p.1 }, p.2.map .resolve)
  | .truncate fails, .truncating remote =>
      match (FileListStorage.truncate fails).runOn s.conn with
      | (none, conn) => some ({ conn := conn, phase := .exited 1 }, [])
      | (some _, conn) => some ({
          conn := conn
          phase := nextChunk o remote (FileListStorage.chunkBounds remote.length) }, [])
  | .store fails, .storing remote ((lo, hi) :: rest) =>
      match (FileListStorage.storeRemoteListOfFilesChunk fails remote lo hi).runOn s.conn with
      | (none, conn) => some ({ conn := conn, phase := .exited 1 }, [])
      | (some _, conn) => some ({ conn := conn, phase := nextChunk o remote rest }, [])
  | .walk, .walking =>
      match o.localFileList tree with
      | none => some ({ s with phase := .crashed }, [])
      | some files => some ({ s with phase := .uploading files { conn := s.conn } }, [])
  | .upload a, .uploading files t =>
      (u.step files o.source t a).map fun p =>
        ({ conn := p.1.conn, phase := afterUpload o files p.1 }, p.2.map .upload)
  | .calculate fails, .calculating files =>
      match (FileListStorage.calculateListOfFilesToDelete fails files).runOn s.conn with
      | (none, conn) => some ({ conn := conn, phase := .crashed }, [])
      | (some filesToDelete, conn) => some ({
          conn := conn
          phase := nextBatch o (o.deleter.batches [] filesToDelete) }, [])
  | .post response, .deleting batch rest =>
      match Deleter.batchXml batch with
      | none => some ({ s with phase := .crashed }, [])
      | some xml =>
          let phase := match Deleter.deleteBatch response with
            | none => .crashed
            | some true => .storingDeleted batch rest
            | some false => afterDelete o
          some ({ s with phase := phase }, sent (.post batch (o.deleter.postRequest xml)) response)
  | .storeDeleted fails, .storingDeleted batch rest =>
      some ({
        conn := ((FileListStorage.storeDeletedBatch fails batch).runOn s.conn).2
        phase := nextBatch o rest }, [])
  | .stat answer, .statingDatabase =>
      let phase := match answer with
        | none => .exited 0
        | some fileInfo => .uploadingDatabase fileInfo {}
      some ({ s with phase := phase }, [])
  | .database attempt, .uploadingDatabase fileInfo r =>
      if attempt.unopened && fileInfo.isSoftLink then none
      else
        match Uploader.exchange (o.databaseRequest r.url fileInfo) attempt with
        | none => some ({ s with phase := .crashed }, [])
        | some exchanged =>
            let phase := match r.next o.databaseFilePath attempt with
              | none => .crashed
              | some (.again r) => .uploadingDatabase fileInfo r
              | some _ => .exited 0
            some ({ s with phase := phase }, exchanged.map fun p => .database p.1 p.2)
  | _, _ => none

/-! ## What a step can do -/

/-- What the check of the credentials leads to. -/
def afterAuth (response : Option Response) : Phase :=
  match checkAuth response with
  | .crashed => .crashed
  | .success => .opening
  | .bucketDoesntExist =>
      if o.autoCreateBucket.isSome then .creatingBucket none else .exited 1
  | .failed => .exited 1

/-- What a request for a new bucket leads to. -/
def afterCreate (response : Option Response) : Phase :=
  match createBucket response with
  | .crashed => .crashed
  | .again url => .creatingBucket (some url)
  | .returned success => if success then .opening else .exited 1

/-- What the opening of the database leads to. -/
def afterOpen (opened : Bool) : Phase :=
  if opened then if o.performRebuild then .listing {} else afterRebuild o else .exited 1

/-- What the response to a batch leads to. -/
def afterPost (batch : List Bytes) (rest : List (List Bytes)) (response : Option Response) :
    Phase :=
  match Deleter.deleteBatch response with
  | none => .crashed
  | some true => .storingDeleted batch rest
  | some false => afterDelete o

/-- What the size of the database file leads to. -/
def afterStat (answer : Option Stat) : Phase :=
  match answer with
  | none => .exited 0
  | some fileInfo => .uploadingDatabase fileInfo {}

/-- What an attempt to upload the database leads to. -/
def afterDatabase (fileInfo : Stat) (result : Option Uploader.RetryResult) : Phase :=
  match result with
  | none => .crashed
  | some (.again r) => .uploadingDatabase fileInfo r
  | some _ => .exited 0

/-- The process holds nothing there besides its connection. -/
def Phase.Idle : Phase → Prop
  | .checkingAuth | .creatingBucket _ | .opening | .walking | .statingDatabase
  | .uploadingDatabase _ _ | .exited _ | .crashed => True
  | .listing _ | .resolving _ | .truncating _ | .storing _ _ | .uploading _ _ | .calculating _
  | .deleting _ _ | .storingDeleted _ _ => False

section
variable {o}

lemma afterRebuild_idle : (afterRebuild o).Idle := by
  unfold afterRebuild
  split_ifs <;> trivial

lemma afterDelete_idle : (afterDelete o).Idle := by
  unfold afterDelete
  split_ifs <;> trivial

lemma afterAuth_idle (response : Option Response) : (afterAuth o response).Idle := by
  unfold afterAuth
  split <;> try split_ifs
  all_goals trivial

lemma afterCreate_idle (response : Option Response) : (afterCreate response).Idle := by
  unfold afterCreate
  split <;> try split_ifs
  all_goals trivial

lemma afterStat_idle (answer : Option Stat) : (afterStat answer).Idle := by
  rcases answer with _ | fileInfo <;> trivial

lemma afterDatabase_idle (fileInfo : Stat) (result : Option Uploader.RetryResult) :
    (afterDatabase fileInfo result).Idle := by
  rcases result with _ | (_ | _ | _) <;> trivial

end

/-- The steps of a run. -/
inductive Transition (tree : Node) (s : State) : Action → State → List Event → Prop
  | auth (response : Option Response) (hphase : s.phase = .checkingAuth) :
      Transition tree s (.auth response) { s with phase := afterAuth o response }
        (sent (.auth (authRequest o.uploader.amazonCredentials o.uploader.useSsl)) response)
  | create (response : Option Response) (url : Option Bytes)
      (hphase : s.phase = .creatingBucket url) :
      Transition tree s (.create response) { s with phase := afterCreate response }
        (sent (.create (createRequest o.uploader.amazonCredentials o.uploader.useSsl url
          (o.autoCreateBucket.getD []))) response)
  | opened (opened : Bool) (hphase : s.phase = .opening) :
      Transition tree s (.openDatabase opened) { s with phase := afterOpen o opened } []
  | listed (response : Option Response) (l : Listing) (hphase : s.phase = .listing l) :
      Transition tree s (.list response) { s with phase := afterList (l.next response) }
        (sent (.list (l.request o.uploader.amazonCredentials o.uploader.useSsl)) response)
  | resolved (r r' : Resolve) (a : ResolveAction) (fs : List HeadEvent)
      (hphase : s.phase = .resolving r)
      (hstep : resolveStep o.uploader.amazonCredentials o.uploader.useSsl r a = some (r', fs)) :
      Transition tree s (.resolve a) { s with phase := afterResolve o r' } (fs.map .resolve)
  | truncateFailed (fails : Faults) (remote : List RemoteFile) (conn : Db)
      (hphase : s.phase = .truncating remote)
      (hrun : (FileListStorage.truncate fails).runOn s.conn = (none, conn)) :
      Transition tree s (.truncate fails) { conn := conn, phase := .exited 1 } []
  | truncated (fails : Faults) (remote : List RemoteFile) (conn : Db)
      (hphase : s.phase = .truncating remote)
      (hrun : (FileListStorage.truncate fails).runOn s.conn = (some (), conn)) :
      Transition tree s (.truncate fails)
        { conn := conn, phase := nextChunk o remote (FileListStorage.chunkBounds remote.length) } []
  | storeFailed (fails : Faults) (remote : List RemoteFile) (lo hi : ℕ) (rest : List (ℕ × ℕ))
      (conn : Db) (hphase : s.phase = .storing remote ((lo, hi) :: rest))
      (hrun : (FileListStorage.storeRemoteListOfFilesChunk fails remote lo hi).runOn s.conn =
        (none, conn)) :
      Transition tree s (.store fails) { conn := conn, phase := .exited 1 } []
  | stored (fails : Faults) (remote : List RemoteFile) (lo hi : ℕ) (rest : List (ℕ × ℕ))
      (conn : Db) (hphase : s.phase = .storing remote ((lo, hi) :: rest))
      (hrun : (FileListStorage.storeRemoteListOfFilesChunk fails remote lo hi).runOn s.conn =
        (some (), conn)) :
      Transition tree s (.store fails) { conn := conn, phase := nextChunk o remote rest } []
  | walkCrashed (hphase : s.phase = .walking) (hwalk : o.localFileList tree = none) :
      Transition tree s .walk { s with phase := .crashed } []
  | walked (files : LocalFileList) (hphase : s.phase = .walking)
      (hwalk : o.localFileList tree = some files) :
      Transition tree s .walk { s with phase := .uploading files { conn := s.conn } } []
  | uploaded (files : LocalFileList) (t t' : Uploader.State) (a : Uploader.Action)
      (fs : List Uploader.Event) (hphase : s.phase = .uploading files t)
      (hstep : o.uploader.step files o.source t a = some (t', fs)) :
      Transition tree s (.upload a) { conn := t'.conn, phase := afterUpload o files t' }
        (fs.map .upload)
  | calculateFailed (fails : Faults) (files : LocalFileList) (conn : Db)
      (hphase : s.phase = .calculating files)
      (hrun : (FileListStorage.calculateListOfFilesToDelete fails files).runOn s.conn =
        (none, conn)) :
      Transition tree s (.calculate fails) { conn := conn, phase := .crashed } []
  | calculated (fails : Faults) (files : LocalFileList) (filesToDelete : List Bytes) (conn : Db)
      (hphase : s.phase = .calculating files)
      (hrun : (FileListStorage.calculateListOfFilesToDelete fails files).runOn s.conn =
        (some filesToDelete, conn)) :
      Transition tree s (.calculate fails)
        { conn := conn, phase := nextBatch o (o.deleter.batches [] filesToDelete) } []
  | unposted (response : Option Response) (batch : List Bytes) (rest : List (List Bytes))
      (hphase : s.phase = .deleting batch rest) (hxml : Deleter.batchXml batch = none) :
      Transition tree s (.post response) { s with phase := .crashed } []
  | posted (response : Option Response) (batch : List Bytes) (rest : List (List Bytes))
      (xml : Bytes) (hphase : s.phase = .deleting batch rest)
      (hxml : Deleter.batchXml batch = some xml) :
      Transition tree s (.post response) { s with phase := afterPost o batch rest response }
        (sent (.post batch (o.deleter.postRequest xml)) response)
  | storedDeleted (fails : Faults) (batch : List Bytes) (rest : List (List Bytes))
      (hphase : s.phase = .storingDeleted batch rest) :
      Transition tree s (.storeDeleted fails)
        { conn := ((FileListStorage.storeDeletedBatch fails batch).runOn s.conn).2
          phase := nextBatch o rest } []
  | stated (answer : Option Stat) (hphase : s.phase = .statingDatabase) :
      Transition tree s (.stat answer) { s with phase := afterStat answer } []
  | databaseLost (attempt : Uploader.Attempt) (fileInfo : Stat) (r : Uploader.Retry)
      (hphase : s.phase = .uploadingDatabase fileInfo r)
      (hopens : (attempt.unopened && fileInfo.isSoftLink) = false)
      (hexchange : Uploader.exchange (o.databaseRequest r.url fileInfo) attempt = none) :
      Transition tree s (.database attempt) { s with phase := .crashed } []
  | databaseSent (attempt : Uploader.Attempt) (fileInfo : Stat) (r : Uploader.Retry)
      (exchanged : List (Request × Response))
      (hphase : s.phase = .uploadingDatabase fileInfo r)
      (hopens : (attempt.unopened && fileInfo.isSoftLink) = false)
      (hexchange : Uploader.exchange (o.databaseRequest r.url fileInfo) attempt =
        some exchanged) :
      Transition tree s (.database attempt)
        { s with phase := afterDatabase fileInfo (r.next o.databaseFilePath attempt) }
        (exchanged.map fun p => .database p.1 p.2)

variable {o} in
/-- **A step of `main` is one of these.** -/
theorem step_transition {tree : Node} {s s' : State} {a : Action} {es : List Event}
    (h : step o tree s a = some (s', es)) : Transition o tree s a s' es := by
  unfold step at h
  dsimp only at h
  split at h
  next response hphase =>
    cases h
    exact .auth response hphase
  next response url hphase =>
    cases h
    exact .create response url hphase
  next opened hphase =>
    cases h
    exact .opened opened hphase
  next response l hphase =>
    cases h
    exact .listed response l hphase
  next a r hphase =>
    obtain ⟨⟨r', fs⟩, hstep, heq⟩ := Option.map_eq_some_iff.mp h
    cases heq
    exact .resolved r r' a fs hphase hstep
  next fails remote hphase =>
    split at h
    next conn hrun =>
      cases h
      exact .truncateFailed fails remote conn hphase hrun
    next conn hrun =>
      cases h
      exact .truncated fails remote conn hphase hrun
  next fails remote lo hi rest hphase =>
    split at h
    next conn hrun =>
      cases h
      exact .storeFailed fails remote lo hi rest conn hphase hrun
    next conn hrun =>
      cases h
      exact .stored fails remote lo hi rest conn hphase hrun
  next hphase =>
    split at h
    next hwalk =>
      cases h
      exact .walkCrashed hphase hwalk
    next files hwalk =>
      cases h
      exact .walked files hphase hwalk
  next a files t hphase =>
    obtain ⟨⟨t', fs⟩, hstep, heq⟩ := Option.map_eq_some_iff.mp h
    cases heq
    exact .uploaded files t t' a fs hphase hstep
  next fails files hphase =>
    split at h
    next conn hrun =>
      cases h
      exact .calculateFailed fails files conn hphase hrun
    next filesToDelete conn hrun =>
      cases h
      exact .calculated fails files filesToDelete conn hphase hrun
  next response batch rest hphase =>
    split at h
    next hxml =>
      cases h
      exact .unposted response batch rest hphase hxml
    next xml hxml =>
      cases h
      exact .posted response batch rest xml hphase hxml
  next fails batch rest hphase =>
    cases h
    exact .storedDeleted fails batch rest hphase
  next answer hphase =>
    cases h
    exact .stated answer hphase
  next attempt fileInfo r hphase =>
    split_ifs at h with hopens
    have hopens' := Bool.not_eq_true _ ▸ hopens
    split at h
    next hexchange =>
      cases h
      exact .databaseLost attempt fileInfo r hphase hopens' hexchange
    next exchanged hexchange =>
      cases h
      exact .databaseSent attempt fileInfo r exchanged hphase hopens' hexchange
  · cases h

/-! ## The threads -/

section
variable {o} {tree : Node} {ok : Action → List Event → Prop} {conn : Db} {ω : Type} {w w' : ω}

/-- A run of `resolveMtimes` is a part of a run of `main`, which goes on where it ends. -/
lemma resolve_run {env : Environment ω ResolveAction HeadEvent} {r r' : Resolve}
    {fs : List HeadEvent}
    (h : Run (resolveStep o.uploader.amazonCredentials o.uploader.useSsl) env r w fs r' w')
    (hr : r.pc.running = true)
    (hok : ∀ a (fs : List HeadEvent), ok (.resolve a) (fs.map .resolve)) :
    Run (step o tree) (always ok) { conn := conn, phase := .resolving r } ()
      (fs.map .resolve) { conn := conn, phase := afterResolve o r' } () := by
  have hafter : ∀ r : Resolve, r.pc.running = true → afterResolve o r = .resolving r := by
    intro r hrun
    unfold afterResolve
    split <;> simp_all [ResolveDispatcher.running]
  induction h with
  | start =>
      rw [hafter r hr]
      exact .start
  | @move es t _ a fs u _ _ hs _ ih =>
      have hrun : t.pc.running = true := by
        by_contra hrun
        rcases hpc : t.pc with i | i | i | _ | success | _ | _ <;>
          simp [hpc, ResolveDispatcher.running] at hrun
        all_goals cases a <;> simp [resolveStep, hpc, ResolveDispatcher.running] at hs
      rw [hafter t hrun] at ih
      rw [List.map_append]
      have hallowed : always ok () (.resolve a) (fs.map .resolve) () := hok a fs
      exact ih.move (by simp [step, hs]) hallowed

/-- A run of `uploadFiles` is a part of a run of `main`, which goes on where it ends. -/
lemma upload_run {env : Environment ω Uploader.Action Uploader.Event} {files : LocalFileList}
    {t t' : Uploader.State} {fs : List Uploader.Event}
    (h : Run (o.uploader.step files o.source) env t w fs t' w') (ht : t.pc.running = true)
    (hok : ∀ a (fs : List Uploader.Event), ok (.upload a) (fs.map .upload)) :
    Run (step o tree) (always ok) { conn := t.conn, phase := .uploading files t } ()
      (fs.map .upload) { conn := t'.conn, phase := afterUpload o files t' } () := by
  have hafter : ∀ t : Uploader.State, t.pc.running = true →
      afterUpload o files t = .uploading files t := by
    intro t hrun
    unfold afterUpload
    split <;> simp_all [Uploader.Dispatcher.running]
  induction h with
  | start =>
      rw [hafter t ht]
      exact .start
  | @move es u _ a fs v _ _ hs _ ih =>
      have hrun : u.pc.running = true := by
        by_contra hrun
        rcases hpc : u.pc with i | i | ⟨i, st⟩ | c | _ | success | _ | _ <;>
          simp [hpc, Uploader.Dispatcher.running] at hrun
        all_goals cases a <;> simp [Uploader.step, hpc, Uploader.Dispatcher.running] at hs
      rw [hafter u hrun] at ih
      rw [List.map_append]
      have hallowed : always ok () (.upload a) (fs.map .upload) () := hok a fs
      exact ih.move (by simp [step, hs]) hallowed

end

/-! ## The rebuild -/

variable {o} {tree : Node} {remote : List RemoteFile} {conn : Db}

/-- The chunks are stored one step each. -/
lemma storeChunks_run (fails : ℕ → Faults) (bounds : List (ℕ × ℕ)) :
    (FileListStorage.storeChunks fails remote bounds).wp (fun r conn' =>
      Run (step o tree) anything { conn := conn, phase := nextChunk o remote bounds } () []
        { conn := conn', phase := if r.isSome then afterRebuild o else .exited 1 } ()) conn := by
  induction bounds generalizing conn with
  | nil => exact .start
  | cons bound rest ih =>
      obtain ⟨lo, hi⟩ := bound
      rw [FileListStorage.storeChunks, Script.wp_bind, Script.wp]
      rcases hchunk : (FileListStorage.storeRemoteListOfFilesChunk (fails lo) remote lo hi).runOn
        conn with ⟨_ | _, conn₁⟩
      · exact .one (a := .store (fails lo)) (by simp [step, nextChunk, hchunk]) trivial
      · have hstep : step o tree { conn := conn, phase := nextChunk o remote ((lo, hi) :: rest) }
            (.store (fails lo)) =
              some ({ conn := conn₁, phase := nextChunk o remote rest }, []) := by
          simp [step, nextChunk, hchunk]
        exact Script.wp_mono _ ih fun r conn' h => (Run.one hstep trivial).trans h

/-- **The steps that store the remote list are those of `rebuildDatabase`**: what they leave of the
connection is what the script leaves, and they end the process when it fails. -/
theorem rebuildDatabase_run (truncateFails : Faults) (storeFails : ℕ → Faults) :
    (rebuildDatabase false truncateFails storeFails true true remote).wp (fun r conn' =>
      Run (step o tree) anything { conn := conn, phase := .truncating remote } () []
        { conn := conn', phase := if r.isSome then afterRebuild o else .exited 1 } ()) conn := by
  rw [rebuildDatabase, if_neg (by decide), if_neg (by decide), if_neg (by decide),
    Script.wp_bind, Script.wp]
  rcases htruncate : (FileListStorage.truncate truncateFails).runOn conn with ⟨_ | _, conn₁⟩
  · exact .one (a := .truncate truncateFails) (by simp [step, htruncate]) trivial
  · have hstep : step o tree { conn := conn, phase := .truncating remote }
        (.truncate truncateFails) = some ({
          conn := conn₁
          phase := nextChunk o remote (FileListStorage.chunkBounds remote.length) }, []) := by
      simp [step, htruncate]
    exact Script.wp_mono _ (storeChunks_run storeFails _)
      fun r conn' h => (Run.one hstep trivial).trans h

/-! ## The deletion -/

/-- The state is the one that `performDeletion` leads to, from what it returns and leaves. -/
def LeadsTo (o : Options) : Option (Bool × Db) → State → Prop
  | none, s => s.phase = .crashed
  | some (_, conn), s => s = { conn := conn, phase := afterDelete o }

/-- The batches are posted one after another, and those accepted are stored in between. -/
lemma deleteBatches_run (hdry : o.uploader.dryRun = false)
    (xs : List (List Bytes × Deleter.Reply)) :
    ∃ es s, Run (step o tree) anything
        { conn := conn, phase := nextBatch o (xs.map Prod.fst) } () es s () ∧
      LeadsTo o (Deleter.deleteBatches xs conn) s := by
  induction xs generalizing conn with
  | nil => exact ⟨[], _, .start, rfl⟩
  | cons x rest ih =>
      obtain ⟨batch, reply⟩ := x
      have hphase : nextBatch o (((batch, reply) :: rest).map Prod.fst) =
          .deleting batch (rest.map Prod.fst) := by
        simp [nextBatch, hdry]
      rw [hphase, Deleter.deleteBatches]
      rcases hxml : Deleter.batchXml batch with _ | xml
      · refine ⟨[], { conn := conn, phase := .crashed }, ?_, rfl⟩
        exact .one (a := .post reply.response) (by simp only [step, hxml]) trivial
      let posted := sent (.post batch (o.deleter.postRequest xml)) reply.response
      rcases hreply : Deleter.deleteBatch reply.response with _ | _ | _
      · refine ⟨posted, { conn := conn, phase := .crashed }, ?_, rfl⟩
        exact .one (a := .post reply.response) (by simp only [step, hxml, hreply, posted]) trivial
      · refine ⟨posted, { conn := conn, phase := afterDelete o }, ?_, rfl⟩
        exact .one (a := .post reply.response) (by simp only [step, hxml, hreply, posted]) trivial
      · obtain ⟨es, s, hrun, hleads⟩ :=
          @ih ((FileListStorage.storeDeletedBatch reply.fails batch).runOn conn).2
        have hpost : Run (step o tree) anything
            { conn := conn, phase := .deleting batch (rest.map Prod.fst) } () posted
            { conn := conn, phase := .storingDeleted batch (rest.map Prod.fst) } () :=
          .one (a := .post reply.response) (by simp only [step, hxml, hreply, posted]) trivial
        have hstore : Run (step o tree) anything
            { conn := conn, phase := .storingDeleted batch (rest.map Prod.fst) } () []
            { conn := ((FileListStorage.storeDeletedBatch reply.fails batch).runOn conn).2
              phase := nextBatch o (rest.map Prod.fst) } () :=
          .one (a := .storeDeleted reply.fails) (by simp only [step]) trivial
        exact ⟨_, s, (hpost.trans hstore).trans hrun, hleads⟩

/-- **The steps that delete are those of `performDeletion`**, whatever the server answers and
whatever fails. -/
theorem performDeletion_run (filesToDelete : List Bytes) (replies : ℕ → Deleter.Reply) :
    ∃ es s, Run (step o tree) anything
        { conn := conn, phase := nextBatch o (o.deleter.batches [] filesToDelete) } () es s () ∧
      LeadsTo o (o.deleter.performDeletion filesToDelete replies conn) s := by
  have hdryRun : o.deleter.dryRun = o.uploader.dryRun := rfl
  rw [Deleter.performDeletion, hdryRun]
  split_ifs with hdry hxml
  · refine ⟨[], _, .start, ?_⟩
    rcases hbatches : o.deleter.batches [] filesToDelete with _ | ⟨batch, rest⟩
    · rfl
    · rw [hbatches] at hxml
      simp [LeadsTo, nextBatch, hdry, hxml]
  · refine ⟨[], _, .start, ?_⟩
    rcases hbatches : o.deleter.batches [] filesToDelete with _ | ⟨batch, rest⟩
    · simp [hbatches] at hxml
    · rw [hbatches] at hxml
      simp [LeadsTo, nextBatch, hdry, hxml]
  · rw [← Deleter.map_fst_exchanges replies]
    exact deleteBatches_run (by simpa using hdry) _

end Main

end Clarc
