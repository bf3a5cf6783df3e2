import Clarc.Main.CommandLine
import Clarc.Main.Deletions

/-!
# The database in the bucket

`uploadDatabase` stores the database under its name behind the destination folder — a folder that is
never absent, so that even an empty one puts a slash in front.  `performDeletion` passes over the
bare name.  The two are never the same, and a run with `--rebuild` and `--delete` finds the database
in the listing, not among the local files, and deletes it.

* `passesOver_remoteDatabasePath` — the deleter does not know the key of the database;
* `database_kept_iff` — **no run deletes the database exactly when the walk itself lists a file
  under its key**, or does not get as far as a list to delete, or the run is a dry one.
-/

namespace Clarc

open Bytes Reactive Sqlite RemoteListOfFiles

namespace Main

variable {o : Options} {tree : Node} {K : Bytes → Prop} {table : Files} {es : List Event}
  {s s' : State} {a : Action} {conn : Db} {files : LocalFileList}

/-! ## The key -/

/-- With a folder, even an empty one, the key of the database is none of the names that the deleter
passes over. -/
lemma passesOver_remoteDatabasePath {folder : Bytes}
    (hfolder : o.uploader.destinationFolder = some folder) :
    o.deleter.passesOver o.remoteDatabasePath = false := by
  have hkey : o.remoteDatabasePath = folder ++ ascii "/" ++ o.databaseFilename := by
    rw [Options.remoteDatabasePath, hfolder]
  have hslash : (ascii "/").count 47 = 1 := by decide
  have hjournal : (ascii "-journal").count 47 = 0 := by decide
  -- the key has one slash more than the name
  have hcount : ∀ name : Bytes, name.count 47 = o.databaseFilename.count 47 →
      o.remoteDatabasePath ≠ name := by
    intro name hname heq
    have h := congrArg (List.count 47) heq
    rw [hkey, List.count_append, List.count_append, hslash, hname] at h
    omega
  have hname : o.remoteDatabasePath ≠ o.databaseFilename := hcount _ rfl
  have hother : o.remoteDatabasePath ≠ o.databaseFilename ++ ascii "-journal" :=
    hcount _ (by rw [List.count_append, hjournal, Nat.add_zero])
  simp [Deleter.passesOver, Options.deleter, hname, hother]

lemma remoteDatabasePath_ne_nil {folder : Bytes}
    (hfolder : o.uploader.destinationFolder = some folder) : o.remoteDatabasePath ≠ [] := by
  rw [Options.remoteDatabasePath, hfolder]
  simp [show ascii "/" = [47] from rfl]

/-! ## A run that deletes it -/

/-- The file of a listing of one object. -/
def listedFile (key : Bytes) : RemoteFile := ⟨key, ascii "900150983cd24fb0d6963f7d28e17f72", 0⟩

lemma samplePage_go (key : Bytes) : (samplePage key).go = some {
    res := .ok
    httpStatusCode := 200
    resultingHeaders := [(ascii "content-type", ascii "application/xml")]
    body := (samplePage key).body
    curlErrors := [] } := by
  have hparse : parseHeaders (ascii "HTTP/1.1 200 OK\r\nContent-Type: application/xml\r\n\r\n") =
      some [(ascii "content-type", ascii "application/xml")] := by decide
  have hstart : startsWith200 (ascii "HTTP/1.1 200 OK\r\nContent-Type: application/xml\r\n\r\n") =
      true := by decide
  simp only [Response.go, samplePage, hparse, hstart, if_true]

lemma samplePage_parsed (key : Bytes) : parseListOfFiles [] (samplePage key).body =
    .parsed { files := [listedFile key], lastKey := key, isTruncated := false } := by
  have hmd5 : extractMd5FromEtag (some (ascii "\"900150983cd24fb0d6963f7d28e17f72\"")) =
      some (ascii "900150983cd24fb0d6963f7d28e17f72") := by decide
  have hnames : ascii "IsTruncated" ≠ ascii "Contents" ∧ ascii "ETag" ≠ ascii "Key" ∧
      (ascii "false" == ascii "true") = false := by decide
  simp [samplePage, parseListOfFiles, parseNodes, parseContents, xmlNodeListGetString, hnames,
    hmd5, Parse.addContents, listedFile]

/-- The listing of one object lists that object. -/
lemma samplePage_lists {key : Bytes} (hkey : K key) : (samplePage key).Lists K := by
  intro t p hgo _ _ hp f hf
  obtain rfl := Option.some.inj ((samplePage_go key).symm.trans hgo)
  obtain rfl := Parsed.parsed.inj ((samplePage_parsed key).symm.trans hp)
  rw [List.mem_singleton.mp hf]
  exact hkey

/-- The row of its object. -/
def listedRow : Row := ⟨ascii "900150983cd24fb0d6963f7d28e17f72", 0⟩

/-- The listing of one object ends the loop. -/
lemma next_samplePage (key : Bytes) :
    Listing.next {} (some (samplePage key)) = .done (.returned true [listedFile key]) := by
  simp [Listing.next, performGetOnBucket, samplePage_go, samplePage_parsed, Listing.loop]

lemma accepted_go : accepted.go = some {
    res := .ok
    httpStatusCode := 200
    resultingHeaders := [(ascii "server", ascii "AmazonS3")]
    body := .unparsable
    curlErrors := [] } := by
  have hparse : parseHeaders (ascii "HTTP/1.1 200 OK\r\nServer: AmazonS3\r\n\r\n") =
      some [(ascii "server", ascii "AmazonS3")] := by decide
  have hstart : startsWith200 (ascii "HTTP/1.1 200 OK\r\nServer: AmazonS3\r\n\r\n") = true := by
    decide
  simp only [Response.go, accepted, hparse, hstart, if_true]

/-- One file is given a thread, which asks for its mtime. -/
def resolveActions : List ResolveAction :=
  [.check, .dispatch 0 true, .worker 0 .start, .worker 0 (.head (some accepted)),
    .worker 0 .markFree, .checkFailed, .check, .join]

/-- The mtimes of a listing of one object are resolved. -/
lemma resolve_exec (c : AmazonCredentials) (useSsl : Bool) (key : Bytes) :
    (exec (resolveStep c useSsl) (.start [listedFile key]) resolveActions).map
      (fun p => (p.1.pc, p.1.files)) = some (.returned true, [listedFile key]) := by
  have hhead : performHeadOnFile (some accepted) = .received 200 0 := by
    have hmtime : (ascii "server" == ascii "x-amz-meta-mtime") = false := by decide
    simp [performHeadOnFile, accepted_go, extractMtimeFromMicroCurl, Transfer.getHeader, hmtime]
  simp [resolveActions, exec, resolveStep, headStep, afterHead, hhead,
      Resolve.goto, Resolve.setSlot, Resolve.setMtime, Resolve.markFree, Resolve.start, listedFile,
      ResolveDispatcher.running]

/-- The rebuild of a bucket with one object leaves its row, and the walk comes next. -/
lemma rebuild_run {key : Bytes} (hkey : K key) (hdry : o.uploader.dryRun = false)
    (hrebuild : o.performRebuild = true) (hupload : o.performUpload = true) (table : Files) :
    ∃ es, Run (step o tree) (always fun _ es => ∀ e ∈ es, e.Lists K) (start o table) () es
      { conn := { committed := (∅ : Files).insert key listedRow }, phase := .walking } () := by
  have hauth : checkAuth (some accepted) = .success := by
    simp [checkAuth, performGetOnBucket, accepted_go]
  have h₁ : step o tree (start o table) (.auth (some accepted)) = some
      ({ conn := { committed := table }, phase := .opening },
        [.auth (authRequest o.uploader.amazonCredentials o.uploader.useSsl) accepted]) := by
    simp [step, start, hdry, hauth, sent]
  have h₂ : step o tree { conn := { committed := table }, phase := .opening } (.openDatabase true) =
      some ({ conn := { committed := table }, phase := .listing {} }, []) := by
    simp [step, hrebuild]
  have h₃ : step o tree { conn := { committed := table }, phase := .listing {} }
      (.list (some (samplePage key))) = some
        ({ conn := { committed := table }, phase := .resolving (.start [listedFile key]) },
          [.list (Listing.request o.uploader.amazonCredentials o.uploader.useSsl {})
            (samplePage key)]) := by
    simp [step, next_samplePage, afterList, sent]
  obtain ⟨⟨r, tr⟩, hexec, hr⟩ := Option.map_eq_some_iff.mp
    (resolve_exec o.uploader.amazonCredentials o.uploader.useSsl key)
  obtain ⟨hpc, hfiles⟩ := Prod.mk.inj hr
  have hafter : afterResolve o r = .truncating [listedFile key] := by
    rw [afterResolve, hpc]
    dsimp only
    rw [hdry, hfiles]
    rfl
  have hresolve : Run (resolveStep o.uploader.amazonCredentials o.uploader.useSsl) anything
      (.start [listedFile key]) () (shown tr) r () :=
    exec_run hexec (accepts_always fun _ _ => trivial)
  have h₄ : Run (step o tree) (always fun _ es => ∀ e ∈ es, e.Lists K)
      { conn := { committed := table }, phase := .resolving (.start [listedFile key]) } ()
      ((shown tr).map .resolve)
      { conn := { committed := table }, phase := afterResolve o r } () := by
    refine resolve_run hresolve rfl ?_
    intro _ fs e he
    obtain ⟨_, -, rfl⟩ := List.mem_map.mp he
    trivial
  rw [hafter] at h₄
  have h₅ : step o tree { conn := { committed := table }, phase := .truncating [listedFile key] }
      (.truncate noFaults) = some ({
        conn := { committed := ∅ }
        phase := .storing [listedFile key] [(0, 1)] }, []) := rfl
  have hstore : (FileListStorage.storeRemoteListOfFilesChunk noFaults [listedFile key] 0 1).runOn
      ({ committed := ∅ } : Db) = (some (), { committed := (∅ : Files).insert key listedRow }) :=
    rfl
  have h₆ : step o tree { conn := { committed := ∅ }, phase := .storing [listedFile key] [(0, 1)] }
      (.store noFaults) = some ({
        conn := { committed := (∅ : Files).insert key listedRow }
        phase := .walking }, []) := by
    simp [step, hstore, nextChunk, afterRebuild, hupload]
  have hlist : ∀ e ∈ [Event.list (Listing.request o.uploader.amazonCredentials o.uploader.useSsl {})
      (samplePage key)], e.Lists K := by
    intro e he
    rw [List.mem_singleton.mp he]
    exact samplePage_lists hkey
  exact ⟨_, (((((Run.always_one h₁ (by simp [Event.Lists])).trans
    (Run.always_one h₂ (by simp))).trans (Run.always_one h₃ hlist)).trans h₄).trans
    (Run.always_one h₅ (by simp))).trans (Run.always_one h₆ (by simp))⟩

/-- Files that cannot be examined are passed over. -/
lemma skip_run (u : Uploader) (files : LocalFileList) (pfx : Bytes) (conn : Db) {k : ℕ}
    (hk : k ≤ files.length) : ∃ es, Run (u.step files pfx) anything { conn := conn } () es
      { conn := conn, pc := .top k } () := by
  induction k with
  | zero => exact ⟨[], .start⟩
  | succ k ih =>
      obtain ⟨es, hrun⟩ := ih (by omega)
      have hcheck : u.step files pfx { conn := conn, pc := .top k } .check =
          some ({ conn := conn, pc := .stating k }, []) := by
        simp [Uploader.step, Uploader.State.goto, show ¬ files.length ≤ k by omega]
      have hfile : files[k]? = some files[k] := List.getElem?_eq_getElem (by omega)
      have hstat : u.step files pfx { conn := conn, pc := .stating k } (.stat none) =
          some ({ conn := conn, pc := .top (k + 1) },
            [.stat k (Uploader.pathOf pfx files[k]) none]) := by
        simp [Uploader.step, Uploader.State.goto, hfile]
      exact ⟨_, (hrun.trans (Run.always_one hcheck trivial)).trans (Run.always_one hstat trivial)⟩

/-- A run that examines no file returns with success. -/
lemma skip_all_run (u : Uploader) (files : LocalFileList) (pfx : Bytes) (conn : Db) :
    ∃ es, Run (u.step files pfx) anything { conn := conn } () es
      { conn := conn, pc := .returned true } () := by
  obtain ⟨es, hrun⟩ := skip_run u files pfx conn le_rfl
  have hcheck : u.step files pfx { conn := conn, pc := .top files.length } .check =
      some ({ conn := conn, pc := .joining }, []) := by
    simp [Uploader.step, Uploader.State.goto]
  have hjoin : u.step files pfx { conn := conn, pc := .joining } .join =
      some ({ conn := conn, pc := .returned true }, []) := by
    simp [Uploader.step, Uploader.State.goto]
  exact ⟨_, (hrun.trans (Run.always_one hcheck trivial)).trans (Run.always_one hjoin trivial)⟩

/-- A key that is to be deleted is posted. -/
lemma delete_run {key : Bytes} (hne : key ≠ []) (hpass : o.deleter.passesOver key = false)
    (hwalk : o.localFileList tree = some files)
    (hlist : ((FileListStorage.calculateListOfFilesToDelete noFaults files).runOn conn).1 =
      some [key]) (hdry : o.uploader.dryRun = false) (hdelete : o.performDelete = true) :
    ∃ es s request response, Run (step o tree) (always fun _ es => ∀ e ∈ es, e.Lists K)
      { conn := conn, phase := .walking } () es s () ∧ .post [key] request response ∈ es := by
  have h₁ : step o tree { conn := conn, phase := .walking } .walk =
      some ({ conn := conn, phase := .uploading files { conn := conn } }, []) := by
    simp [step, hwalk]
  obtain ⟨fs, hskip⟩ := skip_all_run o.uploader files o.source conn
  have h₂ : Run (step o tree) (always fun _ es => ∀ e ∈ es, e.Lists K)
      { conn := conn, phase := .uploading files { conn := conn } } () (fs.map .upload)
      { conn := conn, phase := .calculating files } () := by
    have hafter : afterUpload o files { conn := conn, pc := .returned true } =
        .calculating files := by
      simp [afterUpload, hdelete]
    rw [← hafter]
    refine upload_run hskip rfl ?_
    intro _ fs e he
    obtain ⟨_, -, rfl⟩ := List.mem_map.mp he
    trivial
  rcases hcalculate : (FileListStorage.calculateListOfFilesToDelete noFaults files).runOn conn with
    ⟨r, conn'⟩
  rw [hcalculate] at hlist
  obtain rfl : r = some [key] := hlist
  have hbatches : o.deleter.batches [] [key] = [[key]] := by
    simp [Deleter.batches, hpass, Deleter.BATCH_SIZE]
  have h₃ : step o tree { conn := conn, phase := .calculating files } (.calculate noFaults) =
      some ({ conn := conn', phase := .deleting [key] [] }, []) := by
    simp [step, hcalculate, hbatches, nextBatch, hdry]
  obtain ⟨xml, hxml⟩ : ∃ xml, Deleter.batchXml [key] = some xml := by
    simp [Deleter.batchXml, Deleter.xmlEscape, hne]
  have hpost : step o tree { conn := conn', phase := .deleting [key] [] } (.post (some accepted)) =
      some ({ conn := conn', phase := .storingDeleted [key] [] },
        [.post [key] (o.deleter.postRequest xml) accepted]) := by
    simp [step, hxml, Deleter.deleteBatch, accepted_go, sent]
  refine ⟨_, _, o.deleter.postRequest xml, accepted, (((Run.always_one h₁ (by simp)).trans h₂).trans
    (Run.always_one h₃ (by simp))).trans (Run.always_one hpost (by simp [Event.Lists])), ?_⟩
  exact List.mem_append_right _ (List.mem_singleton_self _)

/-- A listing of the database alone, and the walk has not listed its key: the key is posted. -/
lemma database_posted {folder : Bytes} (hfolder : o.uploader.destinationFolder = some folder)
    (hdry : o.uploader.dryRun = false) (hrebuild : o.performRebuild = true)
    (hupload : o.performUpload = true) (hdelete : o.performDelete = true)
    (hwalk : o.localFileList tree = some files) (hnodup : (files.paths.map (List.drop 1)).Nodup)
    (hkey : o.remoteDatabasePath ∉ files.paths.map (List.drop 1)) (hK : K o.remoteDatabasePath)
    (table : Files) :
    ∃ es s request response, Run (step o tree) (always fun _ es => ∀ e ∈ es, e.Lists K)
      (start o table) () es s () ∧ .post [o.remoteDatabasePath] request response ∈ es := by
  have hlist : ((FileListStorage.calculateListOfFilesToDelete noFaults files).runOn
      { committed := (∅ : Files).insert o.remoteDatabasePath listedRow }).1 =
        some [o.remoteDatabasePath] := by
    have hsettled : Connection.Settled
        ({ committed := (∅ : Files).insert o.remoteDatabasePath listedRow } : Db) := rfl
    rw [FileListStorage.calculateListOfFilesToDelete_whole hsettled rfl hnodup]
    have hfilter : ([o.remoteDatabasePath].filter fun k =>
        k ∉ files.paths.map (List.drop 1)) = [o.remoteDatabasePath] := by
      rw [List.filter_cons_of_pos (by simpa using hkey), List.filter_nil]
    show some (List.insertionSort _ ([o.remoteDatabasePath].filter fun k =>
      k ∉ files.paths.map (List.drop 1))) = _
    rw [hfilter]
    rfl
  obtain ⟨es, hrun⟩ : ∃ es, Run (step o tree) (always fun _ es => ∀ e ∈ es, e.Lists K)
      (start o table) () es _ () := rebuild_run hK hdry hrebuild hupload table
  obtain ⟨fs, s, request, response, hrun', hpost⟩ := delete_run (remoteDatabasePath_ne_nil hfolder)
    (passesOver_remoteDatabasePath hfolder) hwalk hlist hdry hdelete
  exact ⟨_, s, request, response, hrun.trans hrun', List.mem_append_right es hpost⟩

/-! ## When it is kept -/

/-- The deletion is no dry one, of a list that was calculated from the walk. -/
def Phase.Calculated (o : Options) (tree : Node) : Phase → Prop
  | .uploading files _ | .calculating files => o.localFileList tree = some files
  | .deleting _ _ | .storingDeleted _ _ => o.uploader.dryRun = false ∧
      ∃ files, o.localFileList tree = some files ∧ (files.paths.map (List.drop 1)).Nodup
  | .checkingAuth | .creatingBucket _ | .opening | .listing _ | .resolving _ | .truncating _
  | .storing _ _ | .walking | .statingDatabase | .uploadingDatabase _ _ | .exited _
  | .crashed => True

lemma Phase.Idle.calculated {phase : Phase} (h : phase.Idle) : phase.Calculated o tree := by
  rcases phase <;> trivial

lemma nextBatch_calculated (hwalk : o.localFileList tree = some files)
    (hnodup : (files.paths.map (List.drop 1)).Nodup) :
    ∀ batches : List (List Bytes), (nextBatch o batches).Calculated o tree
  | [] => afterDelete_idle.calculated
  | _ :: _ => by
      rw [nextBatch]
      split_ifs with hdry
      · exact afterDelete_idle.calculated
      · trivial
      · exact ⟨by simpa using hdry, files, hwalk, hnodup⟩

lemma nextChunk_calculated (remote : List RemoteFile) :
    ∀ bounds : List (ℕ × ℕ), (nextChunk o remote bounds).Calculated o tree
  | [] => afterRebuild_idle.calculated
  | _ :: _ => trivial

lemma afterList_calculated (l : ListStep) : (afterList l).Calculated o tree := by
  rcases l with l | ⟨_ | _, files⟩ | _ <;> trivial

lemma afterResolve_calculated (r : Resolve) : (afterResolve o r).Calculated o tree := by
  unfold afterResolve
  split
  · split_ifs
    · exact afterRebuild_idle.calculated
    · trivial
  all_goals trivial

lemma afterUpload_calculated (hwalk : o.localFileList tree = some files) (t : Uploader.State) :
    (afterUpload o files t).Calculated o tree := by
  unfold afterUpload
  split
  · split_ifs
    · exact hwalk
    · exact afterDelete_idle.calculated
  · trivial
  · trivial
  · trivial
  · exact hwalk

lemma afterOpen_calculated (opened : Bool) : (afterOpen o opened).Calculated o tree := by
  unfold afterOpen
  split_ifs
  · trivial
  · exact afterRebuild_idle.calculated
  · trivial

/-- A step that posts a batch, or comes to where one is posted, is none of a dry run, and has a list
without repetitions behind it. -/
lemma Calculated.step (h : s.phase.Calculated o tree)
    (hs : Main.step o tree s a = some (s', es)) :
    s'.phase.Calculated o tree ∧ ∀ batch request response, .post batch request response ∈ es →
      o.uploader.dryRun = false ∧
        ∃ files, o.localFileList tree = some files ∧ (files.paths.map (List.drop 1)).Nodup := by
  have hsilent : ∀ {e : Response → Event} {response : Option Response},
      (∀ r batch request response', e r ≠ .post batch request response') →
      ∀ batch request response', .post batch request response' ∈ sent e response →
        o.uploader.dryRun = false ∧
          ∃ files, o.localFileList tree = some files ∧ (files.paths.map (List.drop 1)).Nodup := by
    intro e response he batch request response' hmem
    obtain ⟨r, -, heq⟩ := mem_sent hmem
    exact absurd heq.symm (he r _ _ _)
  cases step_transition hs with
  | auth response hpc =>
      exact ⟨(afterAuth_idle response).calculated, hsilent fun _ _ _ _ => by simp⟩
  | create response url hpc =>
      exact ⟨(afterCreate_idle response).calculated, hsilent fun _ _ _ _ => by simp⟩
  | opened opened hpc => exact ⟨afterOpen_calculated opened, by simp⟩
  | listed response l hpc => exact ⟨afterList_calculated _, hsilent fun _ _ _ _ => by simp⟩
  | resolved r r' b fs hpc hstep => exact ⟨afterResolve_calculated r', by simp⟩
  | truncated fails remote conn hpc hrun => exact ⟨nextChunk_calculated _ _, by simp⟩
  | stored fails remote lo hi rest conn hpc hrun => exact ⟨nextChunk_calculated _ _, by simp⟩
  | walked files hpc hwalk => exact ⟨hwalk, by simp⟩
  | uploaded files t t' b fs hpc hstep =>
      rw [hpc] at h
      exact ⟨afterUpload_calculated h t', by simp⟩
  | calculated fails files filesToDelete conn hpc hrun =>
      rw [hpc] at h
      have hspec := FileListStorage.calculateListOfFilesToDelete_nodup fails files s.conn
      exact ⟨nextBatch_calculated h (Script.wp_run hspec hrun (by simp)) _, by simp⟩
  | posted response batch rest xml hpc hxml =>
      rw [hpc] at h
      refine ⟨?_, fun _ _ _ _ => h⟩
      unfold afterPost
      split
      · trivial
      · exact h
      · exact afterDelete_idle.calculated
  | storedDeleted fails batch rest hpc =>
      rw [hpc] at h
      obtain ⟨-, files, hwalk, hnodup⟩ := h
      exact ⟨nextBatch_calculated hwalk hnodup _, by simp⟩
  | stated answer hpc => exact ⟨(afterStat_idle answer).calculated, by simp⟩
  | databaseSent attempt fileInfo r exchanged hpc hopens hexchange =>
      exact ⟨(afterDatabase_idle fileInfo _).calculated, by simp⟩
  | truncateFailed | storeFailed | walkCrashed | calculateFailed | unposted | databaseLost =>
      -- the process ends
      exact ⟨trivial, by simp⟩

/-- What is posted in a run, which is no dry one, comes from a walk without repetitions. -/
lemma calculated_run {es : List Event} {s : State}
    (h : Run (step o tree) (always fun _ es => ∀ e ∈ es, e.Lists K) (start o table) () es s ())
    {batch : List Bytes} {request : Request} {response : Response}
    (hpost : .post batch request response ∈ es) : o.uploader.dryRun = false ∧
      ∃ files, o.localFileList tree = some files ∧ (files.paths.map (List.drop 1)).Nodup := by
  have hstart : (start o table).phase.Calculated o tree := by
    unfold start
    dsimp only
    split_ifs <;> trivial
  have hall : s.phase.Calculated o tree ∧
      ∀ batch request response, .post batch request response ∈ es → o.uploader.dryRun = false ∧
        ∃ files, o.localFileList tree = some files ∧ (files.paths.map (List.drop 1)).Nodup := by
    refine h.invariant (I := fun es s _ => s.phase.Calculated o tree ∧
      ∀ batch request response, .post batch request response ∈ es → o.uploader.dryRun = false ∧
        ∃ files, o.localFileList tree = some files ∧ (files.paths.map (List.drop 1)).Nodup)
      ⟨hstart, by simp⟩ ?_
    rintro es t _ a fs t' _ ⟨ht, hes⟩ hs -
    obtain ⟨ht', hfs⟩ := Calculated.step ht hs
    refine ⟨ht', fun batch request response hmem => ?_⟩
    rcases List.mem_append.mp hmem with hmem | hmem
    · exact hes _ _ _ hmem
    · exact hfs _ _ _ hmem
  exact hall.2 _ _ _ hpost

/-- **When a later run keeps the database.**  The bucket has the database under its key, and the
listings list what is in the bucket.  No run with `--rebuild` and `--delete` posts the key exactly
when the run is a dry one, or the walk, if it ends and has no path twice, lists a file of its own
under that key. -/
theorem database_kept_iff {host : Host} {line : CommandLine}
    (hline : parseCommandline host line = .ok o) (hrebuild : o.performRebuild = true)
    (hdelete : o.performDelete = true) (hstored : K o.remoteDatabasePath) :
    (∀ table es s, Run (step o tree) (always fun _ es => ∀ e ∈ es, e.Lists K)
        (start o table) () es s () → ∀ batch request response,
          .post batch request response ∈ es → o.remoteDatabasePath ∉ batch) ↔
      o.uploader.dryRun = true ∨ ∀ files, o.localFileList tree = some files →
        (files.paths.map (List.drop 1)).Nodup →
          o.remoteDatabasePath ∈ files.paths.map (List.drop 1) := by
  obtain ⟨_, d, -, hfolder, -⟩ := parseCommandline_destination hline
  have hupload := parseCommandline_performUpload hline hdelete
  constructor
  · intro hkept
    refine or_iff_not_imp_left.mpr fun hdry files hwalk hnodup => ?_
    rw [Bool.not_eq_true] at hdry
    by_contra hkey
    obtain ⟨es, s, request, response, hrun, hpost⟩ := database_posted hfolder hdry hrebuild hupload
      hdelete hwalk hnodup hkey hstored ∅
    exact hkept ∅ es s hrun _ request response hpost (List.mem_singleton_self _)
  · intro hcase table es s hrun batch request response hpost hmem
    obtain ⟨hdry, files, hwalk, hnodup⟩ := calculated_run hrun hpost
    have hwalked := hcase.resolve_left (by simp [hdry])
    have hfree : Run (step o tree) (always fun _ es => ∀ e ∈ es, e.Lists fun _ => True)
        (start o table) () es s () := by
      refine hrun.mapEnv id ?_
      rintro _ _ _ _ - e -
      rcases e with _ | _ | _ | _ | _ | _ | _ <;> try trivial
      exact fun _ _ _ _ _ _ _ _ => trivial
    obtain ⟨-, ⟨files', hwalk', hlocal⟩, -⟩ :=
      posts_run (fun _ _ _ => trivial) (fun _ _ => trivial) hfree _ hpost _ hmem
    obtain rfl := Option.some.inj (hwalk.symm.trans hwalk')
    exact hlocal (hwalked files hwalk hnodup)

/-- `clarc --rebuild --delete /home s3://b/F`. -/
def databaseLine : CommandLine where
  argc := 5
  options := [.rebuild, .delete]
  arguments := [ascii "/home", ascii "s3://b/F"]

/-- A folder that has a file under the key of the database: no run deletes the key. -/
theorem database_kept_iff_sample :
    ∃ o, parseCommandline sampleHost databaseLine = .ok o ∧
      ∀ table es s, Run (step o (.dir true (.cons (ascii "F") .dir none
        (.dir true (.cons (ascii ".clarc.sqlite3") .reg (some 3) (.leaf .regular) .nil)) .nil)))
          (always fun _ es => ∀ e ∈ es, e.Lists fun _ => True) (start o table) () es s () →
        ∀ batch request response, .post batch request response ∈ es →
          o.remoteDatabasePath ∉ batch := by
  have hparsed : (match parseCommandline sampleHost databaseLine with
      | .ok o => decide (o.performRebuild = true ∧ o.performDelete = true ∧
          ((o.localFileList (.dir true (.cons (ascii "F") .dir none (.dir true (.cons
            (ascii ".clarc.sqlite3") .reg (some 3) (.leaf .regular) .nil)) .nil))).all fun files =>
              decide (o.remoteDatabasePath ∈ files.paths.map (List.drop 1))) = true)
      | .error _ => false) = true := by
    decide +kernel
  split at hparsed
  next o ho =>
    obtain ⟨hrebuild, hdelete, hwalked⟩ := of_decide_eq_true hparsed
    refine ⟨o, ho, (database_kept_iff ho hrebuild hdelete trivial).mpr (Or.inr ?_)⟩
    intro files hwalk _
    rw [hwalk] at hwalked
    exact of_decide_eq_true hwalked
  · cases hparsed

/-- An empty source folder and a bucket with the database: it is deleted. -/
theorem deletes_database :
    ∃ o es s request response, parseCommandline sampleHost databaseLine = .ok o ∧
      o.remoteDatabasePath = ascii "F/.clarc.sqlite3" ∧
      Run (step o (.dir true .nil))
        (always fun _ es => ∀ e ∈ es, e.Lists (· = o.remoteDatabasePath)) (start o ∅) () es s () ∧
      .post [o.remoteDatabasePath] request response ∈ es := by
  have hexec : (match parseCommandline sampleHost databaseLine with
      | .ok o => decide (o.remoteDatabasePath = ascii "F/.clarc.sqlite3") &&
          (exec (step o (.dir true .nil)) (start o ∅) (sampleRebuild o.remoteDatabasePath)).any
            (fun r => decide (∃ e ∈ shown r.2, e.postsOne o.remoteDatabasePath = true) &&
              r.2.all fun p => decide (∀ e ∈ p.2, e.ListsOne o.remoteDatabasePath))
      | .error _ => false) = true := by
    decide +kernel
  split at hexec
  next o ho =>
    rw [Bool.and_eq_true, decide_eq_true_eq] at hexec
    obtain ⟨es, s, hrun, e, he, hpost⟩ := run_of_exec (step o (.dir true .nil)) (start o ∅)
      (sampleRebuild o.remoteDatabasePath) (fun _ es => ∀ e ∈ es, e.ListsOne o.remoteDatabasePath)
      (fun es _ => ∃ e ∈ es, e.postsOne o.remoteDatabasePath = true) hexec.2
    obtain ⟨request, response, rfl⟩ := Event.postsOne_post hpost
    exact ⟨o, es, s, request, response, ho, hexec.1,
      hrun.mapEnv id fun hall e he => (hall e he).lists rfl, he⟩
  · cases hexec

end Main

end Clarc
