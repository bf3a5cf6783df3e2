import Clarc.Delete.Batches
import Clarc.Main.Order

/-!
# The database that a run sends

The database is uploaded last, as the file on disk holds it: not before the upload has returned
success, and after the rows of the deleted files have been removed.  `Accounted` says what the table
then knows of the local files, and `Phase.Accounts` what of it holds on the way.

* `Phase.Accounts.step` — **a step keeps what the table knows**, whatever fails;
* `database_accounted_run` — **when a run has sent the database, each local file has its row in it**,
  unless the file could not be read or is too large.

With a destination folder the deletion takes the rows of the local files for others, so there the
result holds without `--delete` only.
-/

namespace Clarc

open Bytes Reactive Sqlite RemoteListOfFiles

namespace Main

/-! ## What the table knows -/

/-- Each file was looked at; and, unless it could not be read or is too large, the table has its row,
with the mtime that was seen there, or the lower half of it. -/
def Accounted (o : Options) (files : LocalFileList) (es : List Event) (table : Files) : Prop :=
  ∀ i file, files[i]? = some file →
    ∃ answer, .upload (.stat i (Uploader.pathOf o.source file) answer) ∈ es ∧
      ((∀ fileInfo, answer = some fileInfo → MAX_S3_FILE_SIZE ≤ fileInfo.size) ∨
        ∃ fileInfo row, answer = some fileInfo ∧
          table.lookup (o.uploader.keyOf file) = some row ∧
          (row.mtime = fileInfo.mtime64 ∨ row.mtime = fileInfo.mtime32.toUInt64))

variable {o : Options} {tree : Node} {files : LocalFileList} {table table' : Files}
  {s s' : State} {a : Action} {es fs : List Event} {conn conn' : Db}

lemma Accounted.mono (h : Accounted o files es table)
    (hrows : ∀ file ∈ files,
      table'.lookup (o.uploader.keyOf file) = table.lookup (o.uploader.keyOf file)) :
    Accounted o files (es ++ fs) table' := by
  intro i file hfile
  obtain ⟨answer, hstat, hrow⟩ := h i file hfile
  refine ⟨answer, List.mem_append_left _ hstat, ?_⟩
  rwa [hrows file (List.mem_of_getElem? hfile)]

/-- A file that is up to date has a row. -/
lemma lookup_of_upToDate {key : Bytes} {fileInfo : Stat}
    (h : Uploader.UpToDate conn key fileInfo) :
    ∃ row, conn.view.lookup key = some row ∧ row.mtime = fileInfo.mtime64 := by
  unfold Uploader.UpToDate Uploader.rowOf at h
  rcases hrow : conn.view.lookup key with _ | row
  · rw [hrow] at h
    exact absurd h.1 (by decide)
  · rw [hrow] at h
    exact ⟨row, rfl, h.2⟩

/-- An upload that returns success leaves a table that knows the files. -/
lemma accounted_of_returned {gs : List Uploader.Event} {conn₀ : Db} {t : Uploader.State}
    (hplaced : Uploader.Placed o.uploader files o.source gs t)
    (hledger : Uploader.Ledger o.uploader files o.source conn₀ gs t)
    (hpc : t.pc = .returned true) (hgs : ∀ e ∈ gs, .upload e ∈ es) :
    Accounted o files es t.conn.committed := by
  intro i file hfile
  obtain ⟨answer, hstat, hfate⟩ := Uploader.returned_account hplaced hledger hpc hfile
  refine ⟨answer, hgs _ hstat, ?_⟩
  rw [← Connection.view_of_settled hledger.settled]
  rcases hfate with ⟨hskip, -⟩ | ⟨fileInfo, rfl, -, ⟨hold, hrow⟩ | ⟨-, md5, hrow⟩⟩
  · exact Or.inl hskip
  · obtain ⟨row, hlookup, hmtime⟩ := lookup_of_upToDate hold
    exact Or.inr ⟨fileInfo, row, rfl, hrow.trans hlookup, Or.inl hmtime⟩
  · exact Or.inr ⟨fileInfo, _, rfl, hrow, Or.inr rfl⟩

/-! ## On the way -/

/-- What the table knows, from where the process stands. -/
def Phase.Accounts (o : Options) (files : LocalFileList) (es : List Event) (conn : Db) :
    Phase → Prop
  | .checkingAuth | .creatingBucket _ | .opening | .listing _ | .resolving _ | .truncating _
  | .storing _ _ | .walking => conn.Settled
  | .uploading files' t => files' = files ∧ t.conn = conn ∧ ∃ conn₀ gs,
      (∀ e ∈ gs, .upload e ∈ es) ∧ Uploader.Placed o.uploader files o.source gs t ∧
      Uploader.Ledger o.uploader files o.source conn₀ gs t
  | .calculating files' => files' = files ∧ o.performDelete = true ∧
      Accounted o files es conn.committed
  | .deleting batch rest | .storingDeleted batch rest =>
      (∀ b ∈ batch :: rest, ∀ file ∈ files, o.uploader.keyOf file ∉ b) ∧
        Accounted o files es conn.committed
  | .statingDatabase | .uploadingDatabase _ _ => Accounted o files es conn.committed
  | .exited _ | .crashed => True

lemma afterRebuild_accounts (h : conn.Settled) : (afterRebuild o).Accounts o files es conn := by
  unfold afterRebuild
  split_ifs
  · exact h
  · trivial

lemma afterDelete_accounts (h : Accounted o files es conn.committed) :
    (afterDelete o).Accounts o files es conn := by
  unfold afterDelete
  split_ifs
  · trivial
  · exact h

lemma afterAuth_accounts (response : Option Response) (h : conn.Settled) :
    (afterAuth o response).Accounts o files es conn := by
  unfold afterAuth
  split <;> try split_ifs
  all_goals trivial

lemma afterCreate_accounts (response : Option Response) (h : conn.Settled) :
    (afterCreate response).Accounts o files es conn := by
  unfold afterCreate
  split <;> try split_ifs
  all_goals trivial

lemma afterOpen_accounts (opened : Bool) (h : conn.Settled) :
    (afterOpen o opened).Accounts o files es conn := by
  unfold afterOpen
  split_ifs
  · exact h
  · exact afterRebuild_accounts h
  · trivial

lemma afterList_accounts (l : ListStep) (h : conn.Settled) :
    (afterList l).Accounts o files es conn := by
  rcases l with l | ⟨_ | _, remote⟩ | _
  · exact h
  · trivial
  · exact h
  · trivial

lemma afterResolve_accounts (r : Resolve) (h : conn.Settled) :
    (afterResolve o r).Accounts o files es conn := by
  unfold afterResolve
  split
  · split_ifs
    · exact afterRebuild_accounts h
    · exact h
  · trivial
  · trivial
  · trivial
  · exact h

lemma nextChunk_accounts (remote : List RemoteFile) (bounds : List (ℕ × ℕ)) (h : conn.Settled) :
    (nextChunk o remote bounds).Accounts o files es conn := by
  rcases bounds with _ | ⟨bound, rest⟩
  · exact afterRebuild_accounts h
  · exact h

lemma afterUpload_accounts {t : Uploader.State} {conn₀ : Db} {gs : List Uploader.Event}
    (hgs : ∀ e ∈ gs, .upload e ∈ es) (hplaced : Uploader.Placed o.uploader files o.source gs t)
    (hledger : Uploader.Ledger o.uploader files o.source conn₀ gs t) :
    (afterUpload o files t).Accounts o files es t.conn := by
  unfold afterUpload
  split
  next hpc =>
    have haccounted := accounted_of_returned hplaced hledger hpc hgs
    split_ifs with hdelete
    · exact ⟨rfl, hdelete, haccounted⟩
    · exact afterDelete_accounts haccounted
  · trivial
  · trivial
  · trivial
  · exact ⟨rfl, rfl, conn₀, gs, hgs, hplaced, hledger⟩

lemma nextBatch_accounts {batches : List (List Bytes)}
    (hkeys : ∀ b ∈ batches, ∀ file ∈ files, o.uploader.keyOf file ∉ b)
    (h : Accounted o files es conn.committed) :
    (nextBatch o batches).Accounts o files es conn := by
  rcases batches with _ | ⟨batch, rest⟩
  · exact afterDelete_accounts h
  · rw [nextBatch]
    split_ifs
    · exact afterDelete_accounts h
    · trivial
    · exact ⟨hkeys, h⟩

/-- What is to be deleted has no key of a file. -/
lemma calculated_keys (hfolder : o.uploader.destinationFolder.getD [] = []) {fails : Faults}
    {filesToDelete : List Bytes}
    (h : (FileListStorage.calculateListOfFilesToDelete fails files).runOn conn =
      (some filesToDelete, conn')) :
    ∀ b ∈ o.deleter.batches [] filesToDelete, ∀ file ∈ files, o.uploader.keyOf file ∉ b := by
  intro b hb file hfile hk
  obtain ⟨hmem, -⟩ := Deleter.mem_of_mem_batches hb hk
  obtain ⟨-, hspec⟩ := Script.wp_run
    (FileListStorage.calculateListOfFilesToDelete_spec fails files conn) h
  refine ((hspec _ rfl).2 _ hmem).2 ?_
  rw [Uploader.keyOf_of_empty hfolder]
  exact List.mem_map_of_mem (List.mem_map_of_mem hfile)

/-- The rows that a batch takes with it, if any, are those of other keys. -/
lemma storeDeletedBatch_rows (fails : Faults) {batch : List Bytes} {key : Bytes}
    (hkey : key ∉ batch) :
    ((FileListStorage.storeDeletedBatch fails batch).runOn conn).2.committed.lookup key =
      conn.committed.lookup key := by
  have hspec := FileListStorage.storeDeletedBatch_spec fails batch conn
  rcases hrun : (FileListStorage.storeDeletedBatch fails batch).runOn conn with ⟨_ | _, conn'⟩
  · have hsame : conn'.committed = conn.committed := Script.wp_run hspec hrun
    rw [hsame]
  · obtain ⟨herased, -⟩ := Script.wp_run hspec hrun
    dsimp only
    rw [herased, Deleter.lookup_eraseAll, if_neg hkey]

/-- **A step keeps what the table knows.** -/
theorem Phase.Accounts.step (hwalk : o.localFileList tree = some files)
    (hkeys : Uploader.KeysDistinct o.uploader files) (hdry : o.uploader.dryRun = false)
    (hfolder : o.performDelete = true → o.uploader.destinationFolder.getD [] = [])
    (h : s.phase.Accounts o files es s.conn) (hs : Main.step o tree s a = some (s', fs)) :
    s'.phase.Accounts o files (es ++ fs) s'.conn := by
  cases step_transition hs with
  | auth response hpc =>
      rw [hpc] at h
      exact afterAuth_accounts response h
  | create response url hpc =>
      rw [hpc] at h
      exact afterCreate_accounts response h
  | opened opened hpc =>
      rw [hpc] at h
      exact afterOpen_accounts opened h
  | listed response l hpc =>
      rw [hpc] at h
      exact afterList_accounts _ h
  | resolved r r' b gs hpc _ =>
      rw [hpc] at h
      exact afterResolve_accounts r' h
  | truncated fails remote conn hpc hrun =>
      obtain ⟨hconn, hsettled⟩ := Script.wp_run (FileListStorage.truncate_spec fails s.conn) hrun
      exact nextChunk_accounts remote _ (hconn ▸ hsettled)
  | stored fails remote lo hi rest conn hpc hrun =>
      have hspec := FileListStorage.storeRemoteListOfFilesChunk_spec fails remote lo hi s.conn
      obtain ⟨hconn, hsettled⟩ := Script.wp_run hspec hrun
      exact nextChunk_accounts remote rest (hconn ▸ hsettled)
  | walked files' hpc hwalk' =>
      rw [hpc] at h
      obtain rfl := Option.some.inj (hwalk'.symm.trans hwalk)
      exact ⟨rfl, rfl, s.conn, [], by simp, Uploader.placed_start, Uploader.ledger_start h⟩
  | uploaded files' t t' b gs' hpc hstep =>
      rw [hpc] at h
      obtain ⟨rfl, -, conn₀, gs, hgs, hplaced, hledger⟩ := h
      have ht := Uploader.step_transition hstep
      have hgs' : ∀ e ∈ gs ++ gs', .upload e ∈ es ++ gs'.map Event.upload := by
        intro e he
        rcases List.mem_append.mp he with he | he
        · exact List.mem_append_left _ (hgs e he)
        · exact List.mem_append_right _ (List.mem_map_of_mem he)
      exact afterUpload_accounts hgs' (hplaced.transition ht)
        (hledger.transition hplaced hkeys hdry ht)
  | calculated fails files' filesToDelete conn hpc hrun =>
      rw [hpc] at h
      obtain ⟨rfl, hdelete, haccounted⟩ := h
      have hspec := FileListStorage.calculateListOfFilesToDelete_spec fails files' s.conn
      have hsame : conn.committed = s.conn.committed := (Script.wp_run hspec hrun).1
      refine nextBatch_accounts (calculated_keys (hfolder hdelete) hrun) ?_
      rw [hsame]
      exact haccounted.mono fun _ _ => rfl
  | posted response batch rest xml hpc hxml =>
      rw [hpc] at h
      obtain ⟨hbatches, haccounted⟩ := h
      have hlater : Accounted o files
          (es ++ sent (.post batch (o.deleter.postRequest xml)) response) s.conn.committed :=
        haccounted.mono fun _ _ => rfl
      dsimp only [afterPost]
      split
      · trivial
      · exact ⟨hbatches, hlater⟩
      · exact afterDelete_accounts hlater
  | storedDeleted fails batch rest hpc =>
      rw [hpc] at h
      obtain ⟨hbatches, haccounted⟩ := h
      refine nextBatch_accounts (fun b hb => hbatches b (List.mem_cons_of_mem _ hb)) ?_
      exact haccounted.mono fun file hfile =>
        storeDeletedBatch_rows fails (hbatches batch List.mem_cons_self file hfile)
  | stated answer hpc =>
      rw [hpc] at h
      have hlater : Accounted o files (es ++ []) s.conn.committed := h.mono fun _ _ => rfl
      rcases answer with _ | fileInfo
      · trivial
      · exact hlater
  | databaseSent attempt fileInfo r exchanged hpc hopens hexchange =>
      rw [hpc] at h
      have hlater : Accounted o files (es ++ exchanged.map fun p => .database p.1 p.2)
          s.conn.committed := h.mono fun _ _ => rfl
      dsimp only
      rcases r.next o.databaseFilePath attempt with _ | (_ | _ | _)
      · trivial
      · exact hlater
      · trivial
      · trivial
  | truncateFailed _ _ _ _ _ | storeFailed _ _ _ _ _ _ _ _ | walkCrashed _ _
  | calculateFailed _ _ _ _ _ | unposted _ _ _ _ _ | databaseLost _ _ _ _ _ _ => trivial

/-! ## The database is sent -/

/-- A step that sends the database leaves the table alone. -/
lemma database_sent (hs : step o tree s a = some (s', fs)) {request : Request}
    {response : Response} (he : .database request response ∈ fs) :
    (∃ fileInfo r, s.phase = .uploadingDatabase fileInfo r) ∧ s'.conn = s.conn := by
  cases step_transition hs with
  | databaseSent attempt fileInfo r exchanged hpc _ _ => exact ⟨⟨fileInfo, r, hpc⟩, rfl⟩
  | auth _ _ | create _ _ _ | listed _ _ _ | posted _ _ _ _ _ _ =>
      obtain ⟨r, -, heq⟩ := mem_sent he
      cases heq
  | resolved _ _ _ _ _ _ | uploaded _ _ _ _ _ _ _ =>
      obtain ⟨e, -, heq⟩ := List.mem_map.mp he
      cases heq
  | _ => cases he

/-- After that nothing changes the table. -/
lemma conn_of_last (hs : step o tree s a = some (s', fs))
    (hlast : 12 ≤ s.phase.stage) : s'.conn = s.conn := by
  cases step_transition hs with
  | databaseLost _ _ _ _ _ _ | databaseSent _ _ _ _ _ _ _ => rfl
  | auth _ _ | create _ _ _ | opened _ _ | listed _ _ _ | resolved _ _ _ _ _ _ | walkCrashed _ _
  | walked _ _ _ | unposted _ _ _ _ _ | posted _ _ _ _ _ _ | stated _ _ => rfl
  | truncateFailed _ _ _ hpc _ | truncated _ _ _ hpc _ | storeFailed _ _ _ _ _ _ hpc _
  | stored _ _ _ _ _ _ hpc _ | uploaded _ _ _ _ _ hpc _ | calculateFailed _ _ _ hpc _
  | calculated _ _ _ _ hpc _ | storedDeleted _ _ _ hpc =>
      rw [hpc] at hlast
      simp [Phase.stage] at hlast

/-- From the sending of the database on, a step leaves the table alone. -/
lemma database_step (hle : ∀ e ∈ es, e.stage ≤ s.phase.stage)
    (hs : step o tree s a = some (s', fs)) {request : Request} {response : Response}
    (he : .database request response ∈ es ++ fs) : s'.conn = s.conn ∧
      (.database request response ∈ es ∨ ∃ fileInfo r, s.phase = .uploadingDatabase fileInfo r) := by
  rcases List.mem_append.mp he with he | he
  · exact ⟨conn_of_last hs (hle _ he), Or.inl he⟩
  · obtain ⟨hpc, hconn⟩ := database_sent hs he
    exact ⟨hconn, Or.inr hpc⟩

/-- The walk lists paths that begin with a slash. -/
lemma rooted_of_walk (hwalk : o.localFileList tree = some files) : files.Rooted :=
  Node.rooted_recurseIn o.excluded [] (Or.inl rfl) tree [] files hwalk (by
    intro path hpath
    cases hpath)

/-- What the table knows in a run, and from the upload of the database on. -/
lemma accounts_run (hwalk : o.localFileList tree = some files) (hnodup : files.paths.Nodup)
    (hdry : o.uploader.dryRun = false)
    (hfolder : o.performDelete = true → o.uploader.destinationFolder.getD [] = [])
    (h : Run (step o tree) anything (start o table) () es s ()) :
    (∀ e ∈ es, e.stage ≤ s.phase.stage) ∧ s.phase.Accounts o files es s.conn ∧
      ∀ request response, .database request response ∈ es →
        Accounted o files es s.conn.committed := by
  have hkeys := Uploader.keysDistinct (u := o.uploader) hnodup (rooted_of_walk hwalk)
  refine h.invariant (I := fun es s _ => (∀ e ∈ es, e.stage ≤ s.phase.stage) ∧
    s.phase.Accounts o files es s.conn ∧ ∀ request response, .database request response ∈ es →
      Accounted o files es s.conn.committed) ⟨by simp, ?_, by simp⟩ ?_
  · unfold start
    split_ifs <;> rfl
  · rintro es t _ a fs t' _ ⟨hle, haccounts, hdatabase⟩ hs -
    refine ⟨(stage_le_append hle hs).2, haccounts.step hwalk hkeys hdry hfolder hs, ?_⟩
    intro request response he
    obtain ⟨hconn, hcase⟩ := database_step hle hs he
    rw [hconn]
    rcases hcase with he | ⟨fileInfo, r, hpc⟩
    · exact (hdatabase request response he).mono fun _ _ => rfl
    · rw [hpc] at haccounts
      exact haccounts.mono fun _ _ => rfl

/-- **When a run has sent the database, each local file has its row in it**, whatever the server
answered and whatever failed before: the file was looked at, and unless it could not be read or is
too large, the table on disk has its key with the mtime that was seen, or the lower half of it. -/
theorem database_accounted_run (hwalk : o.localFileList tree = some files)
    (hnodup : files.paths.Nodup) (hdry : o.uploader.dryRun = false)
    (hfolder : o.performDelete = true → o.uploader.destinationFolder.getD [] = [])
    (h : Run (step o tree) anything (start o table) () es s ()) {request : Request}
    {response : Response} (hdatabase : .database request response ∈ es) :
    Accounted o files es s.conn.committed :=
  (accounts_run hwalk hnodup hdry hfolder h).2.2 request response hdatabase

/-- The response to a PUT. -/
def sampleStored : Response where
  code := .ok
  responseCode := 200
  headers := ascii "HTTP/1.1 200 OK\r\nETag: \"900150983cd24fb0d6963f7d28e17f72\"\r\n\r\n"

/-- A local file that is new: it is uploaded, the row of another is deleted, and the database is
sent. -/
def sampleWhole : List Action :=
  [.auth (some accepted), .openDatabase true, .walk, .upload .check,
    .upload (.stat (some ⟨0x81A4, 3, 1000, 0, 0⟩)), .upload (.lookup noFaults),
    .upload (.dispatch 0 true),
    .upload (.worker 0 (.upload (.performed ⟨some (ascii "root"), some (ascii "root"), none⟩
      sampleStored))),
    .upload (.worker 0 (.store noFaults)), .upload (.worker 0 .markFree), .upload .check,
    .upload .join, .calculate noFaults, .post (some accepted), .storeDeleted noFaults,
    .stat (some ⟨0x81A4, 3, 1000, 0, 0⟩),
    .database (.performed ⟨some (ascii "root"), some (ascii "root"), none⟩ accepted)]

/-- The event sends the database. -/
def Event.sendsDatabase : Event → Bool
  | .database _ _ => true
  | .auth _ _ | .create _ _ | .list _ _ | .resolve _ | .upload _ | .post _ _ _ => false

lemma Event.sendsDatabase_iff {e : Event} :
    e.sendsDatabase = true ↔ ∃ request response, e = .database request response := by
  rcases e with _ | _ | _ | _ | _ | _ | ⟨request, response⟩ <;> simp [sendsDatabase]

theorem database_accounted_run_sample :
    ∃ files es s, (sampleOptions [] [] false []).localFileList
        (.dir true (.cons (ascii "b") .reg (some 3) (.leaf .regular) .nil)) = some files ∧
      files.length = 1 ∧ Run (step (sampleOptions [] [] false [])
        (.dir true (.cons (ascii "b") .reg (some 3) (.leaf .regular) .nil))) anything
        (start (sampleOptions [] [] false []) (oneRow (ascii "a"))) () es s () ∧
      Accounted (sampleOptions [] [] false []) files es s.conn.committed := by
  obtain ⟨es, s, hrun, e, he, hsends⟩ := run_of_exec (step (sampleOptions [] [] false [])
    (.dir true (.cons (ascii "b") .reg (some 3) (.leaf .regular) .nil)))
    (start (sampleOptions [] [] false []) (oneRow (ascii "a"))) sampleWhole (fun _ _ => True)
    (fun es _ => ∃ e ∈ es, e.sendsDatabase = true) (by decide)
  obtain ⟨request, response, rfl⟩ := Event.sendsDatabase_iff.mp hsends
  refine ⟨_, es, s, rfl, by decide, hrun, ?_⟩
  exact database_accounted_run rfl (by decide) rfl (fun _ => rfl) hrun he

end Main

end Clarc
