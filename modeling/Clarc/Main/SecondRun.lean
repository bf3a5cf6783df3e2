import Clarc.Main.Accounted
import Clarc.Storage.Operations
import Clarc.Upload.Idempotence

/-!
# A second run has nothing to do

A run that has sent the database leaves a table that is up to date with the local files, as long as
their mtimes survive the cast to 32 bits; and if it was a run with `--delete` whose deletion did not
fail, the table has no other rows.  A run from such a table over the same tree, without `--rebuild`,
looks at the files and sends the database, and that is all.

* `Phase.Swept.step` — **a step of the first run keeps track of the rows that are to go**;
* `Untouched.step` — **a step of the second run leaves the table alone**, whatever fails;
* `second_run_idle` — the two put together.
-/

namespace Clarc

open Bytes Reactive Sqlite RemoteListOfFiles

namespace Main

/-! ## The tree -/

/-- The event agrees with the tree. -/
def Event.Answered (lstat : Bytes → Option Stat) : Event → Prop
  | .upload e => e.Answered lstat
  | .auth _ _ | .create _ _ | .list _ _ | .resolve _ | .post _ _ _ | .database _ _ => True

instance (lstat : Bytes → Option Stat) (e : Event) : Decidable (e.Answered lstat) := by
  rcases e with _ | _ | _ | _ | _ | _ | _ <;> unfold Event.Answered <;> infer_instance

/-- The environment in which no file changes and everything else may happen. -/
def unchangedTree (lstat : Bytes → Option Stat) : Environment Unit Action Event :=
  always fun _ es => ∀ e ∈ es, e.Answered lstat

/-- No statement of a deletion fails, and each of its batches is accepted. -/
def Action.Sweeps : Action → Prop
  | .calculate fails | .storeDeleted fails => ∀ call, fails call = none
  | .post response => Deleter.deleteBatch response = some true
  | _ => True

/-- The same, with a deletion that does not fail. -/
def sweptTree (lstat : Bytes → Option Stat) : Environment Unit Action Event :=
  always fun a es => a.Sweeps ∧ ∀ e ∈ es, e.Answered lstat

/-- The key is a local path, or a name of the database. -/
def Options.Spares (o : Options) (files : LocalFileList) (k : Bytes) : Prop :=
  k ∈ files.paths.map (List.drop 1) ∨ o.deleter.passesOver k = true

/-- There is nothing to upload and nothing to delete. -/
structure Synced (o : Options) (files : LocalFileList) (lstat : Bytes → Option Stat)
    (table : Files) : Prop where
  rows : Uploader.AllUpToDate o.uploader files o.source lstat { committed := table }
  spared : o.performDelete = true → ∀ k ∈ table, o.Spares files k

variable {o : Options} {tree : Node} {files : LocalFileList} {lstat : Bytes → Option Stat}
  {table : Files} {s s' : State} {a : Action} {es fs : List Event} {conn : Db} {k : Bytes}

/-! ## The first run -/

/-- The rows that are to go are in the batches. -/
def Phase.Swept (o : Options) (files : LocalFileList) (conn : Db) : Phase → Prop
  | .deleting batch rest | .storingDeleted batch rest => conn.working = none ∧
      ∀ k ∈ conn.committed, o.Spares files k ∨ ∃ b ∈ batch :: rest, k ∈ b
  | .statingDatabase | .uploadingDatabase _ _ =>
      o.performDelete = true → ∀ k ∈ conn.committed, o.Spares files k
  | .checkingAuth | .creatingBucket _ | .opening | .listing _ | .resolving _ | .truncating _
  | .storing _ _ | .walking | .uploading _ _ | .calculating _ | .exited _ | .crashed => True

lemma afterRebuild_swept : (afterRebuild o).Swept o files conn := by
  unfold afterRebuild
  split_ifs <;> trivial

lemma afterDelete_swept
    (h : o.performDelete = true → ∀ k ∈ conn.committed, o.Spares files k) :
    (afterDelete o).Swept o files conn := by
  unfold afterDelete
  split_ifs
  · trivial
  · exact h

lemma nextChunk_swept (remote : List RemoteFile) (bounds : List (ℕ × ℕ)) :
    (nextChunk o remote bounds).Swept o files conn := by
  rcases bounds with _ | ⟨bound, rest⟩
  · exact afterRebuild_swept
  · trivial

lemma afterUpload_swept (files' : LocalFileList) (t : Uploader.State) :
    (afterUpload o files' t).Swept o files conn := by
  unfold afterUpload
  split
  · split_ifs with hdelete
    · trivial
    · exact afterDelete_swept fun h => absurd h hdelete
  all_goals trivial

lemma nextBatch_swept {batches : List (List Bytes)} (hworking : conn.working = none)
    (h : ∀ k ∈ conn.committed, o.Spares files k ∨ ∃ b ∈ batches, k ∈ b) :
    (nextBatch o batches).Swept o files conn := by
  have hnone : batches = [] → (afterDelete o).Swept o files conn := by
    rintro rfl
    refine afterDelete_swept fun _ k hk => (h k hk).resolve_right ?_
    rintro ⟨b, hb, -⟩
    cases hb
  rcases batches with _ | ⟨batch, rest⟩
  · exact hnone rfl
  · rw [nextBatch]
    split_ifs with hdry
    · unfold afterDelete
      rw [if_pos hdry]
      trivial
    · trivial
    · exact ⟨hworking, h⟩

/-- Without a fault the batch is gone from the table. -/
lemma storeDeletedBatch_swept {fails : Faults} (hfails : ∀ call, fails call = none)
    (batch : List Bytes) (hworking : conn.working = none) :
    ((FileListStorage.storeDeletedBatch fails batch).runOn conn).2.committed =
        FileListStorage.eraseAll conn.committed batch ∧
      ((FileListStorage.storeDeletedBatch fails batch).runOn conn).2.working = none := by
  have hundisturbed : FileListStorage.Undisturbed fails batch.length :=
    ⟨hfails _, hfails _, fun _ _ => ⟨hfails _, hfails _⟩, hfails _⟩
  rw [FileListStorage.storeDeletedBatch_undisturbed hundisturbed hworking]
  exact ⟨rfl, hworking⟩

lemma afterAuth_swept (response : Option Response) :
    (afterAuth o response).Swept o files conn := by
  unfold afterAuth
  split <;> try split_ifs
  all_goals trivial

lemma afterCreate_swept (response : Option Response) :
    (afterCreate response).Swept o files conn := by
  unfold afterCreate
  split <;> try split_ifs
  all_goals trivial

lemma afterOpen_swept (opened : Bool) : (afterOpen o opened).Swept o files conn := by
  unfold afterOpen
  split_ifs
  · trivial
  · exact afterRebuild_swept
  · trivial

lemma afterList_swept (l : ListStep) : (afterList l).Swept o files conn := by
  rcases l with l | ⟨_ | _, remote⟩ | _ <;> trivial

lemma afterResolve_swept (r : Resolve) : (afterResolve o r).Swept o files conn := by
  unfold afterResolve
  split
  · split_ifs
    · exact afterRebuild_swept
    · trivial
  all_goals trivial

/-- What is to go is in the batches. -/
lemma calculated_swept {fails : Faults} (hfails : ∀ call, fails call = none)
    {filesToDelete : List Bytes} (hrun : (FileListStorage.calculateListOfFilesToDelete fails
      files).runOn s.conn = (some filesToDelete, conn)) :
    (nextBatch o (o.deleter.batches [] filesToDelete)).Swept o files conn := by
  obtain ⟨hcommitted, hlist⟩ := Script.wp_run
    (FileListStorage.calculateListOfFilesToDelete_spec fails files s.conn) hrun
  have hall := Script.wp_run (FileListStorage.calculateListOfFilesToDelete_all
    (fun i => hfails (.fetch i)) files s.conn) hrun filesToDelete rfl
  refine nextBatch_swept (hlist _ rfl).1 fun k hk => ?_
  by_cases hlocal : k ∈ files.paths.map (List.drop 1)
  · exact Or.inl (Or.inl hlocal)
  · by_cases hname : o.deleter.passesOver k = true
    · exact Or.inl (Or.inr hname)
    · right
      have hmem : k ∈ (o.deleter.batches [] filesToDelete).flatten := by
        rw [Deleter.flatten_batches, List.nil_append, List.mem_filter]
        exact ⟨hall k (hcommitted ▸ hk) hlocal, by simpa using hname⟩
      exact List.mem_flatten.mp hmem

/-- **A step of the first run keeps track of the rows that are to go.** -/
theorem Phase.Swept.step (haccounts : s.phase.Accounts o files es s.conn)
    (h : s.phase.Swept o files s.conn) (hs : Main.step o tree s a = some (s', fs))
    (hsweeps : a.Sweeps) : s'.phase.Swept o files s'.conn := by
  cases step_transition hs with
  | auth response hpc => exact afterAuth_swept response
  | create response url hpc => exact afterCreate_swept response
  | opened opened hpc => exact afterOpen_swept opened
  | listed response l hpc => exact afterList_swept _
  | resolved r r' b gs hpc hstep => exact afterResolve_swept r'
  | truncated fails remote conn hpc hrun => exact nextChunk_swept remote _
  | stored fails remote lo hi rest conn hpc hrun => exact nextChunk_swept remote rest
  | uploaded files' t t' b gs hpc hstep => exact afterUpload_swept files' t'
  | calculated fails files' filesToDelete conn hpc hrun =>
      rw [hpc] at haccounts
      obtain ⟨rfl, -, -⟩ := haccounts
      exact calculated_swept hsweeps hrun
  | posted response batch rest xml hpc hxml =>
      rw [hpc] at h
      rw [afterPost, show Deleter.deleteBatch response = some true from hsweeps]
      exact h
  | storedDeleted fails batch rest hpc =>
      rw [hpc] at h
      obtain ⟨hworking, hrows⟩ := h
      obtain ⟨herased, hclosed⟩ := storeDeletedBatch_swept hsweeps batch hworking
      refine nextBatch_swept hclosed fun k hk => ?_
      rw [herased, FileListStorage.mem_eraseAll] at hk
      refine (hrows k hk.1).imp_right ?_
      rintro ⟨b, hb, hkb⟩
      rcases List.mem_cons.mp hb with rfl | hb
      · exact absurd hkb hk.2
      · exact ⟨b, hb, hkb⟩
  | stated answer hpc =>
      rw [hpc] at h
      rcases answer with _ | fileInfo
      · trivial
      · exact h
  | databaseSent attempt fileInfo r exchanged hpc hopens hexchange =>
      rw [hpc] at h
      rcases r.next o.databaseFilePath attempt with _ | (_ | _ | _)
      · trivial
      · exact h
      · trivial
      · trivial
  | _ => trivial

/-- What has no other row when the database is sent stays so. -/
lemma swept_run (hwalk : o.localFileList tree = some files) (hnodup : files.paths.Nodup)
    (hdry : o.uploader.dryRun = false)
    (hfolder : o.performDelete = true → o.uploader.destinationFolder.getD [] = [])
    (h : Run (step o tree) (sweptTree lstat) (start o table) () es s ()) {request : Request}
    {response : Response} (hdatabase : .database request response ∈ es) :
    o.performDelete = true → ∀ k ∈ s.conn.committed, o.Spares files k := by
  have hkeys := Uploader.keysDistinct (u := o.uploader) hnodup (rooted_of_walk hwalk)
  have hall : (∀ e ∈ es, e.stage ≤ s.phase.stage) ∧ s.phase.Accounts o files es s.conn ∧
      s.phase.Swept o files s.conn ∧ ∀ request response, .database request response ∈ es →
        o.performDelete = true → ∀ k ∈ s.conn.committed, o.Spares files k := by
    refine h.invariant (I := fun es s _ => (∀ e ∈ es, e.stage ≤ s.phase.stage) ∧
      s.phase.Accounts o files es s.conn ∧ s.phase.Swept o files s.conn ∧
        ∀ request response, .database request response ∈ es →
          o.performDelete = true → ∀ k ∈ s.conn.committed, o.Spares files k)
      ⟨by simp, ?_, ?_, by simp⟩ ?_
    · unfold start
      split_ifs <;> rfl
    · unfold start
      dsimp only
      split_ifs <;> trivial
    · rintro es t _ a fs t' _ ⟨hle, haccounts, hswept, hsent⟩ hs ⟨hsweeps, -⟩
      refine ⟨(stage_le_append hle hs).2, haccounts.step hwalk hkeys hdry hfolder hs,
        hswept.step haccounts hs hsweeps, fun request response he => ?_⟩
      obtain ⟨hconn, hcase⟩ := database_step hle hs he
      rw [hconn]
      rcases hcase with he | ⟨fileInfo, r, hpc⟩
      · exact hsent request response he
      · rw [hpc] at hswept
        exact hswept
  exact hall.2.2.2 request response hdatabase

/-- **The table is up to date** when the database has been sent. -/
lemma synced_run (hwalk : o.localFileList tree = some files) (hnodup : files.paths.Nodup)
    (hdry : o.uploader.dryRun = false)
    (hfolder : o.performDelete = true → o.uploader.destinationFolder.getD [] = [])
    (hmtimes : ∀ file ∈ files, ∀ fileInfo, Uploader.statOf lstat o.source file = some fileInfo →
      0 < fileInfo.mtime ∧ fileInfo.mtime < 4294967296)
    (h : Run (step o tree) (sweptTree lstat) (start o table) () es s ()) {request : Request}
    {response : Response} (hdatabase : .database request response ∈ es) :
    Synced o files lstat s.conn.committed := by
  refine ⟨?_, swept_run hwalk hnodup hdry hfolder h hdatabase⟩
  have hanswered : ∀ e ∈ es, e.Answered lstat := by
    refine h.invariant (I := fun es _ _ => ∀ e ∈ es, e.Answered lstat) (by simp) ?_
    rintro es t _ a fs t' _ hI - ⟨-, hfs⟩ e he
    exact (List.mem_append.mp he).elim (hI e) (hfs e)
  have haccounted : Accounted o files es s.conn.committed :=
    (accounts_run hwalk hnodup hdry hfolder (h.mapEnv id fun _ => trivial)).2.2 request response
      hdatabase
  intro file hfile fileInfo hstat
  obtain ⟨i, hi⟩ := List.mem_iff_getElem?.mp hfile
  obtain ⟨answer, hevent, hcases⟩ := haccounted i file hi
  have hanswer : answer = lstat (Uploader.pathOf o.source file) := hanswered _ hevent
  obtain ⟨hlstat, hsize⟩ := Option.filter_eq_some_iff.mp hstat
  rw [hlstat] at hanswer
  rcases hcases with hskip | ⟨fileInfo', row, hsome, hrow, hmtime⟩
  · exact absurd (hskip fileInfo hanswer) (by simpa using hsize)
  · obtain rfl := Option.some.inj (hanswer.symm.trans hsome)
    obtain ⟨hpos, hcast⟩ := (Uploader.mtime_kept_iff fileInfo).mpr (hmtimes file hfile _ hstat)
    have hrowOf : Uploader.rowOf { committed := s.conn.committed } (o.uploader.keyOf file) =
        (row.md5, row.mtime) := by
      rw [Uploader.rowOf, Connection.view_of_settled (Uploader.opened_mk _).1, hrow]
    have hsame : row.mtime = fileInfo.mtime64 := hmtime.elim id fun h => h.trans hcast
    rw [Uploader.UpToDate, hrowOf, hsame]
    exact ⟨hcast ▸ hpos, rfl⟩

/-! ## The second run -/

/-- The event checks the credentials, sends the database, or is no request at all. -/
def Event.Checks : Event → Prop
  | .auth _ _ | .create _ _ | .database _ _ => True
  | .upload e => ¬ e.isRequest
  | .list _ _ | .resolve _ | .post _ _ _ => False

/-- Where a run without `--rebuild` stands that has nothing to do. -/
def Phase.Idles (o : Options) (files : LocalFileList) (lstat : Bytes → Option Stat)
    (table : Files) (conn : Db) : Phase → Prop
  | .checkingAuth | .creatingBucket _ | .opening | .walking => conn = { committed := table }
  | .uploading files' t => files' = files ∧ conn = { committed := table } ∧
      ∃ gs, Uploader.Quiet o.uploader files o.source lstat conn gs t
  | .calculating files' => files' = files ∧ o.performDelete = true ∧ conn = { committed := table }
  | .statingDatabase | .uploadingDatabase _ _ | .exited _ | .crashed => conn.committed = table
  | .listing _ | .resolving _ | .truncating _ | .storing _ _ | .deleting _ _
  | .storingDeleted _ _ => False

/-- A run that has nothing to do. -/
structure Untouched (o : Options) (files : LocalFileList) (lstat : Bytes → Option Stat)
    (table : Files) (es : List Event) (s : State) : Prop where
  phase : s.phase.Idles o files lstat table s.conn
  checks : ∀ e ∈ es, e.Checks

lemma afterDelete_idles (h : conn.committed = table) :
    (afterDelete o).Idles o files lstat table conn := by
  unfold afterDelete
  split_ifs <;> exact h

lemma afterRebuild_idles (h : conn = { committed := table }) :
    (afterRebuild o).Idles o files lstat table conn := by
  unfold afterRebuild
  split_ifs
  · exact h
  · exact congrArg Connection.committed h

lemma afterUpload_idles {t : Uploader.State} {gs : List Uploader.Event}
    (h : conn = { committed := table })
    (hquiet : Uploader.Quiet o.uploader files o.source lstat conn gs t) :
    (afterUpload o files t).Idles o files lstat table conn := by
  have hcommitted : conn.committed = table := congrArg Connection.committed h
  unfold afterUpload
  split
  · split_ifs with hdelete
    · exact ⟨rfl, hdelete, h⟩
    · exact afterDelete_idles hcommitted
  · exact hcommitted
  · exact hcommitted
  · exact hcommitted
  · exact ⟨rfl, h, gs, hquiet⟩

/-- Where every path is passed over, there is no batch. -/
lemma batches_eq_nil {d : Deleter} {paths : List Bytes}
    (h : ∀ path ∈ paths, d.passesOver path = true) : d.batches [] paths = [] := by
  induction paths with
  | nil => rfl
  | cons path rest ih =>
      rw [Deleter.batches, if_pos (h path List.mem_cons_self)]
      exact ih fun path hpath => h path (List.mem_cons_of_mem _ hpath)

lemma afterAuth_idles (response : Option Response) (h : conn = { committed := table }) :
    (afterAuth o response).Idles o files lstat table conn := by
  have hcommitted : conn.committed = table := congrArg Connection.committed h
  unfold afterAuth
  split <;> try split_ifs
  all_goals first | exact h | exact hcommitted

lemma afterCreate_idles (response : Option Response) (h : conn = { committed := table }) :
    (afterCreate response).Idles o files lstat table conn := by
  have hcommitted : conn.committed = table := congrArg Connection.committed h
  unfold afterCreate
  split <;> try split_ifs
  all_goals first | exact h | exact hcommitted

lemma afterOpen_idles (hfresh : o.performRebuild = false) (opened : Bool)
    (h : conn = { committed := table }) :
    (afterOpen o opened).Idles o files lstat table conn := by
  unfold afterOpen
  split_ifs with hopened hrebuild
  · rw [hfresh] at hrebuild
    cases hrebuild
  · exact afterRebuild_idles h
  · exact congrArg Connection.committed h

/-- **A step of the second run leaves the table alone.** -/
theorem Untouched.step (hsynced : Synced o files lstat table)
    (hwalk : o.localFileList tree = some files) (hfresh : o.performRebuild = false)
    (h : Untouched o files lstat table es s) (hs : Main.step o tree s a = some (s', fs))
    (hanswered : ∀ e ∈ fs, e.Answered lstat) : Untouched o files lstat table (es ++ fs) s' := by
  obtain ⟨hphase, hchecks⟩ := h
  have happend : (∀ e ∈ fs, e.Checks) → ∀ e ∈ es ++ fs, e.Checks := fun hfs e he =>
    (List.mem_append.mp he).elim (hchecks e) (hfs e)
  have hsent : ∀ {e : Response → Event} {response : Option Response}, (∀ r, (e r).Checks) →
      ∀ e' ∈ sent e response, e'.Checks := by
    intro e response he e' he'
    obtain ⟨r, -, rfl⟩ := mem_sent he'
    exact he r
  cases step_transition hs with
  | auth response hpc =>
      rw [hpc] at hphase
      exact ⟨afterAuth_idles response hphase, happend (hsent fun _ => trivial)⟩
  | create response url hpc =>
      rw [hpc] at hphase
      exact ⟨afterCreate_idles response hphase, happend (hsent fun _ => trivial)⟩
  | opened opened hpc =>
      rw [hpc] at hphase
      exact ⟨afterOpen_idles hfresh opened hphase, happend (by simp)⟩
  | walkCrashed hpc hnone =>
      rw [hpc] at hphase
      exact ⟨congrArg Connection.committed hphase, happend (by simp)⟩
  | walked files' hpc hwalk' =>
      rw [hpc] at hphase
      obtain rfl := Option.some.inj (hwalk'.symm.trans hwalk)
      exact ⟨⟨rfl, hphase, [], rfl, fun _ => rfl, by simp, by simp, by simp⟩, happend (by simp)⟩
  | uploaded files' t t' b gs hpc hstep =>
      rw [hpc] at hphase
      obtain ⟨rfl, hconn, gs₀, hquiet⟩ := hphase
      have hans : Uploader.Answered lstat b gs := fun e he => hanswered _ (List.mem_map_of_mem he)
      have hquiet' := hquiet.transition (hconn ▸ hsynced.rows) (Uploader.step_transition hstep) hans
      have hsame : t'.conn = s.conn := hquiet'.conn
      refine ⟨?_, happend fun e he => ?_⟩
      · dsimp only
        rw [hsame]
        exact afterUpload_idles hconn hquiet'
      · obtain ⟨e', he', rfl⟩ := List.mem_map.mp he
        exact hquiet'.requests e' (List.mem_append_right _ he')
  | calculateFailed fails files' conn hpc hrun =>
      rw [hpc] at hphase
      obtain ⟨rfl, -, hconn⟩ := hphase
      have hsame : conn.committed = s.conn.committed := (Script.wp_run
        (FileListStorage.calculateListOfFilesToDelete_spec fails files' s.conn) hrun).1
      exact ⟨hsame.trans (congrArg Connection.committed hconn), happend (by simp)⟩
  | calculated fails files' filesToDelete conn hpc hrun =>
      rw [hpc] at hphase
      obtain ⟨rfl, hdelete, hconn⟩ := hphase
      obtain ⟨hsame, hlist⟩ := Script.wp_run
        (FileListStorage.calculateListOfFilesToDelete_spec fails files' s.conn) hrun
      have hcommitted : s.conn.committed = table := congrArg Connection.committed hconn
      -- what is to go by the table is passed over
      have hnone : o.deleter.batches [] filesToDelete = [] := by
        refine batches_eq_nil fun path hpath => ?_
        obtain ⟨hrow, hlocal⟩ := (hlist _ rfl).2 path hpath
        exact (hsynced.spared hdelete path (hcommitted ▸ hrow)).resolve_left hlocal
      refine ⟨?_, happend (by simp)⟩
      dsimp only
      rw [hnone]
      exact afterDelete_idles (hsame.trans hcommitted)
  | stated answer hpc =>
      rw [hpc] at hphase
      refine ⟨?_, happend (by simp)⟩
      rcases answer with _ | fileInfo <;> exact hphase
  | databaseSent attempt fileInfo r exchanged hpc hopens hexchange =>
      rw [hpc] at hphase
      refine ⟨?_, happend fun e he => ?_⟩
      · dsimp only
        rcases r.next o.databaseFilePath attempt with _ | (_ | _ | _) <;> exact hphase
      · obtain ⟨p, -, rfl⟩ := List.mem_map.mp he
        trivial
  | databaseLost attempt fileInfo r hpc hopens hexchange =>
      rw [hpc] at hphase
      exact ⟨hphase, happend (by simp)⟩
  | listed _ _ hpc | resolved _ _ _ _ hpc _ | truncateFailed _ _ _ hpc _ | truncated _ _ _ hpc _
  | storeFailed _ _ _ _ _ _ hpc _ | stored _ _ _ _ _ _ hpc _ | unposted _ _ _ hpc _
  | posted _ _ _ _ hpc _ | storedDeleted _ _ _ hpc =>
      rw [hpc] at hphase
      exact hphase.elim

/-- A run without `--rebuild` from a table that is up to date does nothing but check. -/
lemma untouched_run (hsynced : Synced o files lstat table)
    (hwalk : o.localFileList tree = some files) (hfresh : o.performRebuild = false)
    (h : Run (step o tree) (unchangedTree lstat) (start o table) () es s ()) :
    Untouched o files lstat table es s := by
  refine h.invariant (I := fun es s _ => Untouched o files lstat table es s) ⟨?_, by simp⟩ ?_
  · unfold start
    dsimp only
    split_ifs <;> rfl
  · rintro es t _ a fs t' _ hI hs hanswered
    exact hI.step hsynced hwalk hfresh hs hanswered

/-- Wherever it stands, the table is as it was. -/
lemma Phase.Idles.committed {phase : Phase} (h : phase.Idles o files lstat table conn) :
    conn.committed = table := by
  cases phase with
  | checkingAuth | creatingBucket _ | opening | walking => exact congrArg Connection.committed h
  | uploading _ _ => exact congrArg Connection.committed h.2.1
  | calculating _ => exact congrArg Connection.committed h.2.2
  | statingDatabase | uploadingDatabase _ _ | exited _ | crashed => exact h
  | listing _ | resolving _ | truncating _ | storing _ _ | deleting _ _ | storingDeleted _ _ =>
      exact h.elim

/-- **A second run has nothing to do.**  A first run has sent the database, and its deletion, if any,
did not fail; while it and the second run look at the files they do not change, and their mtimes are
positive and fit 32 bits.  Then the second run, without `--rebuild`, sends no request but for the
check of the credentials and the database, and changes no row: whatever fails in it and wherever it
is stopped. -/
theorem second_run_idle (hwalk : o.localFileList tree = some files) (hnodup : files.paths.Nodup)
    (hdry : o.uploader.dryRun = false)
    (hfolder : o.performDelete = true → o.uploader.destinationFolder.getD [] = [])
    (hmtimes : ∀ file ∈ files, ∀ fileInfo, Uploader.statOf lstat o.source file = some fileInfo →
      0 < fileInfo.mtime ∧ fileInfo.mtime < 4294967296)
    (h : Run (step o tree) (sweptTree lstat) (start o table) () es s ()) {request : Request}
    {response : Response} (hdatabase : .database request response ∈ es)
    (h' : Run (step { o with performRebuild := false } tree) (unchangedTree lstat)
      (start { o with performRebuild := false } s.conn.committed) () fs s' ()) :
    (∀ e ∈ fs, e.Checks) ∧ s'.conn.committed = s.conn.committed := by
  have hsynced := synced_run hwalk hnodup hdry hfolder hmtimes h hdatabase
  have huntouched := untouched_run (o := { o with performRebuild := false })
    ⟨hsynced.rows, hsynced.spared⟩ hwalk rfl h'
  exact ⟨huntouched.checks, huntouched.phase.committed⟩

/-- The same file again: it is up to date, nothing is to be deleted, and the database is sent. -/
def sampleSecond : List Action :=
  [.auth (some accepted), .openDatabase true, .walk, .upload .check,
    .upload (.stat (some ⟨0x81A4, 3, 1000, 0, 0⟩)), .upload (.lookup noFaults), .upload .check,
    .upload .join, .calculate noFaults, .stat (some ⟨0x81A4, 3, 1000, 0, 0⟩),
    .database (.performed ⟨some (ascii "root"), some (ascii "root"), none⟩ accepted)]

theorem second_run_idle_sample :
    ∃ es s fs s', Run (step (sampleOptions [] [] false [])
        (.dir true (.cons (ascii "b") .reg (some 3) (.leaf .regular) .nil)))
        (sweptTree fun _ => some ⟨0x81A4, 3, 1000, 0, 0⟩)
        (start (sampleOptions [] [] false []) (oneRow (ascii "a"))) () es s () ∧
      Run (step (sampleOptions [] [] false [])
        (.dir true (.cons (ascii "b") .reg (some 3) (.leaf .regular) .nil)))
        (unchangedTree fun _ => some ⟨0x81A4, 3, 1000, 0, 0⟩)
        (start (sampleOptions [] [] false []) s.conn.committed) () fs s' () ∧
      (∃ request response, .database request response ∈ fs) ∧ (∀ e ∈ fs, e.Checks) ∧
      s'.conn.committed = s.conn.committed := by
  obtain ⟨es, s, hrun, ⟨e, he, hsends⟩, htable⟩ := run_of_exec_mem
    (step (sampleOptions [] [] false [])
      (.dir true (.cons (ascii "b") .reg (some 3) (.leaf .regular) .nil)))
    (start (sampleOptions [] [] false []) (oneRow (ascii "a"))) sampleWhole
    (fun _ es => ∀ e ∈ es, e.Answered fun _ => some ⟨0x81A4, 3, 1000, 0, 0⟩)
    (fun es s => (∃ e ∈ es, e.sendsDatabase = true) ∧
      s.conn.committed.entries = (oneRow (ascii "b")).entries) (by decide)
  obtain ⟨request, response, rfl⟩ := Event.sendsDatabase_iff.mp hsends
  have hswept : Run (step (sampleOptions [] [] false [])
      (.dir true (.cons (ascii "b") .reg (some 3) (.leaf .regular) .nil)))
      (sweptTree fun _ => some ⟨0x81A4, 3, 1000, 0, 0⟩)
      (start (sampleOptions [] [] false []) (oneRow (ascii "a"))) () es s () := by
    refine hrun.mapEnv id fun {x a fs y} h => ⟨?_, h.2⟩
    cases a with
    | calculate fails | storeDeleted fails =>
        obtain rfl : fails = noFaults := by simpa [sampleWhole] using h.1
        exact fun _ => rfl
    | post response =>
        obtain rfl : response = some accepted := by simpa [sampleWhole] using h.1
        show Deleter.deleteBatch (some accepted) = some true
        decide
    | _ => trivial
  obtain ⟨fs, s', hrun', e', he', hsends'⟩ := run_of_exec (step (sampleOptions [] [] false [])
      (.dir true (.cons (ascii "b") .reg (some 3) (.leaf .regular) .nil)))
    (start (sampleOptions [] [] false []) (oneRow (ascii "b"))) sampleSecond
    (fun _ es => ∀ e ∈ es, e.Answered fun _ => some ⟨0x81A4, 3, 1000, 0, 0⟩)
    (fun es _ => ∃ e ∈ es, e.sendsDatabase = true) (by decide)
  obtain ⟨request', response', rfl⟩ := Event.sendsDatabase_iff.mp hsends'
  rw [← AList.ext htable] at hrun'
  refine ⟨es, s, fs, s', hswept, hrun', ⟨request', response', he'⟩, ?_⟩
  refine second_run_idle rfl (by decide) rfl (fun _ => rfl) ?_ hswept he hrun'
  intro file _ fileInfo hstat
  obtain rfl : (⟨0x81A4, 3, 1000, 0, 0⟩ : Stat) = fileInfo := by
    simpa [Uploader.statOf, Option.filter_some, MAX_S3_FILE_SIZE] using hstat
  decide

end Main

end Clarc
