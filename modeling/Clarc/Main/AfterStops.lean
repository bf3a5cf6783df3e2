import Clarc.Core.Ending
import Clarc.Main.Mirror

/-!
# Runs that are stopped before one that is not

A run can be stopped at any point, by the user or by a failure, and started again on the database
that it left.  Without `--rebuild` no run looks at the bucket, so each has to leave behind what the
next one needs: every key that is neither a local file's nor a name of the database has its row, for
a row goes only after its object; and every row of a local file has its object, for an object comes
before its row.

* `Kept.step` — **a step keeps both**, whatever fails and whatever the server answers, if it tells
  the truth about the batches it accepts;
* `mirrored_after_stops` — **however many runs were stopped before it, and wherever, a run that
  sends the database leaves the bucket as a mirror of the tree.**
-/

namespace Clarc

open Bytes Reactive Sqlite RemoteListOfFiles

namespace Main

/-! ## What a run leaves behind -/

/-- A batch that counts as deleted is gone. -/
def Action.Erases (es : List Event) (keys' : Set Bytes) : Action → Prop
  | .post response => Deleter.deleteBatch response = some true →
      ∀ batch request r, .post batch request r ∈ es → ∀ k ∈ batch, k ∉ keys'
  | _ => True

/-- A bucket that nobody else writes to, and that tells the truth about what it has deleted.  Any
request may fail, and one that fails may have had its effect. -/
def truthfulBucket (o : Options) : Environment (Set Bytes) Action Event := fun keys a es keys' =>
  agreeingBucket o keys a es keys' ∧ a.Erases es keys'

/-- What the next run needs: the table knows the keys that are to go, and knows of no local file
that is not there. -/
structure Resumable (o : Options) (files : LocalFileList) (table : Files) (keys : Set Bytes) :
    Prop where
  known : ∀ k ∈ keys, Owned o files k ∨ k ∈ table
  backed : ∀ k ∈ table, Local o files k → k ∈ keys

variable {o : Options} {tree : Node} {files : LocalFileList} {table table' : Files} {s s' : State}
  {a : Action} {es fs : List Event} {keys keys' keys₀ : Set Bytes} {k : Bytes}

/-- A deletion that succeeds has not been lied about. -/
lemma mirrorBucket.truthful (h : mirrorBucket o keys a fs keys') :
    truthfulBucket o keys a fs keys' := by
  refine ⟨h.1, ?_⟩
  cases a with
  | post response => exact fun _ => h.2.2
  | _ => trivial

/-- Where a run without `--rebuild` can stand, and that the batch is gone whose rows go next. -/
def Phase.Resumes (keys : Set Bytes) : Phase → Prop
  | .listing _ | .resolving _ | .truncating _ | .storing _ _ => False
  | .storingDeleted batch _ => ∀ k ∈ batch, k ∉ keys
  | .checkingAuth | .creatingBucket _ | .opening | .walking | .uploading _ _ | .calculating _
  | .deleting _ _ | .statingDatabase | .uploadingDatabase _ _ | .exited _ | .crashed => True

lemma Phase.Idle.resumes {phase : Phase} (h : phase.Idle) : phase.Resumes keys := by
  rcases phase <;> first | exact h.elim | trivial

lemma afterOpen_resumes (hfresh : o.performRebuild = false) (opened : Bool) :
    (afterOpen o opened).Resumes keys := by
  unfold afterOpen
  split_ifs with hopened hrebuild
  · rw [hfresh] at hrebuild
    cases hrebuild
  · exact afterRebuild_idle.resumes
  · trivial

lemma afterUpload_resumes (t : Uploader.State) : (afterUpload o files t).Resumes keys := by
  unfold afterUpload
  split <;> try split_ifs
  · trivial
  · exact afterDelete_idle.resumes
  all_goals trivial

lemma nextBatch_resumes (batches : List (List Bytes)) : (nextBatch o batches).Resumes keys := by
  rcases batches with _ | ⟨batch, rest⟩
  · exact afterDelete_idle.resumes
  · rw [nextBatch]
    split_ifs
    · exact afterDelete_idle.resumes
    · trivial
    · trivial

/-- A row goes only with the batch whose objects are gone. -/
lemma row_kept (hresumes : s.phase.Resumes keys) (haccounts : s.phase.Accounts o files es s.conn)
    (hs : step o tree s a = some (s', fs)) (hk : k ∈ keys) (hrow : k ∈ s.conn.committed) :
    k ∈ s'.conn.committed := by
  cases step_transition hs with
  | listed _ _ hpc | resolved _ _ _ _ hpc _ | truncateFailed _ _ _ hpc _ | truncated _ _ _ hpc _
  | storeFailed _ _ _ _ _ _ hpc _ | stored _ _ _ _ _ _ hpc _ =>
      rw [hpc] at hresumes
      exact hresumes.elim
  | uploaded files' t t' b gs hpc hstep =>
      rw [hpc] at haccounts
      obtain ⟨rfl, hconn, conn₀, gs₀, -, -, hledger⟩ := haccounts
      exact upload_committed (Uploader.step_transition hstep) hledger.settled (hconn ▸ hrow)
  | calculateFailed fails files' conn hpc hrun | calculated fails files' _ conn hpc hrun =>
      have hspec := FileListStorage.calculateListOfFilesToDelete_spec fails files' s.conn
      have hsame : conn.committed = s.conn.committed := (Script.wp_run hspec hrun).1
      dsimp only
      rwa [hsame]
  | storedDeleted fails batch rest hpc =>
      rw [hpc] at hresumes
      have hbatch : k ∉ batch := fun hmem => hresumes k hmem hk
      rw [← AList.lookup_isSome] at hrow ⊢
      dsimp only
      rwa [storeDeletedBatch_rows fails hbatch]
  | _ => exact hrow

/-- What holds in a run without `--rebuild`, in every state it can be stopped in. -/
structure Kept (o : Options) (tree : Node) (files : LocalFileList) (keys₀ : Set Bytes)
    (es : List Event) (s : State) (keys : Set Bytes) : Prop where
  backing : Backing o tree files keys₀ es s keys
  resumes : s.phase.Resumes keys
  known : ∀ k ∈ keys, Owned o files k ∨ k ∈ s.conn.committed

lemma kept_start (h : Resumable o files table keys) :
    Kept o tree files keys [] (start o table) keys where
  backing := backing_start fun _ => h.backed
  resumes := by
    unfold start
    dsimp only
    split_ifs <;> trivial
  known := h.known

section
variable (hwalk : o.localFileList tree = some files) (hnodup : files.paths.Nodup)
  (hdry : o.uploader.dryRun = false) (hfolder : o.uploader.destinationFolder.getD [] = [])
  (hfresh : o.performRebuild = false)
include hwalk hnodup hdry hfolder hfresh

/-- **A step keeps the rows of what is to go, and the objects of the local rows.** -/
theorem Kept.step (h : Kept o tree files keys₀ es s keys)
    (hs : Main.step o tree s a = some (s', fs)) (henv : truthfulBucket o keys a fs keys') :
    Kept o tree files keys₀ (es ++ fs) s' keys' := by
  obtain ⟨hagreeing, herases⟩ := henv
  refine ⟨h.backing.step hwalk hfolder hnodup hdry hs hagreeing, ?_, fun k hk => ?_⟩
  · have hresumes := h.resumes
    cases step_transition hs with
    | auth response hpc => exact (afterAuth_idle response).resumes
    | create response url hpc => exact (afterCreate_idle response).resumes
    | opened opened hpc => exact afterOpen_resumes hfresh opened
    | uploaded files' t t' b gs hpc hstep => exact afterUpload_resumes t'
    | calculated fails files' filesToDelete conn hpc hrun => exact nextBatch_resumes _
    | posted response batch rest xml hpc hxml =>
        dsimp only [afterPost]
        rcases hbatch : Deleter.deleteBatch response with _ | _ | _
        · trivial
        · exact afterDelete_idle.resumes
        · -- a batch that counts as deleted was sent
          rcases response with _ | r
          · cases hbatch
          · exact herases hbatch batch _ r (List.mem_singleton_self _)
    | storedDeleted fails batch rest hpc => exact nextBatch_resumes rest
    | stated answer hpc => exact (afterStat_idle answer).resumes
    | databaseSent attempt fileInfo r exchanged hpc hopens hexchange =>
        exact (afterDatabase_idle fileInfo _).resumes
    | listed _ _ hpc | resolved _ _ _ _ hpc _ | truncated _ _ _ hpc _ | stored _ _ _ _ _ _ hpc _ =>
        rw [hpc] at hresumes
        exact hresumes.elim
    | _ => trivial
  · rcases h.backing.new hwalk hs hagreeing.1 hk with hold | howned
    · exact (h.known k hold).imp_right (row_kept h.resumes h.backing.accounts hs hold)
    · exact Or.inl howned

/-- What a run leaves behind, wherever it stops. -/
lemma resumable_run (h : Resumable o files table keys)
    (hrun : Run (Main.step o tree) (truthfulBucket o) (start o table) keys es s keys') :
    Resumable o files s.conn.committed keys' := by
  have hkept : Kept o tree files keys es s keys' :=
    hrun.invariant (I := fun es s keys' => Kept o tree files keys es s keys') (kept_start h)
      fun hI hs henv => hI.step hwalk hnodup hdry hfolder hfresh hs henv
  refine ⟨hkept.known, fun k hk hlocal => ?_⟩
  have hbacking := hkept.backing
  exact hbacking.object hwalk hfolder
    ((hbacking.confined.table (Or.inl hfresh)).committed k hk) hlocal

/-- **The bucket mirrors the tree in the end.**  The runs have no `--rebuild` and no destination
folder; the first begins with a table and a bucket that agree, such as two empty ones.  Runs are
stopped anywhere, any number of times, whatever fails in them.  When a run with `--delete` whose
deletion succeeds then sends the database, each local file is in the bucket, unless it could not be
read or is too large, and every key of the bucket belongs to a local file or is a name of the
database. -/
theorem mirrored_after_stops (hdelete : o.performDelete = true)
    (h : Resumable o files table keys₀)
    (hstops : Restarted (Main.step o tree) (truthfulBucket o) (start o) (fun s => s.conn.committed)
      table keys₀ table' keys)
    (hrun : Run (Main.step o tree) (mirrorBucket o) (start o table') keys es s keys')
    {request : Request} {response : Response} (hdatabase : .database request response ∈ es) :
    Uploaded o files es keys' ∧ ∀ k ∈ keys', Owned o files k := by
  have hresumable : Resumable o files table' keys :=
    hstops.invariant (I := Resumable o files) h fun hI hrun =>
      resumable_run hwalk hnodup hdry hfolder hfresh hI hrun
  refine (mirroring_run hwalk hnodup hdry hdelete hfolder (fun _ => hresumable.backed) hrun).sent
    (fun k hk => (hresumable.known k hk).imp_right fun hrow => ?_) hdatabase
  rwa [Known, hfresh, if_neg (by decide)]

end

/-! ## One run, stopped -/

/-- The last request is the PUT of the key. -/
def endsWithPut (key : Bytes) (es : List Event) : Bool :=
  es.getLast?.any fun e => match e with
    | .upload (.put c _ _) => c.path == key
    | _ => false

lemma mem_of_endsWithPut (h : endsWithPut k es = true) : k ∈ es.foldl (Event.granted o) keys := by
  rcases List.eq_nil_or_concat es with rfl | ⟨rest, e, rfl⟩
  · cases h
  · rw [List.concat_eq_append] at h ⊢
    rw [endsWithPut, List.getLast?_concat, Option.any_some] at h
    split at h
    · obtain rfl := eq_of_beq h
      rw [List.foldl_concat]
      exact Set.mem_insert _ _
    · cases h

theorem mirrored_after_stops_sample :
    ∃ files table' keys es s keys', (sampleOptions [] [] false []).localFileList
        (.dir true (.cons (ascii "b") .reg (some 3) (.leaf .regular) .nil)) = some files ∧
      files.paths = [ascii "/b"] ∧ ascii "b" ∈ keys ∧ ascii "b" ∉ table' ∧
      Restarted (step (sampleOptions [] [] false [])
        (.dir true (.cons (ascii "b") .reg (some 3) (.leaf .regular) .nil)))
        (truthfulBucket (sampleOptions [] [] false [])) (start (sampleOptions [] [] false []))
        (fun s => s.conn.committed) (oneRow (ascii "a")) {ascii "a"} table' keys ∧
      Run (step (sampleOptions [] [] false [])
        (.dir true (.cons (ascii "b") .reg (some 3) (.leaf .regular) .nil)))
        (mirrorBucket (sampleOptions [] [] false []))
        (start (sampleOptions [] [] false []) table') keys es s keys' ∧
      Uploaded (sampleOptions [] [] false []) files es keys' ∧
      ∀ k ∈ keys', Owned (sampleOptions [] [] false []) files k := by
  -- the first run is stopped between the PUT and its row
  obtain ⟨es, s, hrun, hput, htable⟩ := run_of_exec_mem (step (sampleOptions [] [] false [])
    (.dir true (.cons (ascii "b") .reg (some 3) (.leaf .regular) .nil)))
    (start (sampleOptions [] [] false []) (oneRow (ascii "a"))) (sampleWhole.take 8)
    (fun _ es => Granted es) (fun es s => endsWithPut (ascii "b") es = true ∧
      s.conn.committed.entries = (oneRow (ascii "a")).entries) (by decide)
  have hstopped := granted_run {ascii "a"} (fun a fs h => ⟨h.2, by
      rintro fails rfl
      simpa [sampleWhole] using h.1, by
      rintro response rfl
      simpa [sampleWhole] using h.1⟩) hrun
  have hstops : Restarted (step (sampleOptions [] [] false [])
      (.dir true (.cons (ascii "b") .reg (some 3) (.leaf .regular) .nil)))
      (truthfulBucket (sampleOptions [] [] false [])) (start (sampleOptions [] [] false []))
      (fun s => s.conn.committed) (oneRow (ascii "a")) {ascii "a"} s.conn.committed _ :=
    Restarted.never.stop (hstopped.mapEnv id mirrorBucket.truthful)
  rw [AList.ext htable] at hstops
  -- the second one is not
  obtain ⟨es', s', hrun', e, he, hsends⟩ := run_of_exec_mem (step (sampleOptions [] [] false [])
    (.dir true (.cons (ascii "b") .reg (some 3) (.leaf .regular) .nil)))
    (start (sampleOptions [] [] false []) (oneRow (ascii "a"))) sampleWhole
    (fun _ es => Granted es) (fun es _ => ∃ e ∈ es, e.sendsDatabase = true) (by decide)
  obtain ⟨request, response, rfl⟩ := Event.sendsDatabase_iff.mp hsends
  have hmirror := granted_run (es.foldl (Event.granted (sampleOptions [] [] false []))
    {ascii "a"}) (fun a fs h => ⟨h.2, by
      rintro fails rfl
      simpa [sampleWhole] using h.1, by
      rintro response rfl
      exact ⟨accepted, by simpa [sampleWhole] using h.1, rfl, rfl⟩⟩) hrun'
  refine ⟨_, oneRow (ascii "a"), _, es', s', _, rfl, by decide, mem_of_endsWithPut hput,
    by decide, hstops, hmirror, ?_⟩
  refine mirrored_after_stops rfl (by decide) rfl rfl rfl rfl ⟨?_, ?_⟩ hstops hmirror he
  · rintro k rfl
    exact Or.inr ((AList.mem_insert _).mpr (Or.inl rfl))
  · exact fun k hk _ => mem_oneRow hk

end Main

end Clarc
