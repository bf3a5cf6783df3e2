import Clarc.Main.Main
import Clarc.Upload.Covered

/-!
# Where the keys of the table and of the deletions come from

Three ways lead into the files table: a listing of the bucket, a file that is uploaded, and the
table as it was before.  `Confined` follows an arbitrary set of keys along all of them, from the
listing to the batches that are posted: as long as listings and uploads stay within the set, so do
the table and the deletions.  The set may grow from step to step.

* `Confined.step` — **a step keeps the table and the batches within the set, and posts only keys
  that are no listed local path and no name of the database.**
-/

namespace Clarc

open Bytes Reactive Sqlite RemoteListOfFiles

namespace Main

variable (o : Options) (tree : Node)

/-- A file that the walk lists has the key. -/
def Options.Keys (k : Bytes) : Prop :=
  ∃ files, o.localFileList tree = some files ∧ ∃ file ∈ files, o.uploader.keyOf file = k

/-- There is a list of local files, the key is none of its paths, and no name of the database. -/
def Options.Deletable (k : Bytes) : Prop :=
  (∃ files, o.localFileList tree = some files ∧ k ∉ files.paths.map (List.drop 1)) ∧
    o.deleter.passesOver k = false

/-- The rebuild is behind the process, or was not asked for. -/
def Phase.rebuilt : Phase → Bool
  | .storing _ _ | .walking | .uploading _ _ | .calculating _ | .deleting _ _
  | .storingDeleted _ _ | .statingDatabase | .uploadingDatabase _ _ => true
  | .checkingAuth | .creatingBucket _ | .opening | .listing _ | .resolving _ | .truncating _
  | .exited _ | .crashed => false

/-- What the process holds besides the table stays within the set. -/
def Phase.Confined (fresh : Prop) (K : Bytes → Prop) (conn : Db) : Phase → Prop
  | .listing l => ∀ f ∈ l.files, K f.path
  | .resolving r => ∃ files, Resolving (fun _ _ => True) files r ∧ ∀ f ∈ files, K f.path
  | .truncating remote | .storing remote _ => ∀ f ∈ remote, K f.path
  | .uploading files t => o.localFileList tree = some files ∧ t.conn = conn ∧
      Uploader.Keyed o.uploader files t ∧
      (fresh ∨ o.uploader.dryRun = false → Uploader.Covered K t)
  | .calculating files => o.localFileList tree = some files
  | .deleting batch rest | .storingDeleted batch rest => o.uploader.dryRun = false ∧
      ∀ b ∈ batch :: rest, ∀ k ∈ b, K k ∧ o.Deletable tree k
  | .checkingAuth | .creatingBucket _ | .opening | .walking | .statingDatabase
  | .uploadingDatabase _ _ | .exited _ | .crashed => True

/-- The table stays within the set from the rebuild on, or from the beginning when it was within
the set there (`fresh`). -/
structure Confined (fresh : Prop) (K : Bytes → Prop) (s : State) : Prop where
  table : fresh ∨ (o.uploader.dryRun = false ∧ s.phase.rebuilt = true) → s.conn.Within K
  phase : s.phase.Confined o tree fresh K s.conn

variable {o tree} {fresh : Prop} {K K' : Bytes → Prop} {s s' : State} {a : Action}
  {es : List Event} {conn : Db}

/-! ## What comes next -/

lemma Phase.Idle.confined {phase : Phase} (h : phase.Idle) :
    phase.Confined o tree fresh K conn := by
  rcases phase <;> trivial

lemma nextBatch_confined {batches : List (List Bytes)}
    (h : o.uploader.dryRun = false → ∀ b ∈ batches, ∀ k ∈ b, K k ∧ o.Deletable tree k) :
    (nextBatch o batches).Confined o tree fresh K conn := by
  rcases batches with _ | ⟨batch, rest⟩
  · exact afterDelete_idle.confined
  · rw [nextBatch]
    split_ifs with hdry
    · exact afterDelete_idle.confined
    · trivial
    · have hdry' : o.uploader.dryRun = false := by simpa using hdry
      exact ⟨hdry', h hdry'⟩

lemma nextChunk_confined {remote : List RemoteFile} (bounds : List (ℕ × ℕ))
    (h : ∀ f ∈ remote, K f.path) : (nextChunk o remote bounds).Confined o tree fresh K conn := by
  rcases bounds with _ | ⟨_, _⟩
  · exact afterRebuild_idle.confined
  · exact h

lemma afterList_confined {l : ListStep} (h : ∀ f ∈ l.files, K f.path) :
    (afterList l).Confined o tree fresh K conn := by
  rcases l with l | ⟨_ | _, files⟩ | _
  · exact h
  · trivial
  · exact ⟨files, resolving_start, h⟩
  · trivial

lemma afterList_rebuilt (l : ListStep) : (afterList l).rebuilt = false := by
  rcases l with l | ⟨_ | _, files⟩ | _ <;> rfl

lemma afterResolve_confined {files : List RemoteFile} {r : Resolve}
    (hr : Resolving (fun _ _ => True) files r) (h : ∀ f ∈ files, K f.path) :
    (afterResolve o r).Confined o tree fresh K conn := by
  have hfiles : ∀ f ∈ r.files, K f.path := by
    intro f hf
    have hmem : (f.path, f.md5) ∈ files.map fun f => (f.path, f.md5) := by
      rw [← hr.same]
      exact List.mem_map_of_mem hf
    obtain ⟨g, hg, heq⟩ := List.mem_map.mp hmem
    rw [← (Prod.mk.inj heq).1]
    exact h g hg
  unfold afterResolve
  split
  · split_ifs
    · exact afterRebuild_idle.confined
    · exact hfiles
  · trivial
  · trivial
  · trivial
  · exact ⟨files, hr, h⟩

lemma afterResolve_rebuilt {r : Resolve} (h : (afterResolve o r).rebuilt = true) :
    o.uploader.dryRun = true := by
  by_contra hdry
  unfold afterResolve at h
  split at h
  · rw [if_neg hdry] at h
    cases h
  all_goals cases h

lemma afterUpload_confined {files : LocalFileList} {t : Uploader.State}
    (hfiles : o.localFileList tree = some files) (hkeyed : Uploader.Keyed o.uploader files t)
    (hcovered : fresh ∨ o.uploader.dryRun = false → Uploader.Covered K t) :
    (afterUpload o files t).Confined o tree fresh K t.conn := by
  unfold afterUpload
  split
  · split_ifs
    · exact hfiles
    · exact afterDelete_idle.confined
  · trivial
  · trivial
  · trivial
  · exact ⟨hfiles, rfl, hkeyed, hcovered⟩

/-- The batches have keys of the table that are to be deleted. -/
lemma batches_confined {files : LocalFileList} {fails : Faults} {filesToDelete : List Bytes}
    {conn' : Db} (hfiles : o.localFileList tree = some files) (hconn : conn.Within K)
    (h : (FileListStorage.calculateListOfFilesToDelete fails files).runOn conn =
      (some filesToDelete, conn')) :
    ∀ b ∈ o.deleter.batches [] filesToDelete, ∀ k ∈ b, K k ∧ o.Deletable tree k := by
  intro b hb k hk
  obtain ⟨hmem, hpass⟩ := Deleter.mem_of_mem_batches hb hk
  obtain ⟨hcommitted, hlocal⟩ := (Script.wp_run
    (FileListStorage.calculateListOfFilesToDelete_spec fails files conn) h).2 _ rfl |>.2 k hmem
  exact ⟨hconn.committed k hcommitted, ⟨files, hfiles, hlocal⟩, hpass⟩

/-! ## Steps -/

/-- What a listing response brings. -/
def Event.Lists (K : Bytes → Prop) : Event → Prop
  | .list _ response => response.Lists K
  | .auth _ _ | .create _ _ | .resolve _ | .upload _ | .post _ _ _ | .database _ _ => True

lemma Event.Lists.mono {e : Event} (h : e.Lists K) (hK : ∀ k, K k → K' k) : e.Lists K' := by
  rcases e with _ | _ | ⟨_, response⟩ | _ | _ | _ | _ <;> try trivial
  exact fun t p hgo hok h200 hp f hf => hK _ (h t p hgo hok h200 hp f hf)

/-- A PUT that gives an md5 is for a key of the set, if it is for the key of a walked file. -/
def Event.Puts (o : Options) (tree : Node) (K : Bytes → Prop) : Event → Prop
  | .upload (.put c _ response) => o.Keys tree c.path → (Uploader.md5From response).isSome →
      K c.path
  | .upload _ | .auth _ _ | .create _ _ | .list _ _ | .resolve _ | .post _ _ _
  | .database _ _ => True

/-- The keys that are posted are keys to delete. -/
def Event.Posts (o : Options) (tree : Node) (K : Bytes → Prop) : Event → Prop
  | .post batch _ _ => ∀ k ∈ batch, K k ∧ o.Deletable tree k
  | .auth _ _ | .create _ _ | .list _ _ | .resolve _ | .upload _ | .database _ _ => True

lemma posts_sent {e : Response → Event} {response : Option Response}
    (h : ∀ r, (e r).Posts o tree K) : ∀ e' ∈ sent e response, e'.Posts o tree K := by
  intro e' he'
  obtain ⟨r, -, rfl⟩ := mem_sent he'
  exact h r

/-- The table stays as it is, and the process moves on. -/
lemma Confined.goto (h : Confined o tree fresh K s) (hK : ∀ k, K k → K' k) {phase : Phase}
    (hrebuilt : phase.rebuilt = true → fresh ∨ o.uploader.dryRun = true ∨ s.phase.rebuilt = true)
    (hphase : phase.Confined o tree fresh K' s.conn) :
    Confined o tree fresh K' { s with phase := phase } where
  table := by
    rintro (hfresh | ⟨hdry, hnew⟩)
    · exact (h.table (Or.inl hfresh)).mono hK
    · rcases hrebuilt hnew with hfresh | hdry' | hold
      · exact (h.table (Or.inl hfresh)).mono hK
      · rw [hdry] at hdry'
        cases hdry'
      · exact (h.table (Or.inr ⟨hdry, hold⟩)).mono hK
  phase := hphase

/-- A script keeps the table within the set, and the process moves on. -/
lemma Confined.store (h : Confined o tree fresh K s) (hK : ∀ k, K k → K' k) {α : Type}
    {x : Script Bytes Row α} (hx : x.Keeps (Connection.Within K')) {r : Option α}
    (hr : x.runOn s.conn = (r, conn)) (hrebuilt : s.phase.rebuilt = true) {phase : Phase}
    (hphase : phase.Confined o tree fresh K' conn) :
    Confined o tree fresh K' { conn := conn, phase := phase } where
  table := by
    intro hcase
    have hold : s.conn.Within K' := by
      rcases hcase with hfresh | ⟨hdry, -⟩
      · exact (h.table (Or.inl hfresh)).mono hK
      · exact (h.table (Or.inr ⟨hdry, hrebuilt⟩)).mono hK
    exact hx.runOn hold hr
  phase := hphase

lemma confined_start {table : Files} (hfresh : fresh → ∀ k ∈ table, K k) :
    Confined o tree fresh K (start o table) := by
  have hphase : (start o table).phase = .opening ∨ (start o table).phase = .checkingAuth := by
    unfold start
    dsimp only
    split_ifs
    · exact Or.inl rfl
    · exact Or.inr rfl
  constructor
  · rintro (h | ⟨-, h⟩)
    · exact Connection.within_of_settled rfl (hfresh h)
    · rcases hphase with hphase | hphase <;> rw [hphase] at h <;> cases h
  · rcases hphase with hphase | hphase <;> rw [hphase] <;> trivial

lemma afterAuth_rebuilt (response : Option Response) :
    (afterAuth o response).rebuilt = false := by
  unfold afterAuth
  split <;> try split_ifs
  all_goals rfl

lemma afterCreate_rebuilt (response : Option Response) :
    (afterCreate response).rebuilt = false := by
  unfold afterCreate
  split <;> try split_ifs
  all_goals rfl

lemma afterOpen_confined (opened : Bool) :
    (afterOpen o opened).Confined o tree fresh K conn := by
  unfold afterOpen
  split_ifs
  · exact fun f hf => absurd hf List.not_mem_nil
  · exact afterRebuild_idle.confined
  · trivial

/-- **A step keeps the table and the batches within the set.** -/
theorem Confined.step (h : Confined o tree fresh K s) (hs : Main.step o tree s a = some (s', es))
    (hK : ∀ k, K k → K' k) (hfresh : o.performRebuild = false → fresh)
    (hlists : ∀ e ∈ es, e.Lists K') (hputs : ∀ e ∈ es, e.Puts o tree K') :
    Confined o tree fresh K' s' ∧ ∀ e ∈ es, e.Posts o tree K' := by
  have hphase := h.phase
  cases step_transition hs with
  | auth response hpc =>
      refine ⟨h.goto hK ?_ (afterAuth_idle response).confined, posts_sent fun _ => trivial⟩
      rw [afterAuth_rebuilt]
      simp
  | create response url hpc =>
      refine ⟨h.goto hK ?_ (afterCreate_idle response).confined, posts_sent fun _ => trivial⟩
      rw [afterCreate_rebuilt]
      simp
  | opened opened hpc =>
      refine ⟨h.goto hK ?_ (afterOpen_confined opened), by simp⟩
      unfold afterOpen
      split_ifs with hopened hrebuild
      · simp [Phase.rebuilt]
      · exact fun _ => Or.inl (hfresh (by simpa using hrebuild))
      · simp [Phase.rebuilt]
  | listed response l hpc =>
      refine ⟨h.goto hK ?_ (afterList_confined ?_), posts_sent fun _ => trivial⟩
      · rw [afterList_rebuilt]
        simp
      · rw [hpc] at hphase
        refine Listing.next_lists (fun f hf => hK _ (hphase f hf)) ?_
        rintro r rfl
        exact hlists _ (List.mem_singleton_self _)
  | resolved r r' b fs hpc hstep =>
      rw [hpc] at hphase
      obtain ⟨files, hr, hfiles⟩ := hphase
      refine ⟨h.goto hK (fun hnew => Or.inr (Or.inl (afterResolve_rebuilt hnew)))
        (afterResolve_confined (hr.step hstep ?_) fun f hf => hK _ (hfiles f hf)), ?_⟩
      · rintro ⟨_, _, _⟩ _ _ _ _ _
        trivial
      · intro e he
        obtain ⟨e', -, rfl⟩ := List.mem_map.mp he
        trivial
  | truncateFailed fails remote conn hpc hrun =>
      refine ⟨⟨?_, trivial⟩, by simp⟩
      rintro (hold | ⟨-, hnew⟩)
      · exact (FileListStorage.truncate_keeps fails).runOn ((h.table (Or.inl hold)).mono hK) hrun
      · cases hnew
  | truncated fails remote conn hpc hrun =>
      rw [hpc] at hphase
      -- the empty table is within every set
      obtain ⟨hconn, hsettled⟩ := Script.wp_run (FileListStorage.truncate_spec fails s.conn) hrun
      have hempty : conn.Within K' := by
        rw [hconn]
        exact Connection.within_of_settled hsettled fun k hk => absurd hk (AList.notMem_empty k)
      exact ⟨⟨fun _ => hempty, nextChunk_confined _ fun f hf => hK _ (hphase f hf)⟩, by simp⟩
  | storeFailed fails remote lo hi rest conn hpc hrun =>
      rw [hpc] at hphase
      have hkeeps := FileListStorage.storeRemoteListOfFilesChunk_keeps fails
        (fun f hf => hK _ (hphase f hf)) lo hi
      exact ⟨h.store hK hkeeps hrun (by rw [hpc]; rfl) trivial, by simp⟩
  | stored fails remote lo hi rest conn hpc hrun =>
      rw [hpc] at hphase
      have hremote : ∀ f ∈ remote, K' f.path := fun f hf => hK _ (hphase f hf)
      have hkeeps := FileListStorage.storeRemoteListOfFilesChunk_keeps fails hremote lo hi
      exact ⟨h.store hK hkeeps hrun (by rw [hpc]; rfl) (nextChunk_confined rest hremote), by simp⟩
  | walkCrashed hpc hwalk => exact ⟨h.goto hK (by simp [Phase.rebuilt]) trivial, by simp⟩
  | walked files hpc hwalk =>
      refine ⟨h.goto hK (fun _ => Or.inr (Or.inr (by rw [hpc]; rfl))) ⟨hwalk, rfl,
        Uploader.keyed_start, fun hcase => Uploader.covered_start ?_⟩, by simp⟩
      refine (h.table ?_).mono hK
      exact hcase.imp_right fun hdry => ⟨hdry, by rw [hpc]; rfl⟩
  | uploaded files t t' b fs hpc hstep =>
      rw [hpc] at hphase
      obtain ⟨hwalk, -, hkeyed, hcovered⟩ := hphase
      have ht := Uploader.step_transition hstep
      have hcovered' : fresh ∨ o.uploader.dryRun = false → Uploader.Covered K' t' := by
        intro hcase
        refine (hcovered hcase).transition ht hK ?_
        intro c request response hput hmd5
        obtain ⟨n, w, hslot⟩ := ht.put_slot hput
        obtain ⟨file, hfile, hkey⟩ := hkeyed.slots n c w hslot
        exact hputs _ (List.mem_map_of_mem hput) ⟨files, hwalk, file, hfile, hkey⟩ hmd5
      refine ⟨⟨?_, afterUpload_confined hwalk (hkeyed.transition ht) hcovered'⟩, ?_⟩
      · intro hcase
        exact (hcovered' (hcase.imp_right And.left)).table
      · intro e he
        obtain ⟨e', -, rfl⟩ := List.mem_map.mp he
        trivial
  | calculateFailed fails files conn hpc hrun =>
      have hkeeps := FileListStorage.calculateListOfFilesToDelete_keeps (K := K') fails files
      exact ⟨h.store hK hkeeps hrun (by rw [hpc]; rfl) trivial, by simp⟩
  | calculated fails files filesToDelete conn hpc hrun =>
      rw [hpc] at hphase
      have hkeeps := FileListStorage.calculateListOfFilesToDelete_keeps (K := K') fails files
      refine ⟨h.store hK hkeeps hrun (by rw [hpc]; rfl) (nextBatch_confined fun hdry => ?_),
        by simp⟩
      exact batches_confined hphase ((h.table (Or.inr ⟨hdry, by rw [hpc]; rfl⟩)).mono hK) hrun
  | unposted response batch rest hpc hxml =>
      exact ⟨h.goto hK (by simp [Phase.rebuilt]) trivial, by simp⟩
  | posted response batch rest xml hpc hxml =>
      rw [hpc] at hphase
      obtain ⟨hdry, hbatches⟩ := hphase
      have hbatches' : ∀ b ∈ batch :: rest, ∀ k ∈ b, K' k ∧ o.Deletable tree k :=
        fun b hb k hk => ⟨hK k (hbatches b hb k hk).1, (hbatches b hb k hk).2⟩
      refine ⟨h.goto hK (fun _ => Or.inr (Or.inr (by rw [hpc]; rfl))) ?_,
        posts_sent fun _ => hbatches' batch List.mem_cons_self⟩
      unfold afterPost
      split
      · trivial
      · exact ⟨hdry, hbatches'⟩
      · exact afterDelete_idle.confined
  | storedDeleted fails batch rest hpc =>
      rw [hpc] at hphase
      refine ⟨h.store hK (FileListStorage.storeDeletedBatch_keeps fails batch) rfl
        (by rw [hpc]; rfl) (nextBatch_confined fun _ b hb k hk => ?_), by simp⟩
      have hold := hphase.2 b (List.mem_cons_of_mem _ hb) k hk
      exact ⟨hK k hold.1, hold.2⟩
  | stated answer hpc =>
      exact ⟨h.goto hK (fun _ => Or.inr (Or.inr (by rw [hpc]; rfl)))
        (afterStat_idle answer).confined, by simp⟩
  | databaseLost attempt fileInfo r hpc hopens hexchange =>
      exact ⟨h.goto hK (by simp [Phase.rebuilt]) trivial, by simp⟩
  | databaseSent attempt fileInfo r exchanged hpc hopens hexchange =>
      refine ⟨h.goto hK (fun _ => Or.inr (Or.inr (by rw [hpc]; rfl)))
        (afterDatabase_idle fileInfo _).confined, ?_⟩
      intro e he
      obtain ⟨p, -, rfl⟩ := List.mem_map.mp he
      trivial

end Main

end Clarc
