import Clarc.Main.Accounted
import Clarc.Main.RowsAndObjects
import Clarc.Storage.Chunks

/-!
# The bucket mirrors the tree

What the program is for: after a run with `--delete`, and without a destination folder, the bucket
has the local files and nothing else.  The run must know the bucket, from its table or from a
listing; and the deletion must succeed, for what is left of it is not done another time in the run.

`Backing` follows the bucket and the table along a run, and `Mirroring` the batches as well: a key of
the bucket that the run knows of is in the table until the upload is over, then in a batch to be
deleted, unless it belongs to a local file or is a name of the database.

* `Backing.step` — **a step keeps the rows of the local files and their objects together**;
* `knows_step` — **a step keeps track of a key that the run knows of**;
* `mirrored_run` — **when a run has sent the database, each local file is in the bucket**, unless it
  could not be read or is too large, **and the bucket has no other keys** than those of the local
  files and the database.
-/

namespace Clarc

open Bytes Reactive Sqlite RemoteListOfFiles

namespace Main

/-! ## The bucket -/

/-- The fetches of the cursor succeed, and each batch is accepted and gone. -/
def Action.Deletes (es : List Event) (keys' : Set Bytes) : Action → Prop
  | .calculate fails => ∀ i, fails (.fetch i) = none
  | .post response => (∃ r, response = some r ∧ r.Completed200) ∧
      ∀ batch request r, .post batch request r ∈ es → ∀ k ∈ batch, k ∉ keys'
  | _ => True

/-- A bucket that nobody else writes to, and deletions that succeed. -/
def mirrorBucket (o : Options) : Environment (Set Bytes) Action Event := fun keys a es keys' =>
  agreeingBucket o keys a es keys' ∧ a.Deletes es keys'

/-- The page has the key. -/
def Event.ListsKey (k : Bytes) : Event → Prop
  | .list _ response => ∃ t p, response.go = some t ∧ t.res = .ok ∧ t.httpStatusCode = 200 ∧
      parseListOfFiles [] t.body = .parsed p ∧ ∃ f ∈ p.files, f.path = k
  | .auth _ _ | .create _ _ | .resolve _ | .upload _ | .post _ _ _ | .database _ _ => False

/-- The run knows of the key: from a page, or from the table when there is no rebuild. -/
def Known (o : Options) (table : Files) (es : List Event) (k : Bytes) : Prop :=
  if o.performRebuild then ∃ e ∈ es, e.ListsKey k else k ∈ table

/-- The key is that of a local file. -/
def Local (o : Options) (files : LocalFileList) (k : Bytes) : Prop :=
  ∃ file ∈ files, o.uploader.keyOf file = k

/-- The key belongs to a local file, or is a name of the database. -/
def Owned (o : Options) (files : LocalFileList) (k : Bytes) : Prop :=
  Local o files k ∨ o.deleter.passesOver k = true ∨ k = o.remoteDatabasePath

variable {o : Options} {tree : Node} {files : LocalFileList} {table : Files} {s s' : State}
  {a : Action} {es fs : List Event} {keys keys' keys₀ : Set Bytes} {k : Bytes} {e : Event}
  {conn : Db}

lemma Event.ListsKey.stage (h : e.ListsKey k) : e.stage = 3 := by
  rcases e with _ | _ | _ | _ | _ | _ | _ <;> first | exact h.elim | rfl

/-- A part without listings makes no key known. -/
lemma Known.of_stage (h : Known o table (es ++ fs) k) (hfs : ∀ e ∈ fs, e.stage ≠ 3) :
    Known o table es k := by
  unfold Known at h ⊢
  split_ifs at h ⊢
  · obtain ⟨e, he, hlists⟩ := h
    rcases List.mem_append.mp he with he | he
    · exact ⟨e, he, hlists⟩
    · exact absurd hlists.stage (hfs e he)
  · exact h

/-- What a step brings into the bucket is the object of a PUT, or the database. -/
lemma Served.new (h : Served o keys es keys') (hk : k ∈ keys') :
    k ∈ keys ∨ (∃ c request response, .upload (.put c request response) ∈ es ∧ c.path = k) ∨
      ((∃ request response, .database request response ∈ es) ∧ k = o.remoteDatabasePath) := by
  induction es generalizing keys with
  | nil => exact Or.inl (h ▸ hk)
  | cons e es ih =>
      obtain ⟨mid, he, hrest⟩ := h
      rcases ih hrest with hmid | ⟨c, request, response, hmem, hpath⟩ |
        ⟨⟨request, response, hmem⟩, hpath⟩
      · rcases e with _ | _ | _ | _ | ⟨_ | _ | _ | ⟨c, request, response⟩ | _⟩ |
          ⟨batch, request, response⟩ | ⟨request, response⟩
        case list => exact Or.inl (he.1 ▸ hmid)
        case post => exact Or.inl (he.1 hmid)
        case upload.put =>
          rcases he.2.1 hmid with rfl | hold
          · exact Or.inr (Or.inl ⟨c, request, response, List.mem_cons_self, rfl⟩)
          · exact Or.inl hold
        case database =>
          rcases he.2.1 hmid with rfl | hold
          · exact Or.inr (Or.inr ⟨⟨request, response, List.mem_cons_self⟩, rfl⟩)
          · exact Or.inl hold
        all_goals exact Or.inl (show k ∈ keys from he ▸ hmid)
      · exact Or.inr (Or.inl ⟨c, request, response, List.mem_cons_of_mem e hmem, hpath⟩)
      · exact Or.inr (Or.inr ⟨⟨request, response, List.mem_cons_of_mem e hmem⟩, hpath⟩)

/-! ## The listing and the mtimes -/

/-- What was collected before comes before what the page adds. -/
lemma parseListOfFiles_behind (files : List RemoteFile) {document : Document} {p : Parse}
    (h : parseListOfFiles [] document = .parsed p) :
    parseListOfFiles files document = .parsed { p with files := files ++ p.files } := by
  rcases document with _ | _ | ⟨⟨name, children⟩ | content⟩
  · cases h
  · cases h
  · simp only [parseListOfFiles] at h ⊢
    split_ifs at h ⊢
    have happend := parseNodes_append files children { files := [] }
    rw [List.append_nil] at happend
    rcases hnodes : parseNodes { files := [] } children with _ | q
    · rw [hnodes] at h
      cases h
    · rw [hnodes] at h happend
      cases h
      rw [happend]
      rfl
  · cases h

/-- A page of status 200 leads to the condition of the loop, with its files behind those before. -/
lemma next_page (l : Listing) {r : Response} {t : Transfer} {p : Parse} (hgo : r.go = some t)
    (hok : t.res = .ok) (h200 : t.httpStatusCode = 200)
    (hp : parseListOfFiles [] t.body = .parsed p) :
    ∃ l', l.next (some r) = Listing.loop l' ∧ l'.files = l.files ++ p.files := by
  have hgot : performGetOnBucket (some r) = .received 200 t.body := by
    simp [performGetOnBucket, hgo, hok, h200]
  refine ⟨{ lastKey := p.lastKey, isTruncated := p.isTruncated, files := l.files ++ p.files }, ?_,
    rfl⟩
  rw [Listing.next, hgot]
  dsimp only
  rw [if_neg (by decide), parseListOfFiles_behind l.files hp]

/-- The paths stay as they were listed. -/
lemma resolveStep_paths {c : AmazonCredentials} {useSsl : Bool} {r r' : Resolve}
    {b : ResolveAction} {gs : List HeadEvent} (h : resolveStep c useSsl r b = some (r', gs)) :
    r'.files.map RemoteFile.path = r.files.map RemoteFile.path := by
  have hset : ∀ (pos : ℕ) (mtime : UInt32),
      (r.setMtime pos mtime).files.map RemoteFile.path = r.files.map RemoteFile.path := by
    intro pos mtime
    have hsame : (r.setMtime pos mtime).files.map (fun f => (f.path, f.md5)) =
        r.files.map fun f => (f.path, f.md5) := r.setMtime_same mtime
    have hpaths := congrArg (List.map Prod.fst) hsame
    rw [List.map_map, List.map_map] at hpaths
    exact hpaths
  cases resolveStep_moved h with
  | headed n pos url cUploads f response _ _ _ =>
      rcases afterHead_cases r n pos url cUploads response with hs | ⟨w, -, hs⟩ |
        ⟨_, t, -, -, -, -, hs⟩
      · rw [hs]
        rfl
      · rw [hs]
        rfl
      · rw [hs]
        exact hset pos _
  | _ => rfl

/-! ## The table and the batches -/

/-- Where a key that the run knows of has got to. -/
def Phase.Knows (o : Options) (files : LocalFileList) (keys : Set Bytes) (conn : Db) (k : Bytes) :
    Phase → Prop
  | .checkingAuth | .creatingBucket _ | .opening | .walking | .uploading _ _ | .calculating _ =>
      k ∈ conn.committed
  | .listing l => ∃ f ∈ l.files, f.path = k
  | .resolving r => ∃ f ∈ r.files, f.path = k
  | .truncating remote => ∃ f ∈ remote, f.path = k
  | .storing remote bounds => k ∈ conn.committed ∨
      ∃ b ∈ bounds, ∃ f ∈ FileListStorage.chunk remote b.1 b.2, f.path = k
  | .deleting batch rest => k ∈ keys → Owned o files k ∨ ∃ b ∈ batch :: rest, k ∈ b
  | .storingDeleted _ rest => k ∈ keys → Owned o files k ∨ ∃ b ∈ rest, k ∈ b
  | .statingDatabase | .uploadingDatabase _ _ => k ∈ keys → Owned o files k
  | .exited _ | .crashed => True

lemma afterRebuild_knows (h : k ∈ conn.committed) : (afterRebuild o).Knows o files keys conn k := by
  unfold afterRebuild
  split_ifs
  · exact h
  · trivial

lemma afterDelete_knows (h : k ∈ keys → Owned o files k) :
    (afterDelete o).Knows o files keys conn k := by
  unfold afterDelete
  split_ifs
  · trivial
  · exact h

lemma afterAuth_knows (response : Option Response) (h : k ∈ conn.committed) :
    (afterAuth o response).Knows o files keys conn k := by
  unfold afterAuth
  split <;> try split_ifs
  all_goals trivial

lemma afterCreate_knows (response : Option Response) (h : k ∈ conn.committed) :
    (afterCreate response).Knows o files keys conn k := by
  unfold afterCreate
  split <;> try split_ifs
  all_goals trivial

/-- The list has the keys it had and those of the page. -/
lemma afterList_knows {l : Listing} {response : Option Response} {request : Request}
    (h : (∃ f ∈ l.files, f.path = k) ∨ ∃ e ∈ sent (.list request) response, e.ListsKey k) :
    (afterList (l.next response)).Knows o files keys conn k := by
  have hloop : ∀ l' : Listing, (∃ f ∈ l'.files, f.path = k) →
      (afterList l'.loop).Knows o files keys conn k := by
    rintro l' ⟨f, hf, hpath⟩
    unfold Listing.loop
    split_ifs
    · exact ⟨f, hf, hpath⟩
    · exact ⟨{ f with mtime := 0 }, List.mem_map.mpr ⟨f, hf, rfl⟩, hpath⟩
  rcases h with ⟨f, hf, hpath⟩ | ⟨e, he, hlists⟩
  · rcases Listing.next_cases l response with hcrashed | hfailed | ⟨l', hl', hprefix⟩
    · rw [hcrashed]
      trivial
    · rw [hfailed]
      trivial
    · rw [hl']
      exact hloop l' ⟨f, hprefix.subset hf, hpath⟩
  · obtain ⟨r, rfl, rfl⟩ := mem_sent he
    obtain ⟨t, p, hgo, hok, h200, hp, f, hf, hpath⟩ := hlists
    obtain ⟨l', hl', hfiles⟩ := next_page l hgo hok h200 hp
    rw [hl']
    exact hloop l' ⟨f, hfiles ▸ List.mem_append_right _ hf, hpath⟩

lemma afterResolve_knows {r : Resolve} (hdry : o.uploader.dryRun = false)
    (h : ∃ f ∈ r.files, f.path = k) : (afterResolve o r).Knows o files keys conn k := by
  unfold afterResolve
  split
  · rw [hdry, if_neg (by decide)]
    exact h
  · trivial
  · trivial
  · trivial
  · exact h

lemma nextChunk_knows {remote : List RemoteFile} {bounds : List (ℕ × ℕ)}
    (h : k ∈ conn.committed ∨
      ∃ b ∈ bounds, ∃ f ∈ FileListStorage.chunk remote b.1 b.2, f.path = k) :
    (nextChunk o remote bounds).Knows o files keys conn k := by
  rcases bounds with _ | ⟨bound, rest⟩
  · refine afterRebuild_knows ?_
    rcases h with h | ⟨b, hb, -⟩
    · exact h
    · cases hb
  · exact h

lemma afterUpload_knows {files' : LocalFileList} {t : Uploader.State}
    (hdelete : o.performDelete = true) (h : k ∈ conn.committed) :
    (afterUpload o files' t).Knows o files keys conn k := by
  unfold afterUpload
  split
  · rw [if_pos hdelete]
    exact h
  · trivial
  · trivial
  · trivial
  · exact h

lemma nextBatch_knows {batches : List (List Bytes)}
    (h : k ∈ keys → Owned o files k ∨ ∃ b ∈ batches, k ∈ b) :
    (nextBatch o batches).Knows o files keys conn k := by
  rcases batches with _ | ⟨batch, rest⟩
  · refine afterDelete_knows fun hk => ?_
    rcases h hk with howned | ⟨b, hb, -⟩
    · exact howned
    · cases hb
  · rw [nextBatch]
    split_ifs with hdry
    · unfold afterDelete
      rw [if_pos hdry]
      trivial
    · trivial
    · exact h

/-- The table only grows in an upload. -/
lemma upload_committed {u : Uploader} {pfx : Bytes} {t t' : Uploader.State} {b : Uploader.Action}
    {gs : List Uploader.Event} (ht : u.Transition files pfx t b gs t') (hconn : t.conn.Settled)
    (h : k ∈ t.conn.committed) : k ∈ t'.conn.committed := by
  have hinsert : ∀ key row, k ∈ (t.conn.update (AList.insert key row)).committed := by
    intro key row
    have hcommitted : (t.conn.update (AList.insert key row)).committed =
        t.conn.committed.insert key row := by
      unfold Connection.update
      rw [show t.conn.working = none from hconn]
    rw [hcommitted]
    exact (AList.mem_insert _).mpr (Or.inr h)
  cases ht with
  | move n c w w' wa gs conn flag hrun hslot hmove =>
      cases hmove with
      | stored md5 fails => exact hinsert _ _
      | _ => exact h
  | _ => exact h

/-- A batch that completes with status 200 counts as deleted, unless the process is lost. -/
lemma deleteBatch_completed {r : Response} (h : r.Completed200) :
    Deleter.deleteBatch (some r) = none ∨ Deleter.deleteBatch (some r) = some true := by
  obtain ⟨-, h200⟩ := h
  rcases hgo : r.go with _ | t
  · exact Or.inl (by simp [Deleter.deleteBatch, hgo])
  · right
    have hstatus : t.httpStatusCode = 200 := by
      unfold Response.go at hgo
      split at hgo
      · cases hgo
      · cases hgo
        dsimp only
        rw [h200, ite_self]
    simp [Deleter.deleteBatch, hgo, hstatus]

/-- After a step without a PUT, only the database is new in the bucket. -/
lemma owned_or_old (hserved : Served o keys fs keys')
    (hputs : ∀ c request response, .upload (.put c request response) ∉ fs) (hk : k ∈ keys') :
    k ∈ keys ∨ Owned o files k := by
  rcases hserved.new hk with hold | ⟨c, request, response, hmem, -⟩ | ⟨-, hdatabase⟩
  · exact Or.inl hold
  · exact absurd hmem (hputs c request response)
  · exact Or.inr (Or.inr (Or.inr hdatabase))

/-- **A step keeps track of a key that the run knows of.** -/
lemma knows_step (hdry : o.uploader.dryRun = false) (hdelete : o.performDelete = true)
    (hfolder : o.uploader.destinationFolder.getD [] = [])
    (horder : ∀ e ∈ es, e.stage ≤ s.phase.stage)
    (haccounts : s.phase.Accounts o files es s.conn)
    (h : Known o table es k → s.phase.Knows o files keys s.conn k)
    (hs : step o tree s a = some (s', fs)) (henv : mirrorBucket o keys a fs keys')
    (hknown : Known o table (es ++ fs) k) : s'.phase.Knows o files keys' s'.conn k := by
  obtain ⟨⟨hserved, -⟩, hdeletes⟩ := henv
  obtain ⟨-, hstage⟩ := stage_le_step hs
  -- outside the listing no key becomes known
  have hold : s.phase.stage ≠ 3 → s.phase.Knows o files keys s.conn k := fun hne =>
    h (hknown.of_stage fun e he => hstage e he ▸ hne)
  cases step_transition hs with
  | auth response hpc =>
      have hk := hold (by rw [hpc]; decide)
      rw [hpc] at hk
      exact afterAuth_knows response hk
  | create response url hpc =>
      have hk := hold (by rw [hpc]; simp [Phase.stage])
      rw [hpc] at hk
      exact afterCreate_knows response hk
  | opened opened hpc =>
      have hk := hold (by rw [hpc]; decide)
      rw [hpc] at hk
      dsimp only [afterOpen]
      split_ifs with hopened hrebuild
      · -- a rebuild has not listed anything yet
        unfold Known at hknown
        rw [if_pos hrebuild, List.append_nil] at hknown
        obtain ⟨e, he, hlists⟩ := hknown
        have hle := horder e he
        rw [hpc, hlists.stage] at hle
        exact absurd hle (by decide)
      · exact afterRebuild_knows hk
      · trivial
  | listed response l hpc =>
      have hcases : (∃ f ∈ l.files, f.path = k) ∨ ∃ e ∈ sent (.list (l.request
          o.uploader.amazonCredentials o.uploader.useSsl)) response, e.ListsKey k := by
        by_cases hes : Known o table es k
        · have hk := h hes
          rw [hpc] at hk
          exact Or.inl hk
        · right
          unfold Known at hknown hes
          split_ifs at hknown hes
          · obtain ⟨e, he, hlists⟩ := hknown
            rcases List.mem_append.mp he with he | he
            · exact absurd ⟨e, he, hlists⟩ hes
            · exact ⟨e, he, hlists⟩
          · exact absurd hknown hes
      exact afterList_knows hcases
  | resolved r r' b gs hpc hstep =>
      have hk := hold (by rw [hpc]; simp [Phase.stage])
      rw [hpc] at hk
      obtain ⟨f, hf, hpath⟩ := hk
      have hmem : k ∈ r'.files.map RemoteFile.path := by
        rw [resolveStep_paths hstep]
        exact List.mem_map.mpr ⟨f, hf, hpath⟩
      exact afterResolve_knows hdry (List.mem_map.mp hmem)
  | truncated fails remote conn hpc hrun =>
      have hk := hold (by rw [hpc]; simp [Phase.stage])
      rw [hpc] at hk
      obtain ⟨f, hf, hpath⟩ := hk
      rw [← FileListStorage.chunkBounds_chunks remote, List.mem_flatMap] at hf
      obtain ⟨b, hb, hf⟩ := hf
      exact nextChunk_knows (Or.inr ⟨b, hb, f, hf, hpath⟩)
  | stored fails remote lo hi rest conn hpc hrun =>
      have hk := hold (by rw [hpc]; simp [Phase.stage])
      rw [hpc] at hk
      have hspec := FileListStorage.storeRemoteListOfFilesChunk_spec fails remote lo hi s.conn
      obtain ⟨hcommitted, -⟩ := Script.wp_run hspec hrun
      refine nextChunk_knows ?_
      dsimp only
      rw [hcommitted, FileListStorage.mem_insertAll]
      rcases hk with hk | ⟨b, hb, f, hf, hpath⟩
      · exact Or.inl (Or.inl hk)
      · rcases List.mem_cons.mp hb with rfl | hb
        · exact Or.inl (Or.inr (List.mem_map.mpr ⟨f, hf, hpath⟩))
        · exact Or.inr ⟨b, hb, f, hf, hpath⟩
  | walked files' hpc hwalk =>
      have hk := hold (by rw [hpc]; decide)
      rw [hpc] at hk
      exact hk
  | uploaded files' t t' b gs hpc hstep =>
      have hk := hold (by rw [hpc]; simp [Phase.stage])
      rw [hpc] at hk haccounts
      obtain ⟨rfl, hconn, conn₀, gs₀, -, -, hledger⟩ := haccounts
      refine afterUpload_knows hdelete ?_
      exact upload_committed (Uploader.step_transition hstep) hledger.settled (hconn ▸ hk)
  | calculated fails files' filesToDelete conn hpc hrun =>
      have hk := hold (by rw [hpc]; simp [Phase.stage])
      rw [hpc] at hk haccounts
      obtain ⟨rfl, -, -⟩ := haccounts
      refine nextBatch_knows fun _ => ?_
      by_cases hlocal : k ∈ files'.paths.map (List.drop 1)
      · obtain ⟨path, hpath, rfl⟩ := List.mem_map.mp hlocal
        obtain ⟨file, hfile, rfl⟩ := List.mem_map.mp hpath
        exact Or.inl (Or.inl ⟨file, hfile, Uploader.keyOf_of_empty hfolder file⟩)
      · by_cases hname : o.deleter.passesOver k = true
        · exact Or.inl (Or.inr (Or.inl hname))
        · right
          have hspec := FileListStorage.calculateListOfFilesToDelete_all hdeletes files' s.conn
          have hmem : k ∈ filesToDelete := Script.wp_run hspec hrun filesToDelete rfl k hk hlocal
          have hflat : k ∈ (o.deleter.batches [] filesToDelete).flatten := by
            rw [Deleter.flatten_batches, List.nil_append, List.mem_filter]
            exact ⟨hmem, by simpa using hname⟩
          exact List.mem_flatten.mp hflat
  | posted response batch rest xml hpc hxml =>
      have hk := hold (by rw [hpc]; simp [Phase.stage])
      rw [hpc] at hk
      obtain ⟨⟨r, rfl, hcompleted⟩, hgone⟩ := hdeletes
      dsimp only [afterPost]
      rcases deleteBatch_completed hcompleted with hlost | htrue
      · rw [hlost]
        trivial
      · rw [htrue]
        intro hk'
        rcases owned_or_old hserved (by simp [sent]) hk' with hk₀ | howned
        · rcases hk hk₀ with howned | ⟨b, hb, hkb⟩
          · exact Or.inl howned
          · rcases List.mem_cons.mp hb with rfl | hb
            · exact absurd hk' (hgone b _ r (List.mem_singleton_self _) k hkb)
            · exact Or.inr ⟨b, hb, hkb⟩
        · exact Or.inl howned
  | storedDeleted fails batch rest hpc =>
      have hk := hold (by rw [hpc]; simp [Phase.stage])
      rw [hpc] at hk
      obtain rfl : keys' = keys := hserved
      exact nextBatch_knows hk
  | stated answer hpc =>
      have hk := hold (by rw [hpc]; decide)
      rw [hpc] at hk
      obtain rfl : keys' = keys := hserved
      rcases answer with _ | fileInfo
      · trivial
      · exact hk
  | databaseSent attempt fileInfo r exchanged hpc hopens hexchange =>
      have hk := hold (by rw [hpc]; simp [Phase.stage])
      rw [hpc] at hk
      have howned : k ∈ keys' → Owned o files k := by
        intro hk'
        rcases owned_or_old hserved (by simp) hk' with hk₀ | howned
        · exact hk hk₀
        · exact howned
      dsimp only
      rcases r.next o.databaseFilePath attempt with _ | (_ | _ | _)
      · trivial
      · exact howned
      · trivial
      · trivial
  | truncateFailed _ _ _ _ _ | storeFailed _ _ _ _ _ _ _ _ | walkCrashed _ _
  | calculateFailed _ _ _ _ _ | unposted _ _ _ _ _ | databaseLost _ _ _ _ _ _ => trivial

/-! ## The run -/

/-- The files have been looked at, and those that are to be uploaded are in the bucket. -/
def Uploaded (o : Options) (files : LocalFileList) (es : List Event) (keys : Set Bytes) : Prop :=
  ∀ i file, files[i]? = some file →
    ∃ answer, .upload (.stat i (Uploader.pathOf o.source file) answer) ∈ es ∧
      ((∀ fileInfo, answer = some fileInfo → MAX_S3_FILE_SIZE ≤ fileInfo.size) ∨
        o.uploader.keyOf file ∈ keys)

/-- What holds of the bucket, the table and the process in a run, whatever becomes of its
deletion. -/
structure Backing (o : Options) (tree : Node) (files : LocalFileList) (keys₀ : Set Bytes)
    (es : List Event) (s : State) (keys : Set Bytes) : Prop where
  order : ∀ e ∈ es, e.stage ≤ s.phase.stage
  accounts : s.phase.Accounts o files es s.conn
  confined : Confined o tree (o.performRebuild = false)
    (fun k => Local o files k → k ∈ keys ∨ Posted es k) s
  posted : ∀ k, Posted es k → o.Deletable tree k
  origin : ∀ k ∈ keys, k ∈ keys₀ ∨ Owned o files k
  uploaded : ∀ request response, .database request response ∈ es → Uploaded o files es keys

lemma start_accounts : (start o table).phase.Accounts o files [] (start o table).conn := by
  unfold start
  split_ifs <;> rfl

lemma backing_start
    (htable : o.performRebuild = false → ∀ k ∈ table, Local o files k → k ∈ keys₀) :
    Backing o tree files keys₀ [] (start o table) keys₀ where
  order := by simp
  accounts := start_accounts
  confined := confined_start fun hfresh k hk hlocal => Or.inl (htable hfresh k hk hlocal)
  posted := by
    rintro k ⟨batch, request, response, he, -⟩
    cases he
  origin := fun k hk => Or.inl hk
  uploaded := by simp

/-- From the upload of the database on, the bucket loses nothing. -/
lemma kept_of_last (hs : step o tree s a = some (s', fs)) (hserved : Served o keys fs keys')
    (hle : 12 ≤ s.phase.stage) (hk : k ∈ keys) : k ∈ keys' := by
  rcases hserved.kept hk with hk' | ⟨batch, request, response, he, -⟩
  · exact hk'
  · have hstage := (stage_le_step hs).2 _ he
    dsimp only [Event.stage] at hstage
    omega

section
variable (h : Backing o tree files keys₀ es s keys) (hwalk : o.localFileList tree = some files)
  (hfolder : o.uploader.destinationFolder.getD [] = [])
include h hwalk

include hfolder in
/-- A row of a local file has its object, for what is posted is no local path. -/
lemma Backing.object (hrow : Local o files k → k ∈ keys ∨ Posted es k) (hlocal : Local o files k) :
    k ∈ keys := by
  rcases hrow hlocal with hkey | hposted
  · exact hkey
  · obtain ⟨⟨files', hwalk', hpath⟩, -⟩ := h.posted _ hposted
    obtain rfl := Option.some.inj (hwalk.symm.trans hwalk')
    obtain ⟨file, hfile, rfl⟩ := hlocal
    rw [Uploader.keyOf_of_empty hfolder] at hpath
    exact absurd (List.mem_map_of_mem (List.mem_map_of_mem hfile)) hpath

include hfolder in
/-- The table that accounts for the files vouches for their objects. -/
lemma Backing.objects (hdry : o.uploader.dryRun = false) (hrebuilt : s.phase.rebuilt = true)
    (haccounted : Accounted o files es s.conn.committed) : Uploaded o files es keys := by
  intro i file hfile
  obtain ⟨answer, hstat, hskip | ⟨fileInfo, row, -, hrow, -⟩⟩ := haccounted i file hfile
  · exact ⟨answer, hstat, Or.inl hskip⟩
  · refine ⟨answer, hstat, Or.inr ?_⟩
    have hmem : o.uploader.keyOf file ∈ s.conn.committed :=
      AList.lookup_isSome.mp (by rw [hrow]; rfl)
    exact h.object hwalk hfolder
      ((h.confined.table (Or.inr ⟨hdry, hrebuilt⟩)).committed _ hmem)
      ⟨file, List.mem_of_getElem? hfile, rfl⟩

/-- The key of a PUT is that of a local file. -/
lemma Backing.put (hs : step o tree s a = some (s', fs)) {c : Uploader.ThreadCommand}
    {request : Request} {response : Response} (he : .upload (.put c request response) ∈ fs) :
    Local o files c.path := by
  have hphase := h.confined.phase
  cases step_transition hs with
  | uploaded files' t t' b gs hpc hstep =>
      rw [hpc] at hphase
      obtain ⟨hwalk', -, hkeyed, -⟩ := hphase
      obtain rfl := Option.some.inj (hwalk.symm.trans hwalk')
      obtain ⟨e, he, heq⟩ := List.mem_map.mp he
      cases heq
      obtain ⟨n, w, hslot⟩ := (Uploader.step_transition hstep).put_slot he
      exact hkeyed.slots n c w hslot
  | auth _ _ | create _ _ _ | listed _ _ _ | posted _ _ _ _ _ _ =>
      obtain ⟨r, -, heq⟩ := mem_sent he
      cases heq
  | resolved _ _ _ _ _ _ | databaseSent _ _ _ _ _ _ _ =>
      obtain ⟨e, -, heq⟩ := List.mem_map.mp he
      cases heq
  | _ => cases he

/-- What a step brings into the bucket belongs to a local file, or is the database. -/
lemma Backing.new (hs : step o tree s a = some (s', fs)) (hserved : Served o keys fs keys')
    (hk : k ∈ keys') : k ∈ keys ∨ Owned o files k := by
  rcases hserved.new hk with hold | ⟨c, request, response, he, rfl⟩ | ⟨-, hdatabase⟩
  · exact Or.inl hold
  · exact Or.inr (Or.inl (h.put hwalk hs he))
  · exact Or.inr (Or.inr (Or.inr hdatabase))

include hfolder in
/-- **A step keeps the rows of the local files and their objects together.** -/
theorem Backing.step (hnodup : files.paths.Nodup) (hdry : o.uploader.dryRun = false)
    (hs : Main.step o tree s a = some (s', fs)) (henv : agreeingBucket o keys a fs keys') :
    Backing o tree files keys₀ (es ++ fs) s' keys' := by
  have hkeys := Uploader.keysDistinct (u := o.uploader) hnodup (rooted_of_walk hwalk)
  obtain ⟨hmono, hfs⟩ := stage_le_step hs
  obtain ⟨hserved, hagree⟩ := henv
  have hnew : ∀ k, k ∈ keys' ∨ Posted fs k →
      Local o files k → k ∈ keys' ∨ Posted (es ++ fs) k := fun k hk _ =>
    hk.imp_right fun hposted => hposted.mono (List.subset_append_right es fs)
  have hold : ∀ k, (Local o files k → k ∈ keys ∨ Posted es k) →
      Local o files k → k ∈ keys' ∨ Posted (es ++ fs) k := by
    intro k hk hlocal
    rcases hk hlocal with hkey | hposted
    · exact hnew k (hserved.kept hkey) hlocal
    · exact Or.inr (hposted.mono (List.subset_append_left es fs))
  have hputs : ∀ e ∈ fs, e.Puts o tree fun k =>
      Local o files k → k ∈ keys' ∨ Posted (es ++ fs) k := by
    intro e he
    have hputs : e.Puts o tree fun k => k ∈ keys' ∨ Posted fs k := hserved.puts hagree e he
    rcases e with _ | _ | _ | _ | ⟨_ | _ | _ | _ | _⟩ | _ | _ <;> try trivial
    exact fun hkeys hmd5 => hnew _ (hputs hkeys hmd5)
  have hconfined := h.confined.step hs hold id
    (fun e he => (hserved.lists e he).mono hnew) hputs
  refine ⟨?_, h.accounts.step hwalk hkeys hdry (fun _ => hfolder) hs, hconfined.1, ?_, ?_, ?_⟩
  · exact (stage_le_append h.order hs).2
  · rintro k ⟨batch, request, response, he, hk⟩
    rcases List.mem_append.mp he with he | he
    · exact h.posted k ⟨batch, request, response, he, hk⟩
    · exact (hconfined.2 _ he k hk).2
  · intro k hk
    rcases h.new hwalk hs hserved hk with hold | howned
    · exact h.origin k hold
    · exact Or.inr howned
  · intro request response he
    have hmonotone : 12 ≤ s.phase.stage → Uploaded o files es keys →
        Uploaded o files (es ++ fs) keys' := by
      intro hle huploaded i file hfile
      obtain ⟨answer, hstat, hskip | hkey⟩ := huploaded i file hfile
      · exact ⟨answer, List.mem_append_left _ hstat, Or.inl hskip⟩
      · exact ⟨answer, List.mem_append_left _ hstat, Or.inr (kept_of_last hs hserved hle hkey)⟩
    rcases List.mem_append.mp he with he | he
    · exact hmonotone (h.order _ he) (h.uploaded request response he)
    · obtain ⟨⟨fileInfo, r, hpc⟩, -⟩ := database_sent hs he
      have haccounts := h.accounts
      rw [hpc] at haccounts
      exact hmonotone (by rw [hpc]; simp [Phase.stage])
        (h.objects hwalk hfolder hdry (by rw [hpc]; rfl) haccounts)

end

/-- The same, with a deletion that succeeds. -/
structure Mirroring (o : Options) (tree : Node) (files : LocalFileList) (table : Files)
    (keys₀ : Set Bytes) (es : List Event) (s : State) (keys : Set Bytes) : Prop where
  backing : Backing o tree files keys₀ es s keys
  knows : ∀ k, Known o table es k → s.phase.Knows o files keys s.conn k
  owned : ∀ request response, .database request response ∈ es →
    ∀ k ∈ keys, Known o table es k → Owned o files k

lemma mirroring_start
    (htable : o.performRebuild = false → ∀ k ∈ table, Local o files k → k ∈ keys₀) :
    Mirroring o tree files table keys₀ [] (start o table) keys₀ where
  backing := backing_start htable
  knows := by
    intro k hk
    have htable : k ∈ table := by
      unfold Known at hk
      split_ifs at hk
      · obtain ⟨e, he, -⟩ := hk
        cases he
      · exact hk
    unfold start
    dsimp only
    split_ifs <;> exact htable
  owned := by simp

/-- **A step keeps the mirror.** -/
theorem Mirroring.step (h : Mirroring o tree files table keys₀ es s keys)
    (hwalk : o.localFileList tree = some files) (hnodup : files.paths.Nodup)
    (hdry : o.uploader.dryRun = false) (hdelete : o.performDelete = true)
    (hfolder : o.uploader.destinationFolder.getD [] = [])
    (hs : Main.step o tree s a = some (s', fs)) (henv : mirrorBucket o keys a fs keys') :
    Mirroring o tree files table keys₀ (es ++ fs) s' keys' := by
  have hbacking := h.backing
  obtain ⟨-, hfs⟩ := stage_le_step hs
  refine ⟨hbacking.step hwalk hfolder hnodup hdry hs henv.1, fun k hk =>
    knows_step hdry hdelete hfolder hbacking.order hbacking.accounts (h.knows k) hs henv hk, ?_⟩
  intro request response he k hk hknown
  -- from the upload of the database on, no key becomes known
  have hold : 12 ≤ s.phase.stage → Known o table es k := by
    intro hle
    refine hknown.of_stage fun e he => ?_
    have hstage := hfs e he
    omega
  rcases hbacking.new hwalk hs henv.1.1 hk with hk₀ | howned
  · rcases List.mem_append.mp he with he | he
    · exact h.owned request response he k hk₀ (hold (hbacking.order _ he))
    · obtain ⟨⟨fileInfo, r, hpc⟩, -⟩ := database_sent hs he
      have hknows := h.knows k (hold (by rw [hpc]; simp [Phase.stage]))
      rw [hpc] at hknows
      exact hknows hk₀
  · exact howned

/-- What holds in a run whose deletion succeeds. -/
lemma mirroring_run (hwalk : o.localFileList tree = some files) (hnodup : files.paths.Nodup)
    (hdry : o.uploader.dryRun = false) (hdelete : o.performDelete = true)
    (hfolder : o.uploader.destinationFolder.getD [] = [])
    (htable : o.performRebuild = false → ∀ k ∈ table, Local o files k → k ∈ keys)
    (h : Run (step o tree) (mirrorBucket o) (start o table) keys es s keys') :
    Mirroring o tree files table keys es s keys' :=
  h.invariant (I := fun es s keys' => Mirroring o tree files table keys es s keys')
    (mirroring_start htable)
    fun hI hs henv => hI.step hwalk hnodup hdry hdelete hfolder hs henv

/-- The database is sent: the bucket has the files, and no other key that was known. -/
lemma Mirroring.sent (h : Mirroring o tree files table keys es s keys')
    (hknown : ∀ k ∈ keys, Owned o files k ∨ Known o table es k) {request : Request}
    {response : Response} (hdatabase : .database request response ∈ es) :
    Uploaded o files es keys' ∧ ∀ k ∈ keys', Owned o files k := by
  refine ⟨h.backing.uploaded request response hdatabase, fun k hk => ?_⟩
  rcases h.backing.origin k hk with hk₀ | howned
  · rcases hknown k hk₀ with howned | hknown
    · exact howned
    · exact h.owned request response hdatabase k hk hknown
  · exact howned

/-- **The bucket mirrors the tree.**  A run with `--delete` and without a destination folder, which
knows of the keys of the bucket from its table or, with `--rebuild`, from the pages it was sent, and
whose deletion succeeds: when it has sent the database, each local file is in the bucket, unless it
could not be read or is too large, and every key of the bucket belongs to a local file or is a name
of the database. -/
theorem mirrored_run (hwalk : o.localFileList tree = some files) (hnodup : files.paths.Nodup)
    (hdry : o.uploader.dryRun = false) (hdelete : o.performDelete = true)
    (hfolder : o.uploader.destinationFolder.getD [] = [])
    (htable : o.performRebuild = false → ∀ k ∈ table, Local o files k → k ∈ keys)
    (h : Run (step o tree) (mirrorBucket o) (start o table) keys es s keys')
    (hknown : ∀ k ∈ keys, Owned o files k ∨ Known o table es k) {request : Request}
    {response : Response} (hdatabase : .database request response ∈ es) :
    Uploaded o files es keys' ∧ ∀ k ∈ keys', Owned o files k :=
  (mirroring_run hwalk hnodup hdry hdelete hfolder htable h).sent hknown hdatabase

/-! ## One run -/

/-- What a bucket makes of a request that it grants. -/
def Event.granted (o : Options) (keys : Set Bytes) : Event → Set Bytes
  | .upload (.put c _ _) => insert c.path keys
  | .database _ _ => insert o.remoteDatabasePath keys
  | .post batch _ _ => {k ∈ keys | k ∉ batch}
  | .upload _ | .auth _ _ | .create _ _ | .list _ _ | .resolve _ => keys

/-- At most one request, which lists nothing, and a status that agrees. -/
def Granted (es : List Event) : Prop :=
  es.length ≤ 1 ∧ ∀ e ∈ es, e.StatusAgrees ∧ e.stage ≠ 3

instance (es : List Event) : Decidable (Granted es) := inferInstanceAs (Decidable (_ ∧ _))

lemma Event.serves_granted (he : e.stage ≠ 3) : e.Serves o keys (e.granted o keys) := by
  rcases e with _ | _ | _ | _ | ⟨_ | _ | _ | ⟨c, request, response⟩ | _⟩ |
    ⟨batch, request, response⟩ | ⟨request, response⟩
  case list => exact absurd rfl he
  case upload.put =>
    exact ⟨Set.subset_insert _ _, subset_rfl, fun _ => Set.mem_insert _ _⟩
  case database =>
    exact ⟨Set.subset_insert _ _, subset_rfl, fun _ => Set.mem_insert _ _⟩
  case post => exact ⟨fun k hk => hk.1, fun k hk hbatch => ⟨hk, hbatch⟩⟩
  all_goals rfl

/-- A bucket grants the requests of a run whose deletion does not fail. -/
lemma granted_run (keys : Set Bytes) {ok : Action → List Event → Prop} {s₀ : State}
    (hok : ∀ a fs, ok a fs → Granted fs ∧ (∀ fails, a = .calculate fails → fails = noFaults) ∧
      ∀ response, a = .post response → ∃ r, response = some r ∧ r.Completed200)
    (h : Run (step o tree) (always ok) s₀ () es s ()) :
    Run (step o tree) (mirrorBucket o) s₀ keys es s (es.foldl (Event.granted o) keys) := by
  refine h.invariant (I := fun es s _ =>
    Run (step o tree) (mirrorBucket o) s₀ keys es s (es.foldl (Event.granted o) keys)) .start ?_
  rintro es t _ a fs t' _ hI hs he
  obtain ⟨⟨hlength, hall⟩, hcalculate, hpost⟩ := hok a fs he
  rw [List.foldl_append]
  refine hI.move hs ?_
  have hserved : ∀ keys₁ : Set Bytes, Served o keys₁ fs (fs.foldl (Event.granted o) keys₁) := by
    intro keys₁
    rcases fs with _ | ⟨e, _ | ⟨e', rest⟩⟩
    · rfl
    · exact ⟨_, Event.serves_granted (hall e List.mem_cons_self).2, rfl⟩
    · simp at hlength
  refine ⟨⟨hserved _, fun e he => (hall e he).1⟩, ?_⟩
  rcases a with _ | _ | _ | _ | _ | _ | _ | _ | _ | fails | response | _ | _ | _ <;> try trivial
  · obtain rfl := hcalculate fails rfl
    exact fun _ => rfl
  · refine ⟨hpost response rfl, ?_⟩
    rintro batch request r he k hk
    rcases fs with _ | ⟨e, _ | ⟨e', rest⟩⟩
    · cases he
    · obtain rfl := List.mem_singleton.mp he
      exact fun hk' => hk'.2 hk
    · simp at hlength

theorem mirrored_run_sample :
    ∃ files es s keys', (sampleOptions [] [] false []).localFileList
        (.dir true (.cons (ascii "b") .reg (some 3) (.leaf .regular) .nil)) = some files ∧
      files.paths = [ascii "/b"] ∧ Run (step (sampleOptions [] [] false [])
        (.dir true (.cons (ascii "b") .reg (some 3) (.leaf .regular) .nil)))
        (mirrorBucket (sampleOptions [] [] false []))
        (start (sampleOptions [] [] false []) (oneRow (ascii "a"))) {ascii "a"} es s keys' ∧
      Uploaded (sampleOptions [] [] false []) files es keys' ∧
      ∀ k ∈ keys', Owned (sampleOptions [] [] false []) files k := by
  obtain ⟨es, s, hrun, e, he, hsends⟩ := run_of_exec_mem (step (sampleOptions [] [] false [])
    (.dir true (.cons (ascii "b") .reg (some 3) (.leaf .regular) .nil)))
    (start (sampleOptions [] [] false []) (oneRow (ascii "a"))) sampleWhole
    (fun _ es => Granted es) (fun es _ => ∃ e ∈ es, e.sendsDatabase = true) (by decide)
  obtain ⟨request, response, rfl⟩ := Event.sendsDatabase_iff.mp hsends
  have hmirror := granted_run {ascii "a"} (fun a fs h => ⟨h.2, by
      rintro fails rfl
      simpa [sampleWhole] using h.1, by
      rintro response rfl
      exact ⟨accepted, by simpa [sampleWhole] using h.1, rfl, rfl⟩⟩) hrun
  refine ⟨_, es, s, _, rfl, by decide, hmirror, ?_⟩
  refine mirrored_run rfl (by decide) rfl rfl rfl (fun _ k hk _ => mem_oneRow hk) hmirror
    ?_ he
  rintro k rfl
  exact Or.inr ((AList.mem_insert _).mpr (Or.inl rfl))

end Main

end Clarc
