import Clarc.Main.Deletions

/-!
# The order of a run

`main` is a sequence of parts, each of which may be left out: the credentials, the bucket, the
listing, the mtimes, the table, the walk, the upload, the deletion, the database.

* `Phase.stage` — the part that a phase belongs to, and `stage_le_step`: no step goes back;
* `exits_step` — the status a step ends the process with tells the part it was made in;
* `run_in_order` — **the requests of a run come in the order of its parts, and its status tells how
  far it has come**;
* `upload_alone` — **while the files are uploaded no transaction is open**, so that a statement that
  fails there undoes nothing but itself.
-/

namespace Clarc

open Bytes Reactive Sqlite RemoteListOfFiles

namespace Main

/-! ## Stages -/

/-- The part of the program that the phase belongs to. -/
def Phase.stage : Phase → ℕ
  | .checkingAuth => 0
  | .creatingBucket _ => 1
  | .opening => 2
  | .listing _ => 3
  | .resolving _ => 4
  | .truncating _ => 5
  | .storing _ _ => 6
  | .walking => 7
  | .uploading _ _ => 8
  | .calculating _ => 9
  | .deleting _ _ | .storingDeleted _ _ => 10
  | .statingDatabase => 11
  | .uploadingDatabase _ _ => 12
  | .exited _ | .crashed => 13

/-- The part of the program that sends the request. -/
def Event.stage : Event → ℕ
  | .auth _ _ => 0
  | .create _ _ => 1
  | .list _ _ => 3
  | .resolve _ => 4
  | .upload _ => 8
  | .post _ _ _ => 10
  | .database _ _ => 12

variable {o : Options} {tree : Node} {table : Files} {s s' : State} {a : Action}
  {es fs : List Event}

lemma Phase.stage_le (phase : Phase) : phase.stage ≤ 13 := by
  cases phase <;> simp [stage]

lemma le_stage_afterRebuild : 7 ≤ (afterRebuild o).stage := by
  unfold afterRebuild
  split_ifs <;> simp [Phase.stage]

lemma le_stage_afterDelete : 11 ≤ (afterDelete o).stage := by
  unfold afterDelete
  split_ifs <;> simp [Phase.stage]

lemma le_stage_afterAuth (response : Option Response) : 1 ≤ (afterAuth o response).stage := by
  unfold afterAuth
  split <;> try split_ifs
  all_goals simp [Phase.stage]

/-- A redirect asks for the bucket once more. -/
lemma stage_afterCreate (response : Option Response) :
    ((afterCreate response).stage = 1 ∧ ∃ url, createBucket response = .again url) ∨
      2 ≤ (afterCreate response).stage := by
  unfold afterCreate
  rcases createBucket response with _ | url | _ | _ <;> simp [Phase.stage]

lemma le_stage_afterOpen (opened : Bool) : 3 ≤ (afterOpen o opened).stage := by
  unfold afterOpen
  split_ifs
  · simp [Phase.stage]
  · exact le_trans (by decide) le_stage_afterRebuild
  · simp [Phase.stage]

/-- The listing goes on, or is over. -/
lemma stage_afterList (l : ListStep) :
    (∃ l', l = .again l' ∧ (afterList l).stage = 3) ∨ 4 ≤ (afterList l).stage := by
  rcases l with l' | ⟨_ | _, files⟩ | _
  · exact Or.inl ⟨l', rfl, rfl⟩
  all_goals exact Or.inr (by simp [afterList, Phase.stage])

/-- The resolution goes on, or is over. -/
lemma stage_afterResolve (r : Resolve) :
    (afterResolve o r = .resolving r ∧ r.pc.running = true) ∨ 5 ≤ (afterResolve o r).stage := by
  unfold afterResolve
  rcases hpc : r.pc with i | i | i | _ | (_ | _) | _ | _ <;> dsimp only
  case returned.true =>
    right
    split_ifs
    · exact le_trans (by decide) le_stage_afterRebuild
    · simp [Phase.stage]
  all_goals first
    | exact Or.inl ⟨rfl, rfl⟩
    | exact Or.inr (by simp [Phase.stage])

/-- There is another chunk, or the rebuild is over. -/
lemma stage_nextChunk (remote : List RemoteFile) (bounds : List (ℕ × ℕ)) :
    (nextChunk o remote bounds = .storing remote bounds ∧ bounds ≠ []) ∨
      7 ≤ (nextChunk o remote bounds).stage := by
  rcases bounds with _ | ⟨bound, rest⟩
  · exact Or.inr le_stage_afterRebuild
  · exact Or.inl ⟨rfl, by simp⟩

/-- The upload goes on, or is over. -/
lemma stage_afterUpload (files : LocalFileList) (t : Uploader.State) :
    (afterUpload o files t = .uploading files t ∧ t.pc.running = true) ∨
      9 ≤ (afterUpload o files t).stage := by
  unfold afterUpload
  rcases hpc : t.pc with i | i | ⟨i, fileInfo⟩ | c | _ | (_ | _) | _ | _ <;> dsimp only
  case returned.true =>
    right
    split_ifs
    · simp [Phase.stage]
    · exact le_trans (by decide) le_stage_afterDelete
  all_goals first
    | exact Or.inl ⟨rfl, rfl⟩
    | exact Or.inr (by simp [Phase.stage])

/-- There is another batch, or the deletion is over. -/
lemma stage_nextBatch (batches : List (List Bytes)) :
    (∃ batch rest, batches = batch :: rest ∧ nextBatch o batches = .deleting batch rest) ∨
      11 ≤ (nextBatch o batches).stage := by
  rcases batches with _ | ⟨batch, rest⟩
  · exact Or.inr le_stage_afterDelete
  · rw [nextBatch]
    split_ifs
    · exact Or.inr le_stage_afterDelete
    · exact Or.inr (by simp [Phase.stage])
    · exact Or.inl ⟨batch, rest, rfl, rfl⟩

/-- The batch is accepted, or the deletion is over. -/
lemma stage_afterPost (batch : List Bytes) (rest : List (List Bytes))
    (response : Option Response) :
    afterPost o batch rest response = .storingDeleted batch rest ∨
      11 ≤ (afterPost o batch rest response).stage := by
  unfold afterPost
  split
  · exact Or.inr (by simp [Phase.stage])
  · exact Or.inl rfl
  · exact Or.inr le_stage_afterDelete

lemma le_stage_afterStat (answer : Option Stat) : 12 ≤ (afterStat answer).stage := by
  rcases answer with _ | fileInfo <;> simp [afterStat, Phase.stage]

/-- There is another attempt, or the run is over. -/
lemma stage_afterDatabase (fileInfo : Stat) (result : Option Uploader.RetryResult) :
    (∃ r, result = some (.again r) ∧
      afterDatabase fileInfo result = .uploadingDatabase fileInfo r) ∨
      (afterDatabase fileInfo result).stage = 13 := by
  rcases result with _ | (r | _ | _)
  · exact Or.inr rfl
  · exact Or.inl ⟨r, rfl, rfl⟩
  · exact Or.inr rfl
  · exact Or.inr rfl

/-- **No step goes back**, and what it shows belongs to the part it was made in. -/
theorem stage_le_step (hs : step o tree s a = some (s', es)) :
    s.phase.stage ≤ s'.phase.stage ∧ ∀ e ∈ es, e.stage = s.phase.stage := by
  have hsent : ∀ {e : Response → Event} {response : Option Response} {n : ℕ},
      (∀ r, (e r).stage = n) → ∀ e' ∈ sent e response, e'.stage = n := by
    intro e response n he e' he'
    obtain ⟨r, -, rfl⟩ := mem_sent he'
    exact he r
  have hmap : ∀ {β : Type} {e : β → Event} {fs : List β} {n : ℕ},
      (∀ x, (e x).stage = n) → ∀ e' ∈ fs.map e, e'.stage = n := by
    intro β e fs n he e' he'
    obtain ⟨x, -, rfl⟩ := List.mem_map.mp he'
    exact he x
  cases step_transition hs with
  | auth response hpc =>
      rw [hpc]
      exact ⟨Nat.zero_le _, hsent fun _ => rfl⟩
  | create response url hpc =>
      rw [hpc]
      refine ⟨?_, hsent fun _ => rfl⟩
      rcases stage_afterCreate response with ⟨h, -⟩ | h <;> dsimp only [Phase.stage] at h ⊢ <;>
        omega
  | opened opened hpc =>
      rw [hpc]
      exact ⟨le_trans (by decide) (le_stage_afterOpen opened), by simp⟩
  | listed response l hpc =>
      rw [hpc]
      refine ⟨?_, hsent fun _ => rfl⟩
      rcases stage_afterList (l.next response) with ⟨l', -, h⟩ | h <;>
        dsimp only [Phase.stage] at h ⊢ <;> omega
  | resolved r r' b fs hpc _ =>
      rw [hpc]
      refine ⟨?_, hmap fun _ => rfl⟩
      rcases stage_afterResolve (o := o) r' with ⟨h, -⟩ | h
      · dsimp only
        rw [h]
        exact le_rfl
      · exact le_trans (by simp [Phase.stage]) h
  | truncated fails remote conn hpc _ =>
      rw [hpc]
      refine ⟨?_, by simp⟩
      rcases stage_nextChunk (o := o) remote (FileListStorage.chunkBounds remote.length) with
        ⟨h, -⟩ | h
      · dsimp only
        rw [h]
        simp [Phase.stage]
      · exact le_trans (by simp [Phase.stage]) h
  | stored fails remote lo hi rest conn hpc _ =>
      rw [hpc]
      refine ⟨?_, by simp⟩
      rcases stage_nextChunk (o := o) remote rest with ⟨h, -⟩ | h
      · dsimp only
        rw [h]
        exact le_rfl
      · exact le_trans (by simp [Phase.stage]) h
  | walked files hpc _ =>
      rw [hpc]
      exact ⟨by simp [Phase.stage], by simp⟩
  | uploaded files t t' b fs hpc _ =>
      rw [hpc]
      refine ⟨?_, hmap fun _ => rfl⟩
      rcases stage_afterUpload (o := o) files t' with ⟨h, -⟩ | h
      · dsimp only
        rw [h]
        exact le_rfl
      · exact le_trans (by simp [Phase.stage]) h
  | calculated fails files filesToDelete conn hpc _ =>
      rw [hpc]
      refine ⟨?_, by simp⟩
      rcases stage_nextBatch (o := o) (o.deleter.batches [] filesToDelete) with
        ⟨batch, rest, -, h⟩ | h
      · dsimp only
        rw [h]
        simp [Phase.stage]
      · exact le_trans (by simp [Phase.stage]) h
  | posted response batch rest xml hpc _ =>
      rw [hpc]
      refine ⟨?_, hsent fun _ => rfl⟩
      rcases stage_afterPost (o := o) batch rest response with h | h
      · dsimp only
        rw [h]
        exact le_rfl
      · exact le_trans (by simp [Phase.stage]) h
  | storedDeleted fails batch rest hpc =>
      rw [hpc]
      refine ⟨?_, by simp⟩
      rcases stage_nextBatch (o := o) rest with ⟨batch', rest', -, h⟩ | h
      · dsimp only
        rw [h]
        exact le_rfl
      · exact le_trans (by simp [Phase.stage]) h
  | stated answer hpc =>
      rw [hpc]
      exact ⟨le_trans (by simp [Phase.stage]) (le_stage_afterStat answer), by simp⟩
  | databaseSent attempt fileInfo r exchanged hpc _ _ =>
      rw [hpc]
      refine ⟨?_, hmap fun _ => rfl⟩
      rcases stage_afterDatabase fileInfo (r.next o.databaseFilePath attempt) with ⟨r', -, h⟩ | h
      · dsimp only
        rw [h]
        exact le_rfl
      · dsimp only
        rw [h]
        simp [Phase.stage]
  | truncateFailed _ _ _ _ _ | storeFailed _ _ _ _ _ _ _ _ | walkCrashed _ _
  | calculateFailed _ _ _ _ _ | unposted _ _ _ _ _ | databaseLost _ _ _ _ _ _ =>
      -- the process ends
      exact ⟨Phase.stage_le _, by simp⟩

/-- The events so far, and those of the next step, belong to parts that the process has come to. -/
lemma stage_le_append (hle : ∀ e ∈ es, e.stage ≤ s.phase.stage)
    (hs : step o tree s a = some (s', fs)) :
    (∀ e ∈ es ++ fs, e.stage ≤ s.phase.stage) ∧ ∀ e ∈ es ++ fs, e.stage ≤ s'.phase.stage := by
  obtain ⟨hmono, hfs⟩ := stage_le_step hs
  have hle' : ∀ e ∈ es ++ fs, e.stage ≤ s.phase.stage := by
    intro e he
    rcases List.mem_append.mp he with he | he
    · exact hle e he
    · exact (hfs e he).le
  exact ⟨hle', fun e he => (hle' e he).trans hmono⟩

/-! ## How a run ends -/

/-- If the process has ended there, its status is one of these. -/
def Phase.ExitsWith (statuses : List ℕ) : Phase → Prop
  | .exited status => status ∈ statuses
  | _ => True

lemma Phase.ExitsWith.mono {phase : Phase} {statuses statuses' : List ℕ}
    (h : phase.ExitsWith statuses) (hsub : statuses ⊆ statuses') : phase.ExitsWith statuses' := by
  rcases phase <;> try trivial
  exact hsub h

lemma afterRebuild_exits : (afterRebuild o).ExitsWith [0] := by
  unfold afterRebuild
  split_ifs <;> simp [Phase.ExitsWith]

lemma afterDelete_exits : (afterDelete o).ExitsWith [0] := by
  unfold afterDelete
  split_ifs <;> simp [Phase.ExitsWith]

lemma afterAuth_exits (response : Option Response) : (afterAuth o response).ExitsWith [1] := by
  unfold afterAuth
  split <;> try split_ifs
  all_goals simp [Phase.ExitsWith]

lemma afterCreate_exits (response : Option Response) : (afterCreate response).ExitsWith [1] := by
  unfold afterCreate
  rcases createBucket response with _ | url | _ | _ <;> simp [Phase.ExitsWith]

lemma afterOpen_exits (opened : Bool) : (afterOpen o opened).ExitsWith [0, 1] := by
  unfold afterOpen
  split_ifs
  · trivial
  · exact afterRebuild_exits.mono (by simp)
  · simp [Phase.ExitsWith]

lemma afterList_exits (l : ListStep) : (afterList l).ExitsWith [1] := by
  rcases l with l' | ⟨_ | _, files⟩ | _ <;> simp [afterList, Phase.ExitsWith]

lemma afterResolve_exits (r : Resolve) : (afterResolve o r).ExitsWith [0, 1, 255] := by
  unfold afterResolve
  split
  · split_ifs
    · exact afterRebuild_exits.mono (by simp)
    · trivial
  all_goals simp [Phase.ExitsWith]

lemma nextChunk_exits (remote : List RemoteFile) (bounds : List (ℕ × ℕ)) :
    (nextChunk o remote bounds).ExitsWith [0] := by
  rcases stage_nextChunk (o := o) remote bounds with ⟨h, -⟩ | h
  · rw [h]
    trivial
  · rcases bounds with _ | ⟨bound, rest⟩
    · exact afterRebuild_exits
    · trivial

lemma afterUpload_exits (files : LocalFileList) (t : Uploader.State) :
    (afterUpload o files t).ExitsWith [0, 255] := by
  unfold afterUpload
  split
  · split_ifs
    · trivial
    · exact afterDelete_exits.mono (by simp)
  all_goals simp [Phase.ExitsWith]

lemma nextBatch_exits (batches : List (List Bytes)) :
    (nextBatch o batches).ExitsWith [0] := by
  rcases batches with _ | ⟨batch, rest⟩
  · exact afterDelete_exits
  · rw [nextBatch]
    split_ifs
    · exact afterDelete_exits
    · trivial
    · trivial

lemma afterPost_exits (batch : List Bytes) (rest : List (List Bytes))
    (response : Option Response) : (afterPost o batch rest response).ExitsWith [0] := by
  unfold afterPost
  split
  · trivial
  · trivial
  · exact afterDelete_exits

/-- The status a step ends the process with, from where it was made. -/
def statuses (stage : ℕ) : List ℕ :=
  if stage ≤ 6 then [0, 1, 255] else if stage ≤ 8 then [0, 255] else [0]

/-- A step that ends the process does so with a status of its part. -/
lemma exits_step (hs : step o tree s a = some (s', es)) :
    s'.phase.ExitsWith (statuses s.phase.stage) := by
  cases step_transition hs with
  | auth response hpc =>
      rw [hpc]
      exact (afterAuth_exits response).mono (by decide)
  | create response url hpc =>
      rw [hpc]
      exact (afterCreate_exits response).mono (by simp [statuses, Phase.stage])
  | opened opened hpc =>
      rw [hpc]
      exact (afterOpen_exits opened).mono (by decide)
  | listed response l hpc =>
      rw [hpc]
      exact (afterList_exits _).mono (by simp [statuses, Phase.stage])
  | resolved r r' b fs hpc _ =>
      rw [hpc]
      exact afterResolve_exits r'
  | truncated fails remote conn hpc _ =>
      rw [hpc]
      exact (nextChunk_exits remote _).mono (by simp [statuses, Phase.stage])
  | stored fails remote lo hi rest conn hpc _ =>
      rw [hpc]
      exact (nextChunk_exits remote rest).mono (by simp [statuses, Phase.stage])
  | uploaded files t t' b fs hpc _ =>
      rw [hpc]
      exact afterUpload_exits files t'
  | calculated fails files filesToDelete conn hpc _ =>
      rw [hpc]
      exact nextBatch_exits _
  | posted response batch rest xml hpc _ =>
      rw [hpc]
      exact afterPost_exits batch rest response
  | storedDeleted fails batch rest hpc =>
      rw [hpc]
      exact nextBatch_exits rest
  | stated answer hpc =>
      rw [hpc]
      rcases answer with _ | fileInfo <;> simp [afterStat, Phase.ExitsWith, statuses, Phase.stage]
  | databaseSent attempt fileInfo r exchanged hpc _ _ =>
      rw [hpc]
      rcases r.next o.databaseFilePath attempt with _ | (_ | _ | _) <;>
        simp [afterDatabase, Phase.ExitsWith, statuses, Phase.stage]
  | truncateFailed _ _ _ hpc _ | storeFailed _ _ _ _ _ _ hpc _ =>
      rw [hpc]
      simp [Phase.ExitsWith, statuses, Phase.stage]
  | walkCrashed _ _ | walked _ _ _ | calculateFailed _ _ _ _ _ | unposted _ _ _ _ _
  | databaseLost _ _ _ _ _ _ => trivial

/-- **The requests of a run come in the order of its parts**, and the status it ends with tells how
far it has come: with status 1 nothing was uploaded and nothing deleted, with status 255 nothing was
deleted and no database sent. -/
theorem run_in_order (h : Run (step o tree) anything (start o table) () es s ()) :
    (es.map Event.stage).Pairwise (· ≤ ·) ∧ ∀ status, s.phase = .exited status →
      status = 0 ∨ (status = 1 ∧ ∀ e ∈ es, e.stage ≤ 4) ∨
        (status = 255 ∧ ∀ e ∈ es, e.stage ≤ 8) := by
  have hall : (es.map Event.stage).Pairwise (· ≤ ·) ∧ (∀ e ∈ es, e.stage ≤ s.phase.stage) ∧
      ∀ status, s.phase = .exited status →
        ∃ stage, status ∈ statuses stage ∧ ∀ e ∈ es, e.stage ≤ stage := by
    refine h.invariant (I := fun es s _ => (es.map Event.stage).Pairwise (· ≤ ·) ∧
      (∀ e ∈ es, e.stage ≤ s.phase.stage) ∧ ∀ status, s.phase = .exited status →
        ∃ stage, status ∈ statuses stage ∧ ∀ e ∈ es, e.stage ≤ stage) ?_ ?_
    · refine ⟨List.Pairwise.nil, by simp, ?_⟩
      intro status hstatus
      unfold start at hstatus
      dsimp only at hstatus
      split_ifs at hstatus
    · rintro es t _ a fs t' _ ⟨hsorted, hle, -⟩ hs -
      obtain ⟨-, hfs⟩ := stage_le_step hs
      obtain ⟨hbefore, hafter⟩ := stage_le_append hle hs
      refine ⟨?_, hafter, ?_⟩
      · rw [List.map_append, List.pairwise_append]
        refine ⟨hsorted, ?_, ?_⟩
        · -- the events of one step belong to one part
          rw [List.pairwise_map]
          exact List.pairwise_of_forall_mem_list fun e he e' he' =>
            ((hfs e he).trans (hfs e' he').symm).le
        · intro m hm n hn
          obtain ⟨e, he, rfl⟩ := List.mem_map.mp hm
          obtain ⟨e', he', rfl⟩ := List.mem_map.mp hn
          exact (hle e he).trans (hfs e' he').ge
      · intro status hstatus
        have hexits := exits_step hs
        rw [hstatus] at hexits
        exact ⟨_, hexits, hbefore⟩
  refine ⟨hall.1, fun status hstatus => ?_⟩
  obtain ⟨stage, hmem, hle⟩ := hall.2.2 status hstatus
  -- no part sends requests between the mtimes and the upload
  have hgap : ∀ e : Event, e.stage ≤ 6 → e.stage ≤ 4 := by
    intro e
    rcases e <;> simp [Event.stage]
  unfold statuses at hmem
  split_ifs at hmem with h6 h8
  · simp only [List.mem_cons, List.not_mem_nil, or_false] at hmem
    rcases hmem with rfl | rfl | rfl
    · exact Or.inl rfl
    · exact Or.inr (Or.inl ⟨rfl, fun e he => hgap e ((hle e he).trans h6)⟩)
    · exact Or.inr (Or.inr ⟨rfl, fun e he => (hle e he).trans (h6.trans (by decide))⟩)
  · simp only [List.mem_cons, List.not_mem_nil, or_false] at hmem
    rcases hmem with rfl | rfl
    · exact Or.inl rfl
    · exact Or.inr (Or.inr ⟨rfl, fun e he => (hle e he).trans h8⟩)
  · exact Or.inl (List.mem_singleton.mp hmem)

theorem run_in_order_sample :
    ∃ es s, Run (step (sampleOptions [] [] false []) (.dir true .nil)) anything
        (start (sampleOptions [] [] false []) (oneRow (ascii "a"))) () es s () ∧
      es.map Event.stage = [0, 10] ∧ (es.map Event.stage).Pairwise (· ≤ ·) ∧
      ∀ status, s.phase = .exited status → status = 0 ∨ (status = 1 ∧ ∀ e ∈ es, e.stage ≤ 4) ∨
        (status = 255 ∧ ∀ e ∈ es, e.stage ≤ 8) := by
  obtain ⟨es, s, hrun, hes⟩ := run_of_exec (step (sampleOptions [] [] false []) (.dir true .nil))
    (start (sampleOptions [] [] false []) (oneRow (ascii "a"))) sampleDelete (fun _ _ => True)
    (fun es _ => es.map Event.stage = [0, 10]) (by decide)
  exact ⟨es, s, hrun, hes, run_in_order hrun⟩

/-! ## Transactions -/

/-- Up to the deletion no transaction is open. -/
def Phase.Alone (conn : Db) : Phase → Prop
  | .uploading _ t => conn.Settled ∧ t.conn.Settled
  | .checkingAuth | .creatingBucket _ | .opening | .listing _ | .resolving _ | .truncating _
  | .storing _ _ | .walking | .calculating _ => conn.Settled
  | .deleting _ _ | .storingDeleted _ _ | .statingDatabase | .uploadingDatabase _ _ | .exited _
  | .crashed => True

lemma Phase.Idle.alone {conn : Db} (hconn : conn.Settled) {phase : Phase} (h : phase.Idle) :
    phase.Alone conn := by
  rcases phase <;> trivial

lemma nextChunk_alone {conn : Db} (hconn : conn.Settled) (remote : List RemoteFile)
    (bounds : List (ℕ × ℕ)) : (nextChunk o remote bounds).Alone conn := by
  rcases bounds with _ | ⟨bound, rest⟩
  · exact afterRebuild_idle.alone hconn
  · exact hconn

lemma afterList_alone {conn : Db} (hconn : conn.Settled) (l : ListStep) :
    (afterList l).Alone conn := by
  rcases l with l | ⟨_ | _, files⟩ | _ <;> trivial

lemma afterOpen_alone {conn : Db} (hconn : conn.Settled) (opened : Bool) :
    (afterOpen o opened).Alone conn := by
  unfold afterOpen
  split_ifs
  · exact hconn
  · exact afterRebuild_idle.alone hconn
  · trivial

lemma afterResolve_alone {conn : Db} (hconn : conn.Settled) (r : Resolve) :
    (afterResolve o r).Alone conn := by
  unfold afterResolve
  split
  · split_ifs
    · exact afterRebuild_idle.alone hconn
    · exact hconn
  all_goals trivial

lemma afterUpload_alone {t : Uploader.State} (hconn : t.conn.Settled) (files : LocalFileList) :
    (afterUpload o files t).Alone t.conn := by
  unfold afterUpload
  split
  · split_ifs
    · exact hconn
    · exact afterDelete_idle.alone hconn
  all_goals trivial

lemma nextBatch_alone {conn : Db} (batches : List (List Bytes)) :
    (nextBatch o batches).Alone conn := by
  rcases stage_nextBatch (o := o) batches with ⟨batch, rest, -, h⟩ | h
  · rw [h]
    trivial
  · rcases hphase : nextBatch o batches <;> rw [hphase] at h <;> simp [Phase.stage] at h <;> trivial

/-- What opens a transaction closes it, or ends the process. -/
lemma Phase.Alone.step (h : s.phase.Alone s.conn) (hs : Main.step o tree s a = some (s', es)) :
    s'.phase.Alone s'.conn := by
  cases step_transition hs with
  | auth response hpc =>
      rw [hpc] at h
      exact (afterAuth_idle response).alone h
  | create response url hpc =>
      rw [hpc] at h
      exact (afterCreate_idle response).alone h
  | opened opened hpc =>
      rw [hpc] at h
      exact afterOpen_alone h opened
  | listed response l hpc =>
      rw [hpc] at h
      exact afterList_alone h _
  | resolved r r' b fs hpc hstep =>
      rw [hpc] at h
      exact afterResolve_alone h r'
  | truncated fails remote conn hpc hrun =>
      obtain ⟨rfl, hsettled⟩ := Script.wp_run (FileListStorage.truncate_spec fails s.conn) hrun
      exact nextChunk_alone hsettled remote _
  | stored fails remote lo hi rest conn hpc hrun =>
      obtain ⟨rfl, hsettled⟩ := Script.wp_run
        (FileListStorage.storeRemoteListOfFilesChunk_spec fails remote lo hi s.conn) hrun
      exact nextChunk_alone hsettled remote rest
  | walked files hpc hwalk =>
      rw [hpc] at h
      exact ⟨h, h⟩
  | uploaded files t t' b fs hpc hstep =>
      rw [hpc] at h
      exact afterUpload_alone ((Uploader.step_transition hstep).settled h.2) files
  | calculated fails files filesToDelete conn hpc hrun => exact nextBatch_alone _
  | posted response batch rest xml hpc hxml =>
      dsimp only [afterPost]
      split
      · trivial
      · trivial
      · exact nextBatch_alone []
  | storedDeleted fails batch rest hpc => exact nextBatch_alone rest
  | stated answer hpc => rcases answer with _ | fileInfo <;> trivial
  | databaseSent attempt fileInfo r exchanged hpc hopens hexchange =>
      rcases r.next o.databaseFilePath attempt with _ | (_ | _ | _) <;> trivial
  | _ => trivial

/-- **While the files are uploaded no transaction is open**, in whichever way the rebuild before it
and the statements of the threads fail: each of these statements stands alone. -/
theorem upload_alone (h : Run (step o tree) anything (start o table) () es s ())
    {files : LocalFileList} {t : Uploader.State} (hpc : s.phase = .uploading files t)
    (fails : Option Undoing) (statement : Db → Option Db) :
    (Script.performAlone fails statement).runOn t.conn =
      (Script.perform fails statement).runOn t.conn := by
  have halone : s.phase.Alone s.conn := by
    refine h.invariant (I := fun _ s _ => s.phase.Alone s.conn) ?_ fun hI hs _ => hI.step hs
    unfold start
    dsimp only
    split_ifs <;> rfl
  rw [hpc] at halone
  exact Script.performAlone_eq halone.2 fails statement

end Main

end Clarc
