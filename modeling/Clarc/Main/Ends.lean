import Clarc.Listing.Ends
import Clarc.Main.Order
import Clarc.Upload.Ends

/-!
# Every run comes to its end

The program has four loops that ask a server as long as it likes: for a new bucket, for the pages of
a listing, for the mtime of a file and for an upload.  The last goes on by itself after a 307, when
the attempts that follow fail before anything is sent.  Everything else that the program does is
bounded by what it has read before.

* `Prolongs` — the steps that keep a run going;
* `measured` — **every other step brings the run closer to its end**: to a later part, or forward in
  its own;
* `endless_run_prolonged` — that of every run, and **a run without an end is prolonged again and
  again**;
* `run_completes` — **every run can be completed**, whatever has happened before: the loops and the
  threads never wait for one another in vain.
-/

namespace Clarc

open Bytes Reactive Sqlite RemoteListOfFiles

namespace Main

/-! ## What prolongs a run -/

/-- The step keeps the run in one of its loops: the bucket is to be asked for elsewhere, the listing
goes on, a HEAD is redirected, or the count of the attempts to upload begins again, because of a 307
or of one that an attempt which sends nothing finds in the buffer. -/
def Prolongs (s : State) : Action → Prop
  | .create response => ∃ url, createBucket response = .again url
  | .list response => ∃ l l', s.phase = .listing l ∧ l.next response = .again l'
  | .resolve a => a.Redirected
  | .upload a => ∃ files t, s.phase = .uploading files t ∧ Uploader.Prolongs t a
  | .database attempt =>
      ∃ fileInfo r, s.phase = .uploadingDatabase fileInfo r ∧ r.Prolonged attempt
  | _ => False

/-- The process is over. -/
def Phase.Ended : Phase → Prop
  | .exited _ | .crashed => True
  | _ => False

/-! ## What is left -/

/-- How much of its part the run still has before it at most. -/
def Phase.rank (o : Options) : Phase → ℕ
  | .resolving r => r.cost
  | .storing _ bounds => bounds.length
  | .uploading files t => Uploader.cost o.uploader files t
  | .deleting _ rest => 2 * rest.length + 1
  | .storingDeleted _ rest => 2 * rest.length
  | .uploadingDatabase _ r => RETRY_FAIL_AFTER - r.cUploads
  | _ => 0

/-- The parts that come after, and what is left of this one. -/
def measure (o : Options) (s : State) : ℕ ×ₗ ℕ := toLex (13 - s.phase.stage, s.phase.rank o)

/-- The loops have not ended, and their threads are where they should be. -/
def Phase.Going (o : Options) : Phase → Prop
  | .resolving r => r.Seated ∧ r.pc.running = true
  | .storing _ bounds => bounds ≠ []
  | .uploading files t =>
      (∃ es, Uploader.Placed o.uploader files o.source es t) ∧ t.pc.running = true
  | _ => True

variable {o : Options} {tree : Node} {table : Files} {s s' : State} {a : Action} {es : List Event}

lemma Phase.Idle.going {phase : Phase} (h : phase.Idle) : phase.Going o := by
  rcases phase <;> trivial

lemma start_going : (start o table).phase.Going o := by
  unfold start
  split_ifs <;> trivial

lemma afterOpen_going (opened : Bool) : (afterOpen o opened).Going o := by
  unfold afterOpen
  split_ifs
  · trivial
  · exact afterRebuild_idle.going
  · trivial

lemma afterList_going (l : ListStep) : (afterList l).Going o := by
  rcases l with l | ⟨_ | _, files⟩ | _ <;> try trivial
  exact ⟨Resolve.seated_start files, rfl⟩

lemma afterResolve_going {r : Resolve} (h : r.Seated) : (afterResolve o r).Going o := by
  unfold afterResolve
  rcases hpc : r.pc with i | i | i | _ | (_ | _) | _ | _ <;> dsimp only
  case returned.true =>
    split_ifs
    · exact afterRebuild_idle.going
    · trivial
  all_goals first
    | trivial
    | exact ⟨h, by rw [hpc]; rfl⟩

lemma nextChunk_going (remote : List RemoteFile) (bounds : List (ℕ × ℕ)) :
    (nextChunk o remote bounds).Going o := by
  rcases bounds with _ | ⟨bound, rest⟩
  · exact afterRebuild_idle.going
  · exact List.cons_ne_nil _ _

lemma afterUpload_going {files : LocalFileList} {t : Uploader.State} {fs : List Uploader.Event}
    (h : Uploader.Placed o.uploader files o.source fs t) : (afterUpload o files t).Going o := by
  unfold afterUpload
  rcases hpc : t.pc with i | i | ⟨i, fileInfo⟩ | c | _ | (_ | _) | _ | _ <;> dsimp only
  case returned.true =>
    split_ifs
    · trivial
    · exact afterDelete_idle.going
  all_goals first
    | trivial
    | exact ⟨⟨fs, h⟩, by rw [hpc]; rfl⟩

lemma nextBatch_going (batches : List (List Bytes)) : (nextBatch o batches).Going o := by
  rcases stage_nextBatch (o := o) batches with ⟨batch, rest, -, h⟩ | h
  · rw [h]
    trivial
  · rcases hphase : nextBatch o batches <;> rw [hphase] at h <;> simp [Phase.stage] at h <;> trivial

lemma afterPost_going (batch : List Bytes) (rest : List (List Bytes))
    (response : Option Response) : (afterPost o batch rest response).Going o := by
  unfold afterPost
  split
  · trivial
  · trivial
  · exact afterDelete_idle.going

/-- A step leaves a loop with its threads in place, or goes to where there is none. -/
lemma Phase.Going.step (h : s.phase.Going o) (hs : step o tree s a = some (s', es)) :
    s'.phase.Going o := by
  cases step_transition hs with
  | auth response _ => exact (afterAuth_idle response).going
  | create response url _ => exact (afterCreate_idle response).going
  | opened opened _ => exact afterOpen_going opened
  | listed response l _ => exact afterList_going _
  | resolved r r' b fs hpc hstep =>
      rw [hpc] at h
      exact afterResolve_going (h.1.step hstep)
  | truncated fails remote conn _ _ => exact nextChunk_going remote _
  | stored fails remote lo hi rest conn _ _ => exact nextChunk_going remote rest
  | walked files _ _ => exact ⟨⟨[], Uploader.placed_start⟩, rfl⟩
  | uploaded files t t' b fs hpc hstep =>
      rw [hpc] at h
      obtain ⟨⟨gs, hplaced⟩, -⟩ := h
      exact afterUpload_going (hplaced.transition (Uploader.step_transition hstep))
  | calculated fails files filesToDelete conn _ _ => exact nextBatch_going _
  | posted response batch rest xml _ _ => exact afterPost_going batch rest response
  | storedDeleted fails batch rest _ => exact nextBatch_going rest
  | stated answer _ => exact (afterStat_idle answer).going
  | databaseSent _ fileInfo _ _ _ _ _ => exact (afterDatabase_idle fileInfo _).going
  | truncateFailed _ _ _ _ _ | storeFailed _ _ _ _ _ _ _ _ | walkCrashed _ _
  | calculateFailed _ _ _ _ _ | unposted _ _ _ _ _ | databaseLost _ _ _ _ _ _ => trivial

/-! ## Every step but those -/

lemma measure_lt_of_stage (h : s.phase.stage < s'.phase.stage) : measure o s' < measure o s := by
  have hle := s'.phase.stage_le
  rw [measure, measure, Prod.Lex.toLex_lt_toLex]
  left
  dsimp only
  omega

lemma measure_lt_of_rank (h : s'.phase.stage = s.phase.stage)
    (hrank : s'.phase.rank o < s.phase.rank o) : measure o s' < measure o s := by
  rw [measure, measure, Prod.Lex.toLex_lt_toLex]
  exact Or.inr ⟨by rw [h], hrank⟩

/-- **Every step brings the run closer to its end, unless it prolongs the run.** -/
lemma measure_step (h : s.phase.Going o) (hs : step o tree s a = some (s', es))
    (hnot : ¬ Prolongs s a) : measure o s' < measure o s := by
  have hlater : ∀ {n : ℕ}, s.phase.stage = n → n < s'.phase.stage → measure o s' < measure o s :=
    fun hn hlt => measure_lt_of_stage (hn ▸ hlt)
  cases step_transition hs with
  | auth response hpc => exact hlater (by rw [hpc]; rfl) (le_stage_afterAuth response)
  | create response url hpc =>
      rcases stage_afterCreate response with ⟨-, hagain⟩ | hle
      · exact absurd hagain hnot
      · exact hlater (by rw [hpc]; rfl) hle
  | opened opened hpc => exact hlater (by rw [hpc]; rfl) (le_stage_afterOpen opened)
  | listed response l hpc =>
      rcases stage_afterList (l.next response) with ⟨l', hagain, -⟩ | hle
      · exact absurd ⟨l, l', hpc, hagain⟩ hnot
      · exact hlater (by rw [hpc]; rfl) hle
  | resolved r r' b fs hpc hstep =>
      rw [hpc] at h
      rcases stage_afterResolve (o := o) r' with ⟨hsame, -⟩ | hle
      · refine measure_lt_of_rank ?_ ?_
        · dsimp only
          rw [hsame, hpc]
          rfl
        · dsimp only
          rw [hsame, hpc]
          exact Resolve.cost_step h.1 hstep hnot
      · exact hlater (by rw [hpc]; rfl) hle
  | truncated fails remote conn hpc _ =>
      refine hlater (n := 5) (by rw [hpc]; rfl) ?_
      rcases stage_nextChunk (o := o) remote (FileListStorage.chunkBounds remote.length) with
        ⟨hsame, -⟩ | hle
      · dsimp only
        rw [hsame]
        simp [Phase.stage]
      · exact lt_of_lt_of_le (by decide) hle
  | stored fails remote lo hi rest conn hpc _ =>
      rcases stage_nextChunk (o := o) remote rest with ⟨hsame, -⟩ | hle
      · refine measure_lt_of_rank ?_ ?_
        · dsimp only
          rw [hsame, hpc]
          rfl
        · dsimp only
          rw [hsame, hpc]
          exact Nat.lt_succ_self _
      · exact hlater (by rw [hpc]; rfl) hle
  | walked files hpc _ => exact hlater (n := 7) (by rw [hpc]; rfl) (by simp [Phase.stage])
  | uploaded files t t' b fs hpc hstep =>
      rw [hpc] at h
      obtain ⟨⟨gs, hplaced⟩, -⟩ := h
      rcases stage_afterUpload (o := o) files t' with ⟨hsame, -⟩ | hle
      · refine measure_lt_of_rank ?_ ?_
        · dsimp only
          rw [hsame, hpc]
          rfl
        · dsimp only
          rw [hsame, hpc]
          exact Uploader.cost_step hplaced hstep fun hprolongs => hnot ⟨files, t, hpc, hprolongs⟩
      · exact hlater (by rw [hpc]; rfl) hle
  | calculated fails files filesToDelete conn hpc _ =>
      refine hlater (n := 9) (by rw [hpc]; rfl) ?_
      rcases stage_nextBatch (o := o) (o.deleter.batches [] filesToDelete) with
        ⟨batch, rest, -, hsame⟩ | hle
      · dsimp only
        rw [hsame]
        simp [Phase.stage]
      · exact lt_of_lt_of_le (by decide) hle
  | posted response batch rest xml hpc _ =>
      rcases stage_afterPost (o := o) batch rest response with hsame | hle
      · refine measure_lt_of_rank ?_ ?_
        · dsimp only
          rw [hsame, hpc]
          rfl
        · dsimp only
          rw [hsame, hpc]
          exact Nat.lt_succ_self _
      · exact hlater (by rw [hpc]; rfl) hle
  | storedDeleted fails batch rest hpc =>
      rcases stage_nextBatch (o := o) rest with ⟨batch', rest', hrest, hsame⟩ | hle
      · refine measure_lt_of_rank ?_ ?_
        · dsimp only
          rw [hsame, hpc]
          rfl
        · dsimp only
          rw [hsame, hpc, hrest]
          simp only [Phase.rank, List.length_cons]
          omega
      · exact hlater (by rw [hpc]; rfl) hle
  | stated answer hpc => exact hlater (by rw [hpc]; rfl) (le_stage_afterStat answer)
  | databaseSent attempt fileInfo r exchanged hpc _ _ =>
      rcases stage_afterDatabase fileInfo (r.next o.databaseFilePath attempt) with
        ⟨r', hnext, hsame⟩ | hlast
      · have hprolonged : ¬ r.Prolonged attempt := fun h => hnot ⟨fileInfo, r, hpc, h⟩
        obtain ⟨h307, hstale⟩ := not_or.mp hprolonged
        obtain ⟨hcount, hlt, -⟩ := Uploader.next_counted hnext h307 (not_and_or.mp hstale)
        refine measure_lt_of_rank ?_ ?_
        · dsimp only
          rw [hsame, hpc]
          rfl
        · dsimp only
          rw [hsame, hpc]
          simp only [Phase.rank, hcount]
          omega
      · exact hlater (n := 12) (by rw [hpc]; rfl) (by dsimp only; rw [hlast]; decide)
  | truncateFailed _ _ _ hpc _ | storeFailed _ _ _ _ _ _ hpc _ | walkCrashed hpc _
  | calculateFailed _ _ _ hpc _ | unposted _ _ _ hpc _ | databaseLost _ _ _ hpc _ _ =>
      -- the process ends
      refine measure_lt_of_stage ?_
      rw [hpc]
      simp [Phase.stage]

/-- **A run of `main` is measured by what is left of it.** -/
theorem measured : Measured (step o tree) (fun s => s.phase.Going o) Prolongs (measure o) :=
  ⟨fun h hs => h.step hs, fun h hs hnot => measure_step h hs hnot⟩

lemma going_run (h : Run (step o tree) anything (start o table) () es s ()) : s.phase.Going o :=
  h.invariant (I := fun _ s _ => s.phase.Going o) start_going fun hI hs _ => hI.step hs

/-- The bucket is to be created elsewhere. -/
def moved : Response where
  code := .ok
  responseCode := 307
  headers := ascii "HTTP/1.1 307 Temporary Redirect\r\nLocation: http://b\r\n\r\n"

/-- A run that has not ended can go on, without being prolonged. -/
lemma exists_step (h : s.phase.Going o) (hended : ¬ s.phase.Ended) :
    ∃ a s' fs, step o tree s a = some (s', fs) ∧ ¬ Prolongs s a := by
  rcases hpc : s.phase with _ | url | _ | l | r | remote | ⟨remote, bounds⟩ | _ | ⟨files, t⟩ |
    files | ⟨batch, rest⟩ | ⟨batch, rest⟩ | _ | ⟨fileInfo, r⟩ | status | _
  case checkingAuth => exact ⟨.auth none, _, _, by simp only [step, hpc]; rfl, id⟩
  case creatingBucket =>
    refine ⟨.create none, _, _, by simp only [step, hpc]; rfl, ?_⟩
    rintro ⟨url', hagain⟩
    cases hagain
  case opening => exact ⟨.openDatabase false, _, _, by simp only [step, hpc]; rfl, id⟩
  case listing =>
    refine ⟨.list none, _, _, by simp only [step, hpc]; rfl, ?_⟩
    rintro ⟨l', l'', -, hagain⟩
    cases hagain
  case resolving =>
    rw [hpc] at h
    obtain ⟨a, r', fs, hstep, hnot⟩ : ∃ a r' fs, resolveStep o.uploader.amazonCredentials
        o.uploader.useSsl r a = some (r', fs) ∧ ¬ a.Redirected :=
      Resolve.exists_resolveStep h.1 h.2
    exact ⟨.resolve a, _, _, by simp only [step, hpc, hstep]; rfl, hnot⟩
  case truncating =>
    rcases hrun : (FileListStorage.truncate noFaults).runOn s.conn with ⟨_ | _, conn⟩
    · exact ⟨.truncate noFaults, _, _, by simp only [step, hpc, hrun]; rfl, id⟩
    · exact ⟨.truncate noFaults, _, _, by simp only [step, hpc, hrun]; rfl, id⟩
  case storing =>
    rw [hpc] at h
    obtain ⟨⟨lo, hi⟩, rest, rfl⟩ := List.exists_cons_of_ne_nil h
    rcases hrun : (FileListStorage.storeRemoteListOfFilesChunk noFaults remote lo hi).runOn
      s.conn with ⟨_ | _, conn⟩
    · exact ⟨.store noFaults, _, _, by simp only [step, hpc, hrun]; rfl, id⟩
    · exact ⟨.store noFaults, _, _, by simp only [step, hpc, hrun]; rfl, id⟩
  case walking =>
    rcases hwalk : o.localFileList tree with _ | files
    · exact ⟨.walk, _, _, by simp only [step, hpc, hwalk]; rfl, id⟩
    · exact ⟨.walk, _, _, by simp only [step, hpc, hwalk]; rfl, id⟩
  case uploading =>
    rw [hpc] at h
    obtain ⟨⟨gs, hplaced⟩, hrun⟩ := h
    obtain ⟨a, t', fs, hstep, hnot⟩ := Uploader.exists_step hplaced hrun
    refine ⟨.upload a, _, _, by simp only [step, hpc, hstep]; rfl, ?_⟩
    rintro ⟨files', t'', hphase, hprolongs⟩
    rw [hpc] at hphase
    cases hphase
    exact hnot hprolongs
  case calculating =>
    rcases hrun : (FileListStorage.calculateListOfFilesToDelete noFaults files).runOn s.conn with
      ⟨_ | _, conn⟩
    · exact ⟨.calculate noFaults, _, _, by simp only [step, hpc, hrun]; rfl, id⟩
    · exact ⟨.calculate noFaults, _, _, by simp only [step, hpc, hrun]; rfl, id⟩
  case deleting =>
    rcases hxml : Deleter.batchXml batch with _ | xml
    · exact ⟨.post none, _, _, by simp only [step, hpc, hxml]; rfl, id⟩
    · exact ⟨.post none, _, _, by simp only [step, hpc, hxml]; rfl, id⟩
  case storingDeleted => exact ⟨.storeDeleted noFaults, _, _, by simp only [step, hpc]; rfl, id⟩
  case statingDatabase => exact ⟨.stat none, _, _, by simp only [step, hpc]; rfl, id⟩
  case uploadingDatabase =>
    let attempt : Uploader.Attempt := .performed ⟨none, none, none⟩ Uploader.quietResponse
    have hnot : ¬ Prolongs s (.database attempt) := by
      rintro ⟨fileInfo', r', -, hprolonged⟩
      exact Uploader.not_prolonged_quiet r' _ hprolonged
    rcases hsent : Uploader.exchange (o.databaseRequest r.url fileInfo) attempt with _ | sent
    · exact ⟨.database attempt, _, _,
        by simp [step, hpc, attempt, Uploader.Attempt.unopened, hsent]; exact ⟨rfl, rfl⟩, hnot⟩
    · exact ⟨.database attempt, _, _,
        by simp [step, hpc, attempt, Uploader.Attempt.unopened, hsent]; exact ⟨rfl, rfl⟩, hnot⟩
  case exited => exact absurd (by rw [hpc]; trivial) hended
  case crashed => exact absurd (by rw [hpc]; trivial) hended

/-- **Every run can be completed**: wherever it stands, whatever the threads and the world have done
so far, it can be continued to the end of the process. -/
theorem run_completes (h : Run (step o tree) anything (start o table) () es s ()) :
    ∃ fs t, Run (step o tree) anything (start o table) () (es ++ fs) t () ∧ t.phase.Ended := by
  obtain ⟨fs, t, hrun, hended⟩ : ∃ fs t, Run (step o tree) anything s () fs t () ∧
      t.phase.Ended := measured.completes (fun t ht => exists_step ht) (going_run h)
  exact ⟨fs, t, h.trans hrun, hended⟩

theorem run_completes_sample :
    ∃ es s fs t, Run (step (sampleOptions [] [] true []) (.dir true .nil)) anything
        (start (sampleOptions [] [] true []) ∅) () es s () ∧ es.length = 3 ∧
      Run (step (sampleOptions [] [] true []) (.dir true .nil)) anything
        (start (sampleOptions [] [] true []) ∅) () (es ++ fs) t () ∧ t.phase.Ended := by
  -- the first thread of the resolution has its answer, and the loop still waits
  obtain ⟨es, s, hrun, hes⟩ := run_of_exec (step (sampleOptions [] [] true []) (.dir true .nil))
    (start (sampleOptions [] [] true []) ∅) ((sampleRebuild (ascii "a")).take 7)
    (fun _ _ => True) (fun es _ => es.length = 3) (by decide)
  obtain ⟨fs, t, hrest, hended⟩ := run_completes hrun
  exact ⟨es, s, fs, t, hrun, hes, hrest, hended⟩

end Main

end Clarc
