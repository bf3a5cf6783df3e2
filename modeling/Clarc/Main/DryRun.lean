import Clarc.Main.CommandLine
import Clarc.Main.Deletions

/-!
# A dry run changes nothing

The flag is tested in five places: before the credentials are checked, after the listing, by the
threads, by the deleter, and before the database is uploaded.  `Phase.Dry` has the places that a run
with the flag can reach — none of those from which a PUT or a POST is sent or the table is written —
and `Dry.step` that no step leaves them.

* `dryRun_run` — **a run with `--dryRun` sends neither PUT nor POST and leaves the table alone**,
  wherever it stands.
-/

namespace Clarc

open Bytes Reactive Sqlite RemoteListOfFiles

namespace Uploader

/-! ## The threads -/

/-- The request of an event. -/
def Event.request : Event → Option Request
  | .copy _ request _ | .put _ request _ => some request
  | .stat _ _ _ | .read _ _ | .row _ _ => none

/-- The threads read their files and end. -/
def Reading (s : State) : Prop :=
  ∀ n c w, s.slots n = some (c, w) → w = .checking ∨ w = .finishing

variable {u : Uploader} {files : LocalFileList} {pfx : Bytes} {s s' : State} {a : Action}
  {es : List Event}

lemma Reading.setSlot (h : Reading s) {n : ℕ} {c : ThreadCommand} {w : Worker}
    (hw : w = .checking ∨ w = .finishing) : Reading (s.setSlot n c w) := by
  intro m c' w' hslot
  simp only [State.setSlot, Function.update_apply] at hslot
  split_ifs at hslot
  · cases hslot
    exact hw
  · exact h m c' w' hslot

/-- In a dry run a thread reads its file and then lets go of its slot. -/
lemma Move.reading {conn conn' : Db} {c : ThreadCommand} {w w' : Worker} {wa : WorkerAction}
    {flag : Bool} (hdry : u.dryRun = true) (h : u.Move conn c w wa es w' conn' flag)
    (hw : w = .checking ∨ w = .finishing) :
    (w' = .checking ∨ w' = .finishing) ∧ conn' = conn ∧ ∀ e ∈ es, e.request = none := by
  cases h with
  | same hwet =>
      rw [hdry] at hwet
      cases hwet
  | sameDry _ => exact ⟨Or.inr rfl, rfl, by simp [Event.request]⟩
  | differs md5 _ => exact ⟨Or.inr (by simp [startUpload, hdry]), rfl, by simp [Event.request]⟩
  | _ => rcases hw with hw | hw <;> cases hw

/-- **A dry run reads.** -/
lemma Transition.reading (hdry : u.dryRun = true) (ht : u.Transition files pfx s a es s')
    (h : Reading s) : Reading s' ∧ s'.conn = s.conn ∧ ∀ e ∈ es, e.request = none := by
  cases ht with
  | more _ _ _ _ => exact ⟨h, rfl, by simp⟩
  | done _ _ _ => exact ⟨h, rfl, by simp⟩
  | skipped _ _ _ _ _ _ => exact ⟨h, rfl, by simp [Event.request]⟩
  | stated _ _ _ _ _ _ => exact ⟨h, rfl, by simp [Event.request]⟩
  | lookupFailed _ _ _ _ _ _ _ => exact ⟨h, rfl, by simp⟩
  | upToDate _ _ _ _ _ _ _ => exact ⟨h, rfl, by simp⟩
  | outdated _ _ _ _ _ _ _ => exact ⟨h, rfl, by simp⟩
  | dispatched n c _ _ _ =>
      refine ⟨h.setSlot ?_, rfl, by simp⟩
      rcases u.enter_cases c with ⟨henter, -⟩ | ⟨henter, -⟩ | ⟨-, hnot⟩
      · exact Or.inl henter
      · exact Or.inr henter
      · cases hdry.symm.trans hnot
  | notCreated _ _ _ => exact ⟨h, rfl, by simp⟩
  | joined _ _ => exact ⟨h, rfl, by simp⟩
  | move n c w w' wa es conn flag _ hslot hmove =>
      obtain ⟨hw', hconn, hes⟩ := hmove.reading hdry (h n c w hslot)
      have hset : Reading ({ s with conn := conn, failed := s.failed || flag } : State) := h
      exact ⟨hset.setSlot hw', hconn, hes⟩
  | freed n c _ _ =>
      refine ⟨?_, rfl, by simp⟩
      intro m c' w' hslot
      simp only [State.markFree, Function.update_apply] at hslot
      split_ifs at hslot
      exact h m c' w' hslot
  | lost n c w wa es _ hslot hlost =>
      refine ⟨h, rfl, ?_⟩
      cases hlost with
      | read => simp [Event.request]
      | _ => rcases h n c _ hslot with hw | hw <;> cases hw

end Uploader

namespace Main

/-! ## The whole program -/

/-- The request of an event. -/
def Event.request : Event → Option Request
  | .auth request _ | .create request _ | .list request _ | .post _ request _
  | .database request _ | .resolve (.head _ request _) => some request
  | .upload e => e.request

/-- The event is no PUT and no POST. -/
def Event.Harmless (e : Event) : Prop :=
  ∀ request, e.request = some request → request.method ≠ .put ∧ request.method ≠ .post

/-- Where a dry run can stand. -/
def Phase.Dry (conn : Db) : Phase → Prop
  | .opening | .listing _ | .resolving _ | .walking | .calculating _ | .exited _ | .crashed => True
  | .uploading _ t => t.conn = conn ∧ Uploader.Reading t
  | .checkingAuth | .creatingBucket _ | .truncating _ | .storing _ _ | .deleting _ _
  | .storingDeleted _ _ | .statingDatabase | .uploadingDatabase _ _ => False

/-- The table is as it was, and the process stands where nothing is written. -/
structure Dry (table : Files) (s : State) : Prop where
  committed : s.conn.committed = table
  phase : s.phase.Dry s.conn

variable {o : Options} {tree : Node} {table : Files} {s s' : State} {a : Action} {es : List Event}
  {conn : Db}

lemma afterRebuild_dry : (afterRebuild o).Dry conn := by
  unfold afterRebuild
  split_ifs <;> trivial

lemma afterDelete_dry (hdry : o.uploader.dryRun = true) : (afterDelete o).Dry conn := by
  rw [afterDelete, if_pos hdry]
  trivial

lemma nextBatch_dry (hdry : o.uploader.dryRun = true) :
    ∀ batches : List (List Bytes), (nextBatch o batches).Dry conn
  | [] => afterDelete_dry hdry
  | _ :: _ => by
      rw [nextBatch, if_pos hdry]
      split_ifs
      · exact afterDelete_dry hdry
      · trivial

lemma afterList_dry (l : ListStep) : (afterList l).Dry conn := by
  rcases l with l | ⟨_ | _, files⟩ | _ <;> trivial

lemma afterResolve_dry (hdry : o.uploader.dryRun = true) (r : Resolve) :
    (afterResolve o r).Dry conn := by
  unfold afterResolve
  split
  · rw [if_pos hdry]
    exact afterRebuild_dry
  all_goals trivial

lemma afterUpload_dry (hdry : o.uploader.dryRun = true) {files : LocalFileList} {t : Uploader.State}
    (h : Uploader.Reading t) : (afterUpload o files t).Dry t.conn := by
  unfold afterUpload
  split
  · split_ifs
    · trivial
    · exact afterDelete_dry hdry
  · trivial
  · trivial
  · trivial
  · exact ⟨rfl, h⟩

lemma afterOpen_dry (opened : Bool) : (afterOpen o opened).Dry conn := by
  unfold afterOpen
  split_ifs
  · trivial
  · exact afterRebuild_dry
  · trivial

/-- The threads of `resolveMtimes` send HEAD requests. -/
lemma resolveStep_harmless {c : AmazonCredentials} {useSsl : Bool} {r r' : Resolve}
    {ra : ResolveAction} {fs : List HeadEvent} (h : resolveStep c useSsl r ra = some (r', fs)) :
    ∀ e ∈ fs, (Event.resolve e).Harmless := by
  cases resolveStep_moved h with
  | headed n pos url cUploads f response _ _ _ =>
      intro e he
      obtain ⟨r, -, rfl⟩ := Option.map_eq_some_iff.mp (Option.mem_toList.mp he)
      rintro request ⟨⟩
      exact ⟨by simp [headRequest], by simp [headRequest]⟩
  | _ => simp

/-- **A step of a dry run writes nothing**, neither here nor there. -/
theorem Dry.step (hdry : o.uploader.dryRun = true) (h : Dry table s)
    (hs : Main.step o tree s a = some (s', es)) : Dry table s' ∧ ∀ e ∈ es, e.Harmless := by
  have hphase := h.phase
  cases step_transition hs with
  | auth _ hpc | create _ _ hpc | truncateFailed _ _ _ hpc | truncated _ _ _ hpc
  | storeFailed _ _ _ _ _ _ hpc | stored _ _ _ _ _ _ hpc | unposted _ _ _ hpc
  | posted _ _ _ _ hpc | storedDeleted _ _ _ hpc | stated _ hpc | databaseLost _ _ _ hpc
  | databaseSent _ _ _ _ hpc =>
      -- a dry run does not stand here
      rw [hpc] at hphase
      exact hphase.elim
  | opened opened hpc => exact ⟨⟨h.committed, afterOpen_dry opened⟩, by simp⟩
  | listed response l hpc =>
      refine ⟨⟨h.committed, afterList_dry _⟩, ?_⟩
      intro e he
      obtain ⟨r, -, rfl⟩ := mem_sent he
      rintro request ⟨⟩
      exact ⟨by simp [Listing.request, getRequest], by simp [Listing.request, getRequest]⟩
  | resolved r r' b fs hpc hstep =>
      refine ⟨⟨h.committed, afterResolve_dry hdry r'⟩, ?_⟩
      intro e he
      obtain ⟨e', he', rfl⟩ := List.mem_map.mp he
      exact resolveStep_harmless hstep e' he'
  | walkCrashed hpc hwalk => exact ⟨⟨h.committed, trivial⟩, by simp⟩
  | walked files hpc hwalk =>
      refine ⟨⟨h.committed, rfl, ?_⟩, by simp⟩
      intro n c w hslot
      cases hslot
  | uploaded files t t' b fs hpc hstep =>
      rw [hpc] at hphase
      obtain ⟨hconn, hreading⟩ := hphase
      obtain ⟨hreading', hconn', hfs⟩ := (Uploader.step_transition hstep).reading hdry hreading
      refine ⟨⟨?_, afterUpload_dry hdry hreading'⟩, ?_⟩
      · rw [hconn', hconn]
        exact h.committed
      · intro e he
        obtain ⟨e', he', rfl⟩ := List.mem_map.mp he
        intro request hrequest
        rw [Event.request, hfs e' he'] at hrequest
        cases hrequest
  | calculateFailed fails files conn hpc hrun =>
      have hspec := FileListStorage.calculateListOfFilesToDelete_spec fails files s.conn
      exact ⟨⟨(Script.wp_run hspec hrun).1.trans h.committed, trivial⟩, by simp⟩
  | calculated fails files filesToDelete conn hpc hrun =>
      have hspec := FileListStorage.calculateListOfFilesToDelete_spec fails files s.conn
      exact ⟨⟨(Script.wp_run hspec hrun).1.trans h.committed, nextBatch_dry hdry _⟩, by simp⟩

/-- **A dry run changes nothing.**  Whatever the other options are, and whatever the local tree, the
table and the responses: every request of the run is a GET or a HEAD, and the table on disk is what
it was, wherever the run stands. -/
theorem dryRun_run {host : Host} {line : CommandLine} (hoption : .dryRun ∈ line.options)
    (hline : parseCommandline host line = .ok o)
    (h : Run (step o tree) anything (start o table) () es s ()) :
    (∀ e ∈ es, ∀ request, e.request = some request →
      request.method ≠ .put ∧ request.method ≠ .post) ∧ s.conn.committed = table := by
  obtain ⟨settings, _, _, d, hset, -, -, -, path, rfl⟩ := parseCommandline_cases hline
  have hdry : settings.dryRun = true := dryRun_of_mem (Or.inr hoption) hset
  have hstart : Dry table (start (settings.options host path d) table) := by
    refine ⟨rfl, ?_⟩
    rw [start, show (settings.options host path d).uploader.dryRun = true from hdry]
    trivial
  have hall : Dry table s ∧ ∀ e ∈ es, e.Harmless := by
    refine h.invariant (I := fun es s _ => Dry table s ∧ ∀ e ∈ es, e.Harmless)
      ⟨hstart, by simp⟩ ?_
    rintro es t _ a fs t' _ ⟨ht, hes⟩ hs -
    obtain ⟨ht', hfs⟩ := ht.step hdry hs
    refine ⟨ht', fun e he => ?_⟩
    rcases List.mem_append.mp he with he | he
    · exact hes e he
    · exact hfs e he
  exact ⟨hall.2, hall.1.committed⟩

/-- `clarc --rebuild --delete --create us-west-2 --dryRun /home s3://b`. -/
def sampleLine : CommandLine where
  argc := 8
  options := [.rebuild, .delete, .create (ascii "us-west-2"), .dryRun]
  arguments := [ascii "/home", ascii "s3://b"]

/-- A bucket with one object, a table with another and a local file that is new: the run lists,
asks for the mtime, reads and ends. -/
def sampleDryRun : List Action :=
  [.openDatabase true, .list (some (samplePage (ascii "b"))), .resolve .check,
    .resolve (.dispatch 0 true), .resolve (.worker 0 .start),
    .resolve (.worker 0 (.head (some accepted))), .resolve (.worker 0 .markFree),
    .resolve .checkFailed, .resolve .check, .resolve .join, .walk, .upload .check,
    .upload (.stat (some ⟨0x81A4, 3, 1000, 0, 0⟩)), .upload (.lookup noFaults),
    .upload (.dispatch 0 true), .upload (.worker 0 .markFree), .upload .check, .upload .join,
    .calculate noFaults]

theorem dryRun_run_sample :
    ∃ o es s, parseCommandline sampleHost sampleLine = .ok o ∧
      Run (step o (.dir true (.cons (ascii "a") .reg (some 3) (.leaf .regular) .nil))) anything
        (start o ((∅ : Files).insert (ascii "c") ⟨[], 7⟩)) () es s () ∧ es.length = 3 ∧
      (∀ e ∈ es, ∀ request, e.request = some request →
        request.method ≠ .put ∧ request.method ≠ .post) ∧
      s.conn.committed = (∅ : Files).insert (ascii "c") ⟨[], 7⟩ := by
  have hexec : (match parseCommandline sampleHost sampleLine with
      | .ok o => (exec (step o (.dir true (.cons (ascii "a") .reg (some 3) (.leaf .regular) .nil)))
          (start o ((∅ : Files).insert (ascii "c") ⟨[], 7⟩)) sampleDryRun).any (fun r =>
            decide ((shown r.2).length = 3) && r.2.all fun _ => decide True)
      | .error _ => false) = true := by
    decide +kernel
  split at hexec
  next o ho =>
    obtain ⟨es, s, hrun, hlength⟩ := run_of_exec _ _ sampleDryRun (fun _ _ => True)
      (fun es _ => es.length = 3) hexec
    exact ⟨o, es, s, ho, hrun, hlength, dryRun_run (by decide) ho hrun⟩
  · cases hexec

end Main

end Clarc
