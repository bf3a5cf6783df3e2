import Clarc.Core.Ending
import Clarc.Upload.JobEnds

/-!
# The upload comes to its end

Two things keep an upload going: a response of status 307, after which the count of the attempts
begins again, and the 307 of the attempt before, which an attempt that sends nothing finds in its
buffer.  Every other step of the loop or of a thread is one of a number that is fixed when the file
is reached.

* `Dispatcher.cost`, `Worker.cost` — how many steps the loop and a thread still have;
* `measured` — **every step lowers what is left, unless it prolongs the run**;
* `exists_step` — **as long as the loop runs, it or one of the threads can go on**, and without
  prolonging the run.
-/

namespace Clarc

open Bytes Reactive

namespace Uploader

/-! ## What prolongs a run -/

/-- The attempt sets the count of the attempts back: its response has the status 307, or it sends
nothing and finds the 307 of an attempt before it in the buffer. -/
def Retry.Prolonged (r : Retry) (attempt : Attempt) : Prop :=
  attempt.Status307 ∨ (attempt.Local ∧ r.httpStatusCode = 307)

/-- The step is such an attempt. -/
def Prolongs (s : State) : Action → Prop
  | .worker n (.upload attempt) =>
      ∃ c r, s.slots n = some (c, .uploading r) ∧ r.Prolonged attempt
  | _ => False

/-! ## What is left -/

/-- How many steps a thread still has at most. -/
def Worker.cost : Worker → ℕ
  | .checking => RETRY_FAIL_AFTER + 5
  | .uploading r => (RETRY_FAIL_AFTER - r.cUploads) + 4
  | .updatingMeta => 4
  | .storing _ => 3
  | .failing => 2
  | .finishing => 1

/-- The same for a file that the loop has not reached. -/
def fileCost : ℕ := RETRY_FAIL_AFTER + 9

/-- The same for the loop. -/
def Dispatcher.cost (count : ℕ) : Dispatcher → ℕ
  | .top i => fileCost * (count - i) + 2
  | .stating i => fileCost * (count - i) + 1
  | .looking i _ => fileCost * (count - i)
  | .sleeping c => fileCost * (count - (c.index + 1)) + (RETRY_FAIL_AFTER + 8)
  | .joining => 1
  | .returned _ | .exited | .crashed => 0

/-- The same for the whole run. -/
def cost (u : Uploader) (files : LocalFileList) (s : State) : ℕ :=
  s.pc.cost files.length + load (fun p => p.2.cost) u.uploadThreads s.slots

variable {u : Uploader} {files : LocalFileList} {pfx localPath : Bytes} {s s' : State} {a : Action}
  {es fs : List Event} {c : ThreadCommand} {w w' : Worker} {wa : WorkerAction} {r : Retry}
  {attempt : Attempt} {result : RetryResult} {conn conn' : Db} {flag : Bool} {n : ℕ}

lemma startUpload_cost_le (u : Uploader) : u.startUpload.cost ≤ RETRY_FAIL_AFTER + 4 := by
  unfold startUpload
  split_ifs <;> simp [Worker.cost]

lemma enter_cost_le (u : Uploader) (c : ThreadCommand) :
    (u.enter c).cost ≤ RETRY_FAIL_AFTER + 5 := by
  unfold enter
  split_ifs
  · exact le_rfl
  · exact (startUpload_cost_le u).trans (Nat.le_succ _)

/-- A turn of the upload loop that does not prolong it is counted, or ends it. -/
lemma afterUpload_cost_lt (hnext : r.next localPath attempt = some result)
    (hnot : ¬ r.Prolonged attempt) : (afterUpload result).cost < (Worker.uploading r).cost := by
  obtain ⟨h307, hstale⟩ := not_or.mp hnot
  rcases afterUpload_cases result with ⟨r', hr'⟩ | ⟨md5, hmd5⟩ | hfailing
  · rcases result with r' | ⟨status, m⟩ | _
    · have hagain : afterUpload (.again r') = .uploading r' := rfl
      obtain ⟨hcount, hlt, -⟩ := next_counted hnext h307 (not_and_or.mp hstale)
      simp only [hagain, Worker.cost, hcount]
      omega
    · rw [afterUpload] at hr'
      split at hr' <;> cases hr'
    · cases hr'
  · rw [hmd5]
    simp [Worker.cost]
  · rw [hfailing]
    simp [Worker.cost]

/-- A move of a thread that does not prolong the run brings it closer to its end. -/
lemma Move.cost_lt (h : u.Move conn c w wa es w' conn' flag)
    (hnot : ∀ r attempt, w = .uploading r → wa = .upload attempt → ¬ r.Prolonged attempt) :
    w'.cost < w.cost := by
  cases h with
  | differs md5 hne => exact (startUpload_cost_le u).trans_lt (Nat.lt_succ_self _)
  | put r system request response result hreq hnext =>
      exact afterUpload_cost_lt (Retry.next_of_nextWithin hnext) (hnot r _ rfl rfl)
  | notPut r attempt result hsend hopen hnext =>
      exact afterUpload_cost_lt (Retry.next_of_nextWithin hnext) (hnot r attempt rfl rfl)
  | _ => simp [Worker.cost]

/-- One more file before the loop is that many steps more. -/
lemma fileCost_split {i count : ℕ} (h : i < count) :
    fileCost * (count - i) = fileCost * (count - (i + 1)) + (RETRY_FAIL_AFTER + 9) := by
  have hcount : count - i = count - (i + 1) + 1 := by omega
  rw [hcount, Nat.mul_succ, fileCost]

lemma Placed.cost_pos (h : Placed u files pfx es s) (hrun : s.pc.running = true) :
    0 < s.pc.cost files.length := by
  rcases hpc : s.pc with i | i | ⟨i, fileInfo⟩ | c | _ | success | _ | _
  case looking =>
    have hsplit := fileCost_split (h.looking i fileInfo hpc).1
    simp only [Dispatcher.cost]
    omega
  all_goals simp_all [Dispatcher.cost, Dispatcher.running]

/-- **Every step lowers what is left, unless it prolongs the run.** -/
lemma cost_step (h : Placed u files pfx es s) (hs : u.step files pfx s a = some (s', fs))
    (hnot : ¬ Prolongs s a) : cost u files s' < cost u files s := by
  cases step_transition hs with
  | more i hpc hfailed hi => simp [cost, hpc, Dispatcher.cost]
  | done i hpc hend => simp [cost, hpc, Dispatcher.cost]
  | skipped i file answer hpc hfile hskip =>
      have hsplit := fileCost_split (h.stating i hpc)
      simp only [cost, State.goto_pc, State.goto_slots, hpc, Dispatcher.cost]
      omega
  | stated i file fileInfo hpc hfile hsize => simp [cost, hpc, Dispatcher.cost]
  | lookupFailed i fileInfo file fails hpc hfile hfails =>
      have hsplit := fileCost_split (h.looking i fileInfo hpc).1
      simp only [cost, hpc, Dispatcher.cost]
      omega
  | upToDate i fileInfo file fails hpc hfile hsame =>
      have hsplit := fileCost_split (h.looking i fileInfo hpc).1
      simp only [cost, State.goto_pc, State.goto_slots, hpc, Dispatcher.cost]
      omega
  | outdated i fileInfo file fails hpc hfile hrow =>
      have hsplit := fileCost_split (h.looking i fileInfo hpc).1
      simp only [cost, State.goto_pc, State.goto_slots, hpc, Dispatcher.cost, command]
      omega
  | dispatched n c hpc hn hfree =>
      have hload := load_update (fun p : ThreadCommand × Worker => p.2.cost) s.slots hn
        (some (c, u.enter c))
      have henter := enter_cost_le u c
      rw [hfree, Option.elim_none, Option.elim_some] at hload
      dsimp only at hload
      simp only [cost, State.goto_pc, State.goto_slots, State.setSlot, hpc, Dispatcher.cost]
      omega
  | notCreated n c hpc => simp [cost, hpc, Dispatcher.cost]
  | joined hpc hfree => simp [cost, hpc, Dispatcher.cost]
  | move n c w w' wa fs conn flag hrun hslot hmove =>
      have hn := (h.job n c w hslot).1
      have hload := load_update (fun p : ThreadCommand × Worker => p.2.cost) s.slots hn
        (some (c, w'))
      have hlt : w'.cost < w.cost := by
        refine hmove.cost_lt ?_
        rintro r attempt rfl rfl hprolonged
        exact hnot ⟨c, r, hslot, hprolonged⟩
      rw [hslot, Option.elim_some, Option.elim_some] at hload
      dsimp only at hload
      simp only [cost, State.setSlot]
      omega
  | freed n c hrun hslot =>
      have hn := (h.job n c _ hslot).1
      have hload := load_update (fun p : ThreadCommand × Worker => p.2.cost) s.slots hn none
      have hone : Worker.finishing.cost = 1 := rfl
      rw [hslot, Option.elim_some, Option.elim_none, hone] at hload
      simp only [cost, State.markFree]
      omega
  | lost n c w wa fs hrun hslot hlost =>
      have hpos := h.cost_pos hrun
      have hended : Dispatcher.crashed.cost files.length = 0 := rfl
      rw [cost, cost, State.goto_pc, State.goto_slots, hended]
      omega

/-- **An upload is measured by what is left of it.** -/
theorem measured : Measured (u.step files pfx) (fun s => ∃ es, Placed u files pfx es s) Prolongs
    (cost u files) where
  keeps := by
    rintro t a fs t' ⟨es, h⟩ hs
    exact ⟨es ++ fs, h.transition (step_transition hs)⟩
  lowers := by
    rintro t a fs t' ⟨es, h⟩ hs hnot
    exact cost_step h hs hnot

/-! ## No upload is stuck -/

/-- A response of status 200. -/
def quietResponse : Response where
  code := .ok
  responseCode := 200
  headers := []

lemma quietResponse_status {t : Transfer} (h : quietResponse.go = some t) :
    t.httpStatusCode = 200 := by
  unfold Response.go at h
  split at h
  · cases h
  · cases h
    dsimp only [quietResponse]
    exact ite_self 200

lemma not_prolonged_quiet (r : Retry) (system : System) :
    ¬ r.Prolonged (.performed system quietResponse) := by
  rintro (⟨t, ht, h307⟩ | ⟨hlocal, -⟩)
  · rw [quietResponse_status ht] at h307
    cases h307
  · exact hlocal

/-- A thread can always go on. -/
lemma exists_workerStep (hrun : s.pc.running = true) (hslot : s.slots n = some (c, w)) :
    ∃ a s' fs, u.step files pfx s a = some (s', fs) ∧ ¬ Prolongs s a := by
  have hworker : ∀ wa p, u.workerStep s n c w wa = some p →
      ¬ Prolongs s (.worker n wa) →
      ∃ a s' fs, u.step files pfx s a = some (s', fs) ∧ ¬ Prolongs s a := by
    intro wa p hstep hnot
    exact ⟨.worker n wa, p.1, p.2, by simp [step, hrun, hslot, hstep], hnot⟩
  rcases w with _ | _ | r | md5 | _ | _
  case checking => exact hworker (.read none) _ rfl id
  case updatingMeta =>
    let attempt : Attempt := .authFailed ⟨none, none, none⟩
    rcases hsent : exchange (u.updateMetaRequest c.path c.contentType c.fileInfo) attempt with
      _ | sent
    · exact hworker (.updateMeta attempt) (s.goto .crashed, [])
        (by simp [workerStep, attempt, Attempt.unopened, hsent]) id
    · exact hworker (.updateMeta attempt) (s.setSlot n c .failing, _)
        (by simp [workerStep, attempt, Attempt.unopened, updateMeta, hsent]; rfl) id
  case uploading =>
    let attempt : Attempt := .performed ⟨none, none, none⟩ quietResponse
    have hnot : ¬ Prolongs s (.worker n (.upload attempt)) := by
      rintro ⟨c', r', hslot', hprolonged⟩
      exact not_prolonged_quiet r' _ hprolonged
    rcases hsent : exchange (u.uploadFileRequest c.realLocalPath c.path r.url c.contentType
        c.fileInfo) attempt with _ | sent
    · exact hworker _ (s.goto .crashed, [])
        (by simp [workerStep, attempt, Attempt.unopened, hsent]) hnot
    · rcases hnext : r.nextWithin ERROR_RESULT_SIZE c.realLocalPath attempt with _ | result
      · exact hworker _ (s.goto .crashed, _)
          (by simp [workerStep, attempt, Attempt.unopened, hsent, hnext]; rfl) hnot
      · exact hworker _ (s.setSlot n c (afterUpload result), _)
          (by simp [workerStep, attempt, Attempt.unopened, hsent, hnext]; rfl) hnot
  case storing =>
    rcases hstore : (FileListStorage.store noFaults c.path md5
      c.fileInfo.mtime32.toUInt64).runOn s.conn with ⟨_ | _, conn⟩
    · exact hworker (.store noFaults) (({ s with conn := conn }.setSlot n c .failing), [])
        (by simp [workerStep, hstore]) id
    · exact hworker (.store noFaults) (({ s with conn := conn }.setSlot n c .finishing), _)
        (by simp [workerStep, hstore]; rfl) id
  case failing => exact hworker .fail _ rfl id
  case finishing => exact hworker .markFree _ rfl id

/-- **As long as the loop runs, it or one of the threads can go on.** -/
theorem exists_step (h : Placed u files pfx es s) (hrun : s.pc.running = true) :
    ∃ a s' fs, u.step files pfx s a = some (s', fs) ∧ ¬ Prolongs s a := by
  rcases hpc : s.pc with i | i | ⟨i, fileInfo⟩ | c | _ | success | _ | _
  case top =>
    by_cases hend : s.failed ∨ files.length ≤ i
    · exact ⟨.check, s.goto .joining, [], by simp [step, hpc, hend], id⟩
    · exact ⟨.check, s.goto (.stating i), [], by simp [step, hpc, hend], id⟩
  case stating =>
    have hfile := List.getElem?_eq_getElem (h.stating i hpc)
    exact ⟨.stat none, s.goto (.top (i + 1)), _, by simp [step, hpc, hfile]; rfl, id⟩
  case looking =>
    have hfile := List.getElem?_eq_getElem (h.looking i fileInfo hpc).1
    rcases hstep : u.step files pfx s (.lookup noFaults) with _ | ⟨s', fs⟩
    · simp only [step, hpc, hfile, lookup_noFaults] at hstep
      split_ifs at hstep
    · exact ⟨.lookup noFaults, s', fs, hstep, id⟩
  case sleeping =>
    by_cases hfree : s.slots 0 = none
    · exact ⟨.dispatch 0 true, (s.setSlot 0 c (u.enter c)).goto (.top (c.index + 1)), [],
        by simp [step, hpc, hfree, u.uploadThreads_pos], id⟩
    · obtain ⟨⟨d, w⟩, hslot⟩ := Option.ne_none_iff_exists'.mp hfree
      exact exists_workerStep hrun hslot
  case joining =>
    by_cases hfree : ∀ n < u.uploadThreads, (s.slots n).isNone
    · exact ⟨.join, s.goto (.returned (!s.failed)), [], by simp only [step, hpc, if_pos hfree], id⟩
    · push Not at hfree
      obtain ⟨n, -, hslot⟩ := hfree
      obtain ⟨⟨d, w⟩, hslot⟩ := Option.ne_none_iff_exists'.mp
        (fun hnone => hslot (Option.isNone_iff_eq_none.mpr hnone))
      exact exists_workerStep hrun hslot
  all_goals simp [hpc, Dispatcher.running] at hrun

end Uploader

end Clarc
