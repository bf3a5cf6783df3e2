import Clarc.Core.Ending
import Clarc.Listing.ResolveMtimes

/-!
# The mtimes come to their end

A redirect sets the count of the tries of a HEAD back; nothing else keeps a thread going.

* `Seated` — each thread has a slot of the pool and a file of the list;
* `measured` — **every step lowers what is left, unless it is a redirect**;
* `exists_resolveStep` — **as long as the loop runs, it or one of the threads can go on**.
-/

namespace Clarc

open Bytes Reactive

namespace RemoteListOfFiles

/-- The step is the response to a HEAD that names another location. -/
def ResolveAction.Redirected : ResolveAction → Prop
  | .worker _ (.head response) => ∃ location, performHeadOnFile response = .redirected location
  | _ => False

/-! ## What is left -/

/-- How many steps a thread still has at most. -/
def HeadWorker.cost : HeadWorker → ℕ
  | .starting => RETRY_FAIL_AFTER + 4
  | .heading _ cUploads => (RETRY_FAIL_AFTER - cUploads) + 3
  | .failing => 2
  | .finishing => 1

/-- The same for the loop. -/
def ResolveDispatcher.cost (count : ℕ) : ResolveDispatcher → ℕ
  | .top i => (RETRY_FAIL_AFTER + 7) * (count - i) + 2
  | .sleeping i => (RETRY_FAIL_AFTER + 7) * (count - (i + 1)) + (RETRY_FAIL_AFTER + 8)
  | .checking i => (RETRY_FAIL_AFTER + 7) * (count - (i + 1)) + 3
  | .joining => 1
  | .returned _ | .exited | .crashed => 0

namespace Resolve

/-- The same for the whole run. -/
def cost (s : Resolve) : ℕ :=
  s.pc.cost s.files.length + load (fun p => p.2.cost) s.threadsCount s.slots

/-- Each thread has a slot of the pool and a file of the list. -/
structure Seated (s : Resolve) : Prop where
  pool : 0 < s.threadsCount
  sleeping : ∀ i, s.pc = .sleeping i → i < s.files.length
  slot : ∀ n pos w, s.slots n = some (pos, w) → n < s.threadsCount ∧ pos < s.files.length

variable {c : AmazonCredentials} {useSsl : Bool} {s s' : Resolve} {a : ResolveAction}
  {fs : List HeadEvent} {n pos : ℕ} {w w' : HeadWorker}

lemma seated_start (files : List RemoteFile) : (Resolve.start files).Seated where
  pool := by
    show 0 < 60
    decide
  sleeping := by
    intro i hi
    cases hi
  slot := by
    intro n pos w h
    cases h

/-- The loop moves on, not to a file that is not there. -/
lemma Seated.goto (h : s.Seated) {pc : ResolveDispatcher}
    (hpc : ∀ i, pc = .sleeping i → i < s.files.length) : (s.goto pc).Seated :=
  ⟨h.pool, hpc, h.slot⟩

/-- A thread moves on. -/
lemma Seated.setSlot (h : s.Seated) (hn : n < s.threadsCount) (hpos : pos < s.files.length)
    (w : HeadWorker) : (s.setSlot n pos w).Seated where
  pool := h.pool
  sleeping := h.sleeping
  slot := by
    intro m pos' w' hm
    by_cases hmn : m = n
    · subst hmn
      have hself : (s.setSlot m pos w).slots m = some (pos, w) := Function.update_self ..
      rw [hself] at hm
      cases hm
      exact ⟨hn, hpos⟩
    · exact h.slot m pos' w' ((Function.update_of_ne hmn ..).symm.trans hm)

/-- The mtime of a file is set. -/
lemma Seated.setMtime (h : s.Seated) (mtime : UInt32) : (s.setMtime pos mtime).Seated := by
  have hlength : (s.setMtime pos mtime).files.length = s.files.length := List.length_modify ..
  refine ⟨h.pool, ?_, ?_⟩
  · rw [hlength]
    exact h.sleeping
  · rw [hlength]
    exact h.slot

lemma Seated.step (h : s.Seated) (hs : resolveStep c useSsl s a = some (s', fs)) : s'.Seated := by
  cases resolveStep_moved hs with
  | check i hpc hi =>
      refine h.goto ?_
      rintro _ ⟨⟩
      exact hi
  | listed _ _ _ | exited _ _ | stopped _ _ _ | next _ _ | joined _ _ =>
      exact h.goto (by simp)
  | dispatched i n hpc hn _ =>
      exact (h.setSlot hn (h.sleeping i hpc) _).goto (by simp)
  | started n pos _ hslot =>
      obtain ⟨hn, hpos⟩ := h.slot n pos _ hslot
      exact h.setSlot hn hpos _
  | headed n pos url cUploads f response _ hslot _ =>
      obtain ⟨hn, hpos⟩ := h.slot n pos _ hslot
      rcases afterHead_cases s n pos url cUploads response with hs | ⟨w, -, hs⟩ |
        ⟨_, t, -, -, -, -, hs⟩
      · rw [hs]
        exact h.goto (by simp)
      · rw [hs]
        exact h.setSlot hn hpos w
      · rw [hs]
        exact (h.setMtime _).setSlot hn (by simpa [Resolve.setMtime] using hpos) _
  | failed n pos _ hslot =>
      obtain ⟨hn, hpos⟩ := h.slot n pos _ hslot
      have hflagged : ({ s with failed := true } : Resolve).Seated := ⟨h.pool, h.sleeping, h.slot⟩
      exact hflagged.setSlot hn hpos _
  | freed n pos _ hslot =>
      refine ⟨h.pool, h.sleeping, ?_⟩
      intro m pos' w' hm
      by_cases hmn : m = n
      · subst hmn
        have hself : (s.markFree m).slots m = none := Function.update_self ..
        rw [hself] at hm
        cases hm
      · exact h.slot m pos' w' ((Function.update_of_ne hmn ..).symm.trans hm)

/-! ## Every step but a redirect -/

/-- A thread that moves on comes closer to its end. -/
lemma cost_setSlot_lt (hn : n < s.threadsCount) (hslot : s.slots n = some (pos, w))
    (hcost : w'.cost < w.cost) {t : Resolve} (hslots : t.slots = s.slots) (hpc : t.pc = s.pc)
    (hcount : t.threadsCount = s.threadsCount) (hfiles : t.files.length = s.files.length) :
    (t.setSlot n pos w').cost < s.cost := by
  have hload := load_update (fun p : ℕ × HeadWorker => p.2.cost) s.slots hn (some (pos, w'))
  rw [hslot, Option.elim_some, Option.elim_some] at hload
  dsimp only at hload
  simp only [cost, Resolve.setSlot, hslots, hpc, hcount, hfiles]
  omega

lemma cost_crashed_lt (hrun : s.pc.running = true) :
    (s.goto .crashed).cost < s.cost := by
  have hpos : 0 < s.pc.cost s.files.length := by
    rcases hpc : s.pc with i | i | i | _ | success | _ | _ <;>
      simp_all [ResolveDispatcher.cost, ResolveDispatcher.running]
  have hended : ResolveDispatcher.crashed.cost s.files.length = 0 := rfl
  simp only [cost, Resolve.goto, hended]
  omega

/-- A response that names no other location brings the thread closer to its end. -/
lemma cost_afterHead_lt (h : s.Seated) (hrun : s.pc.running = true) {url : Option Bytes}
    {cUploads : ℕ} (hslot : s.slots n = some (pos, .heading url cUploads))
    {response : Option Response}
    (hnot : ¬ ∃ location, performHeadOnFile response = .redirected location) :
    (afterHead s n pos url cUploads response).cost < s.cost := by
  have hn := (h.slot n pos _ hslot).1
  unfold afterHead
  split
  next => exact cost_crashed_lt hrun
  next location hredirected => exact absurd ⟨location, hredirected⟩ hnot
  next =>
    split_ifs
    · exact cost_setSlot_lt hn hslot (by simp [HeadWorker.cost]) rfl rfl rfl
        (List.length_modify ..)
    · exact cost_setSlot_lt hn hslot (by simp [HeadWorker.cost]) rfl rfl rfl rfl
  next =>
    split_ifs with hretry
    · refine cost_setSlot_lt hn hslot ?_ rfl rfl rfl rfl
      simp only [HeadWorker.cost]
      omega
    · exact cost_setSlot_lt hn hslot (by simp [HeadWorker.cost]) rfl rfl rfl rfl

/-- One more file before the loop is that many steps more. -/
lemma cost_split {i count : ℕ} (h : i < count) :
    (RETRY_FAIL_AFTER + 7) * (count - i) =
      (RETRY_FAIL_AFTER + 7) * (count - (i + 1)) + (RETRY_FAIL_AFTER + 7) := by
  have hcount : count - i = count - (i + 1) + 1 := by omega
  rw [hcount, Nat.mul_succ]

/-- **Every step lowers what is left, unless it is a redirect.** -/
lemma cost_step (h : s.Seated) (hs : resolveStep c useSsl s a = some (s', fs))
    (hnot : ¬ a.Redirected) : s'.cost < s.cost := by
  rcases a with _ | ⟨n, created⟩ | _ | _ | ⟨n, a⟩
  case check =>
    rcases hpc : s.pc with i | i | i | _ | success | _ | _ <;> simp only [resolveStep, hpc] at hs
    case top =>
      split_ifs at hs with hi <;> cases hs
      · have hsplit := cost_split hi
        simp only [cost, Resolve.goto, hpc, ResolveDispatcher.cost]
        omega
      · simp [cost, Resolve.goto, hpc, ResolveDispatcher.cost]
    all_goals cases hs
  case dispatch =>
    rcases hpc : s.pc with i | i | i | _ | success | _ | _ <;> simp only [resolveStep, hpc] at hs
    case sleeping =>
      split_ifs at hs with hfree hcreated <;> cases hs
      · obtain ⟨hn, hnone⟩ := hfree
        have hload := load_update (fun p : ℕ × HeadWorker => p.2.cost) s.slots hn
          (some (i, .starting))
        rw [Option.isNone_iff_eq_none.mp hnone, Option.elim_none, Option.elim_some] at hload
        simp only [cost, Resolve.goto, Resolve.setSlot, hpc, ResolveDispatcher.cost]
        simp only [HeadWorker.cost] at hload ⊢
        omega
      · simp [cost, Resolve.goto, hpc, ResolveDispatcher.cost]
    all_goals cases hs
  case checkFailed =>
    rcases hpc : s.pc with i | i | i | _ | success | _ | _ <;> simp only [resolveStep, hpc] at hs
    case checking =>
      cases hs
      split_ifs <;> simp [cost, Resolve.goto, hpc, ResolveDispatcher.cost]
    all_goals cases hs
  case join =>
    rcases hpc : s.pc with i | i | i | _ | success | _ | _ <;> simp only [resolveStep, hpc] at hs
    case joining =>
      split_ifs at hs
      cases hs
      simp [cost, Resolve.goto, hpc, ResolveDispatcher.cost]
    all_goals cases hs
  case worker =>
    simp only [resolveStep] at hs
    split_ifs at hs with hrun
    split at hs
    · cases hs
    next pos w hslot =>
      have hn := (h.slot n pos w hslot).1
      rcases w with _ | ⟨url, cUploads⟩ | _ | _ <;> rcases a with _ | response | _ | _
      case starting.start =>
        cases hs
        refine cost_setSlot_lt hn hslot ?_ rfl rfl rfl rfl
        split_ifs <;> simp [HeadWorker.cost]
      case heading.head =>
        simp only [headStep] at hs
        split at hs <;> cases hs
        exact cost_afterHead_lt h hrun hslot hnot
      case failing.fail =>
        cases hs
        exact cost_setSlot_lt hn hslot (by simp [HeadWorker.cost]) rfl rfl rfl rfl
      case finishing.markFree =>
        cases hs
        have hload := load_update (fun p : ℕ × HeadWorker => p.2.cost) s.slots hn none
        have hone : HeadWorker.finishing.cost = 1 := rfl
        rw [hslot, Option.elim_some, Option.elim_none, hone] at hload
        simp only [cost, Resolve.markFree]
        omega
      all_goals cases hs

/-- **The resolution of mtimes is measured by what is left of it.** -/
theorem measured : Measured (resolveStep c useSsl) Resolve.Seated
    (fun _ a => a.Redirected) Resolve.cost :=
  ⟨fun h hs => h.step hs, fun h hs hnot => cost_step h hs hnot⟩

/-! ## No run is stuck -/

/-- A thread can always go on. -/
lemma exists_headStep (h : s.Seated) (hrun : s.pc.running = true)
    (hslot : s.slots n = some (pos, w)) :
    ∃ a s' fs, resolveStep c useSsl s a = some (s', fs) ∧ ¬ a.Redirected := by
  have hworker : ∀ a p, headStep c useSsl s n pos w a = some p →
      ¬ (ResolveAction.worker n a).Redirected →
      ∃ a s' fs, resolveStep c useSsl s a = some (s', fs) ∧ ¬ a.Redirected := by
    intro a p hstep hnot
    exact ⟨.worker n a, p.1, p.2, by simp [resolveStep, hrun, hslot, hstep], hnot⟩
  rcases w with _ | ⟨url, cUploads⟩ | _ | _
  · exact hworker .start _ rfl id
  · have hfile := List.getElem?_eq_getElem (h.slot n pos _ hslot).2
    refine hworker (.head none) (afterHead s n pos url cUploads none, _)
      (by simp only [headStep, hfile]; rfl) ?_
    rintro ⟨location, hlocation⟩
    cases hlocation
  · exact hworker .fail _ rfl id
  · exact hworker .markFree _ rfl id

/-- **As long as the loop runs, it or one of the threads can go on.** -/
theorem exists_resolveStep (h : s.Seated) (hrun : s.pc.running = true) :
    ∃ a s' fs, resolveStep c useSsl s a = some (s', fs) ∧ ¬ a.Redirected := by
  rcases hpc : s.pc with i | i | i | _ | success | _ | _
  case top =>
    by_cases hi : i < s.files.length
    · exact ⟨.check, s.goto (.sleeping i), [], by simp [resolveStep, hpc, hi], id⟩
    · exact ⟨.check, s.goto .joining, [], by simp [resolveStep, hpc, hi], id⟩
  case sleeping =>
    by_cases hfree : s.slots 0 = none
    · exact ⟨.dispatch 0 true, (s.setSlot 0 i .starting).goto (.checking i), [],
        by simp [resolveStep, hpc, hfree, h.pool], id⟩
    · obtain ⟨⟨pos, w⟩, hslot⟩ := Option.ne_none_iff_exists'.mp hfree
      exact exists_headStep h hrun hslot
  case checking =>
    exact ⟨.checkFailed, s.goto (if s.failed then .joining else .top (i + 1)), [],
      by simp only [resolveStep, hpc], id⟩
  case joining =>
    by_cases hfree : ∀ n < s.threadsCount, (s.slots n).isNone
    · exact ⟨.join, s.goto (.returned (!s.failed)), [],
        by simp only [resolveStep, hpc, if_pos hfree], id⟩
    · push Not at hfree
      obtain ⟨n, -, hslot⟩ := hfree
      obtain ⟨⟨pos, w⟩, hslot⟩ := Option.ne_none_iff_exists'.mp
        (fun hnone => hslot (Option.isNone_iff_eq_none.mpr hnone))
      exact exists_headStep h hrun hslot
  all_goals simp [hpc, ResolveDispatcher.running] at hrun

end Resolve

end RemoteListOfFiles

end Clarc
