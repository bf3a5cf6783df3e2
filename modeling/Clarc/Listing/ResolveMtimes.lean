import Clarc.Core.Run
import Clarc.Listing.RemoteListOfFiles

/-!
# The mtimes of the listed files: `resolveMtimes`

The listing has no mtimes, so each file gets a thread that sends a HEAD for it and reads the header
the upload put there.  A `Resolve` is the state of the dispatching loop and its pool of 60 threads,
and `resolveStep` a step of one of them, as `Uploader.step` is for an upload: steps end at a
request, at a write to the shared `failed` and at a change of a slot.  The mtime of a file belongs
to its thread until all threads have ended.

* `resolved_run` — **after success every file has an mtime that one of its responses gave**:
  whatever holds of the mtimes in completed responses holds of the list.
-/

namespace Clarc

open Bytes Reactive

namespace RemoteListOfFiles

/-! ## One request -/

/-- `RemoteListOfFiles::extractMtimeFromMicroCurl`. -/
def extractMtimeFromMicroCurl (t : Transfer) : UInt32 :=
  match t.getHeader (ascii "x-amz-meta-mtime") with
  | none => 0
  | some header => UInt32.ofInt (atoll header)

/-- The request of `performHeadOnFile`. -/
def headRequest (c : AmazonCredentials) (useSsl : Bool) (url : Option Bytes)
    (remotePath : Bytes) : Request where
  method := .head
  url := url.getD (c.generateUrl (escape remotePath) useSsl)
  canonicalizedResource := c.resource (escape remotePath)

/-- What `performHeadOnFile` hands back. -/
inductive Headed
  | crashed
  | failed (res : CurlCode)
  | redirected (location : Bytes)
  | received (statusCode : ℕ) (mtime : UInt32)

/-- `RemoteListOfFiles::performHeadOnFile`, from the response; without one `prepare` has failed. -/
def performHeadOnFile : Option Response → Headed
  | none => .failed UPLOAD_FILE_FUNCTION_FAILED
  | some response =>
      match response.go with
      | none => .crashed
      | some t =>
          if t.res = .ok then
            if t.httpStatusCode = 307 then
              match t.getHeader (ascii "location") with
              | none => .crashed
              | some location => .redirected location
            else .received t.httpStatusCode (extractMtimeFromMicroCurl t)
          else .failed t.res

/-! ## Threads -/

/-- Where a thread stands in `runOverThread`; `cUploads` counts the tries of one URL. -/
inductive HeadWorker
  | starting
  | heading (url : Option Bytes) (cUploads : ℕ)
  | failing
  | finishing
  deriving DecidableEq, Repr

/-- Where the dispatching loop stands. -/
inductive ResolveDispatcher
  | top (i : ℕ)
  | sleeping (i : ℕ)
  | checking (i : ℕ)
  | joining
  | returned (success : Bool)
  | exited
  | crashed
  deriving DecidableEq, Repr

/-- The loop, or the wait after it, is still going on. -/
def ResolveDispatcher.running : ResolveDispatcher → Bool
  | .top _ | .sleeping _ | .checking _ | .joining => true
  | .returned _ | .exited | .crashed => false

/-- A run of `resolveMtimes`, with its `Threads(60)`; a slot has the position of its file. -/
structure Resolve where
  files : List RemoteFile
  threadsCount : ℕ := 60
  failed : Bool := false
  slots : ℕ → Option (ℕ × HeadWorker) := fun _ => none
  pc : ResolveDispatcher := .top 0

/-- A request, and what came back. -/
inductive HeadEvent
  | head (remotePath : Bytes) (request : Request) (response : Response)

/-- A step of a thread, with what it is told. -/
inductive HeadAction
  | start
  | head (response : Option Response)
  | fail
  | markFree

/-- A step of the run, with what it is told. -/
inductive ResolveAction
  | check
  | dispatch (threadNumber : ℕ) (created : Bool)
  | checkFailed
  | join
  | worker (threadNumber : ℕ) (a : HeadAction)

namespace Resolve

variable (s : Resolve)

/-- The beginning of `resolveMtimes`. -/
def start (files : List RemoteFile) : Resolve where
  files := files.map fun f => { f with mtime := 0 }

/-- The thread in a slot moves on. -/
def setSlot (n pos : ℕ) (w : HeadWorker) : Resolve :=
  { s with slots := Function.update s.slots n (some (pos, w)) }

/-- `Threads::markFree`. -/
def markFree (n : ℕ) : Resolve := { s with slots := Function.update s.slots n none }

/-- The dispatcher moves on. -/
def goto (pc : ResolveDispatcher) : Resolve := { s with pc := pc }

/-- `mtimes[pos] = mtime`. -/
def setMtime (pos : ℕ) (mtime : UInt32) : Resolve :=
  { s with files := s.files.modify pos fun f => { f with mtime := mtime } }

end Resolve

/-- What a thread makes of a HEAD: `runOverThread` around `performHeadOnFileWithRetry`. -/
def afterHead (s : Resolve) (n pos : ℕ) (url : Option Bytes) (cUploads : ℕ)
    (response : Option Response) : Resolve :=
  match performHeadOnFile response with
  | .crashed => s.goto .crashed
  | .redirected location => s.setSlot n pos (.heading (some location) 0)
  | .received statusCode mtime =>
      if statusCode = 200 then (s.setMtime pos mtime).setSlot n pos .finishing
      else s.setSlot n pos .failing
  | .failed res =>
      if httpShouldRetryOn res ∧ cUploads + 1 < RETRY_FAIL_AFTER then
        s.setSlot n pos (.heading url (cUploads + 1))
      else s.setSlot n pos .failing

variable (c : AmazonCredentials) (useSsl : Bool)

/-- A step of the thread for position `pos` in slot `n`. -/
def headStep (s : Resolve) (n pos : ℕ) : HeadWorker → HeadAction →
    Option (Resolve × List HeadEvent)
  | .starting, .start =>
      some (s.setSlot n pos (if s.failed then .finishing else .heading none 0), [])
  | .heading url cUploads, .head response =>
      match s.files[pos]? with
      | none => none
      | some f =>
          some (afterHead s n pos url cUploads response,
            (response.map fun r => HeadEvent.head f.path (headRequest c useSsl url f.path) r).toList)
  | .failing, .fail => some ({ s with failed := true }.setSlot n pos .finishing, [])
  | .finishing, .markFree => some (s.markFree n, [])
  | _, _ => none

/-- A step of `resolveMtimes`. -/
def resolveStep : Process Resolve ResolveAction HeadEvent := fun s a =>
  match a, s.pc with
  | .check, .top i =>
      if i < s.files.length then some (s.goto (.sleeping i), [])
      else some (s.goto .joining, [])
  | .dispatch n created, .sleeping i =>
      if n < s.threadsCount ∧ (s.slots n).isNone then
        if created then some ((s.setSlot n i .starting).goto (.checking i), [])
        else some (s.goto .exited, [])
      else none
  | .checkFailed, .checking i =>
      some (s.goto (if s.failed then .joining else .top (i + 1)), [])
  | .join, .joining =>
      if ∀ n < s.threadsCount, (s.slots n).isNone then
        some (s.goto (.returned (!s.failed)), [])
      else none
  | .worker n a, pc =>
      if pc.running then
        match s.slots n with
        | none => none
        | some (pos, w) => headStep c useSsl s n pos w a
      else none
  | _, _ => none

/-! ## What a step can do -/

section
variable {c useSsl} {s s' : Resolve} {es : List HeadEvent} {n pos : ℕ}

/-- The steps of `resolveMtimes`, with what each one requires. -/
inductive Moved (c : AmazonCredentials) (useSsl : Bool) (s : Resolve) :
    Resolve → List HeadEvent → Prop
  | check (i : ℕ) : s.pc = .top i → i < s.files.length →
      Moved c useSsl s (s.goto (.sleeping i)) []
  | listed (i : ℕ) : s.pc = .top i → s.files.length ≤ i → Moved c useSsl s (s.goto .joining) []
  | dispatched (i n : ℕ) : s.pc = .sleeping i → n < s.threadsCount → s.slots n = none →
      Moved c useSsl s ((s.setSlot n i .starting).goto (.checking i)) []
  | exited (i : ℕ) : s.pc = .sleeping i → Moved c useSsl s (s.goto .exited) []
  | stopped (i : ℕ) : s.pc = .checking i → s.failed = true → Moved c useSsl s (s.goto .joining) []
  | next (i : ℕ) : s.pc = .checking i → Moved c useSsl s (s.goto (.top (i + 1))) []
  | joined : s.pc = .joining → (∀ n < s.threadsCount, (s.slots n).isNone) →
      Moved c useSsl s (s.goto (.returned (!s.failed))) []
  | started (n pos : ℕ) : s.pc.running = true → s.slots n = some (pos, .starting) →
      Moved c useSsl s
        (s.setSlot n pos (if s.failed then .finishing else .heading none 0)) []
  | headed (n pos : ℕ) (url : Option Bytes) (cUploads : ℕ) (f : RemoteFile)
      (response : Option Response) : s.pc.running = true →
      s.slots n = some (pos, .heading url cUploads) → s.files[pos]? = some f →
      Moved c useSsl s (afterHead s n pos url cUploads response)
        (response.map fun r => HeadEvent.head f.path (headRequest c useSsl url f.path) r).toList
  | failed (n pos : ℕ) : s.pc.running = true → s.slots n = some (pos, .failing) →
      Moved c useSsl s ({ s with failed := true }.setSlot n pos .finishing) []
  | freed (n pos : ℕ) : s.pc.running = true → s.slots n = some (pos, .finishing) →
      Moved c useSsl s (s.markFree n) []

lemma headStep_moved (hrun : s.pc.running = true) {w : HeadWorker}
    (hslot : s.slots n = some (pos, w)) {a : HeadAction}
    (hs : headStep c useSsl s n pos w a = some (s', es)) : Moved c useSsl s s' es := by
  rcases w with _ | ⟨url, cUploads⟩ | _ | _ <;> rcases a with _ | response | _ | _
  case starting.start =>
    cases hs
    exact .started n pos hrun hslot
  case heading.head =>
    simp only [headStep] at hs
    split at hs
    · cases hs
    next f hf =>
      cases hs
      exact .headed n pos url cUploads f response hrun hslot hf
  case failing.fail =>
    cases hs
    exact .failed n pos hrun hslot
  case finishing.markFree =>
    cases hs
    exact .freed n pos hrun hslot
  all_goals cases hs

/-- **What a step can do.** -/
lemma resolveStep_moved {a : ResolveAction} (hs : resolveStep c useSsl s a = some (s', es)) :
    Moved c useSsl s s' es := by
  rcases a with _ | ⟨n, created⟩ | _ | _ | ⟨n, a⟩
  case check =>
    rcases hpc : s.pc with i | i | i | _ | success | _ | _ <;> simp only [resolveStep, hpc] at hs
    case top =>
      split_ifs at hs with hi
      · cases hs
        exact .check i hpc hi
      · cases hs
        exact .listed i hpc (not_lt.mp hi)
    all_goals cases hs
  case dispatch =>
    rcases hpc : s.pc with i | i | i | _ | success | _ | _ <;> simp only [resolveStep, hpc] at hs
    case sleeping =>
      split_ifs at hs with hfree hcreated
      · cases hs
        obtain ⟨hn, hnone⟩ := hfree
        exact .dispatched i n hpc hn (Option.isNone_iff_eq_none.mp hnone)
      · cases hs
        exact .exited i hpc
    all_goals cases hs
  case checkFailed =>
    rcases hpc : s.pc with i | i | i | _ | success | _ | _ <;> simp only [resolveStep, hpc] at hs
    case checking =>
      cases hs
      split_ifs with hfailed
      · exact .stopped i hpc hfailed
      · exact .next i hpc
    all_goals cases hs
  case join =>
    rcases hpc : s.pc with i | i | i | _ | success | _ | _ <;> simp only [resolveStep, hpc] at hs
    case joining =>
      split_ifs at hs with hfree
      · cases hs
        exact .joined hpc hfree
    all_goals cases hs
  case worker =>
    simp only [resolveStep] at hs
    split_ifs at hs with hrun
    split at hs
    · cases hs
    next pos w hslot => exact headStep_moved hrun hslot hs

/-- What a thread makes of a response: the process is over, the thread goes on or fails, or the
response completed with status 200 and the file gets its mtime. -/
lemma afterHead_cases (s : Resolve) (n pos : ℕ) (url : Option Bytes) (cUploads : ℕ)
    (response : Option Response) :
    afterHead s n pos url cUploads response = s.goto .crashed ∨
    (∃ w, w ≠ .finishing ∧ afterHead s n pos url cUploads response = s.setSlot n pos w) ∨
    ∃ r t, response = some r ∧ r.go = some t ∧ t.res = .ok ∧ t.httpStatusCode = 200 ∧
      afterHead s n pos url cUploads response =
        (s.setMtime pos (extractMtimeFromMicroCurl t)).setSlot n pos .finishing := by
  unfold afterHead
  split
  · exact Or.inl rfl
  · exact Or.inr (Or.inl ⟨_, by simp, rfl⟩)
  next statusCode mtime hreceived =>
    split_ifs with h200
    · unfold performHeadOnFile at hreceived
      split at hreceived
      · cases hreceived
      next r =>
        split at hreceived
        · cases hreceived
        next t hgo =>
          split_ifs at hreceived with hok h307
          · split at hreceived <;> cases hreceived
          · cases hreceived
            exact Or.inr (Or.inr ⟨r, t, rfl, hgo, hok, h200, rfl⟩)
    · exact Or.inr (Or.inl ⟨_, by simp, rfl⟩)
  · split_ifs
    · exact Or.inr (Or.inl ⟨_, by simp, rfl⟩)
    · exact Or.inr (Or.inl ⟨_, by simp, rfl⟩)

end

/-! ## After success -/

/-- How many files have been given a thread. -/
def ResolveDispatcher.position (count : ℕ) : ResolveDispatcher → ℕ
  | .top i | .sleeping i => i
  | .checking i => i + 1
  | .joining | .returned _ => count
  | .exited | .crashed => 0

/-- Whatever the responses to a path say of its mtime. -/
def HeadEvent.Tells (P : Bytes → UInt32 → Prop) : HeadEvent → Prop
  | .head remotePath _ response => ∀ t, response.go = some t → t.res = .ok →
      t.httpStatusCode = 200 → P remotePath (extractMtimeFromMicroCurl t)

/-- Where the files stand: each that has been given a thread has its mtime, or its thread still, or
the run has failed. -/
structure Resolving (P : Bytes → UInt32 → Prop) (files : List RemoteFile) (s : Resolve) :
    Prop where
  same : s.files.map (fun f => (f.path, f.md5)) = files.map fun f => (f.path, f.md5)
  account : ∀ i < s.pc.position s.files.length, s.failed = true ∨
    (∃ n w, s.slots n = some (i, w) ∧ w ≠ .finishing) ∨
      ∃ f, s.files[i]? = some f ∧ P f.path f.mtime
  used : ∀ n p, s.slots n = some p → n < s.threadsCount
  returned : ∀ success, s.pc = .returned success → success = !s.failed ∧ ∀ n, s.slots n = none

variable {c useSsl} {P : Bytes → UInt32 → Prop} {files : List RemoteFile} {s s' : Resolve}
  {es : List HeadEvent} {n pos : ℕ}

lemma resolving_start : Resolving P files (.start files) where
  same := by
    rw [Resolve.start, List.map_map]
    rfl
  account := by
    intro i hi
    cases hi
  used := by
    intro n p h
    cases h
  returned := by
    intro success h
    cases h

/-- The loop moves on. -/
lemma Resolving.goto (h : Resolving P files s) {pc : ResolveDispatcher}
    (hpos : ∀ i < pc.position s.files.length, s.failed = true ∨
      i < s.pc.position s.files.length)
    (hreturned : ∀ success, pc = .returned success → success = !s.failed ∧
      ∀ n, s.slots n = none) : Resolving P files (s.goto pc) where
  same := h.same
  account := by
    intro i hi
    rcases hpos i hi with hfailed | hi
    · exact Or.inl hfailed
    · exact h.account i hi
  used := h.used
  returned := hreturned

/-- A thread moves on: the mtimes of other files stay, and it does not let go of its file before
that has its mtime. -/
lemma Resolving.thread (h : Resolving P files s) (hrun : s.pc.running = true)
    {w w' : HeadWorker} (hslot : s.slots n = some (pos, w)) {failed : Bool}
    {files' : List RemoteFile} (hfailed : s.failed = true → failed = true)
    (hsame : files'.map (fun f => (f.path, f.md5)) = s.files.map fun f => (f.path, f.md5))
    (hothers : ∀ (i : ℕ) (f : RemoteFile), s.files[i]? = some f → P f.path f.mtime →
      ∃ f' : RemoteFile, files'[i]? = some f' ∧ P f'.path f'.mtime)
    (hself : w' = .finishing → w ≠ .finishing → failed = true ∨
      ∃ f : RemoteFile, files'[pos]? = some f ∧ P f.path f.mtime) :
    Resolving P files
      ({ s with files := files', failed := failed }.setSlot n pos w') where
  same := hsame.trans h.same
  account := by
    intro i hi
    have hlen : files'.length = s.files.length := by
      simpa using congrArg List.length hsame
    have hi' : i < s.pc.position s.files.length := hlen ▸ hi
    rcases h.account i hi' with hf | ⟨m, v, hm, hv⟩ | ⟨f, hf, hP⟩
    · exact Or.inl (hfailed hf)
    · by_cases hmn : m = n
      · subst hmn
        rw [hslot] at hm
        obtain ⟨rfl, rfl⟩ := Prod.mk.inj (Option.some.inj hm)
        by_cases hw' : w' = .finishing
        · rcases hself hw' hv with hf | hf
          · exact Or.inl hf
          · exact Or.inr (Or.inr hf)
        · exact Or.inr (Or.inl ⟨m, w', Function.update_self .., hw'⟩)
      · exact Or.inr (Or.inl ⟨m, v, (Function.update_of_ne hmn ..).trans hm, hv⟩)
    · exact Or.inr (Or.inr (hothers i f hf hP))
  used := by
    intro m p hm
    by_cases hmn : m = n
    · exact hmn ▸ h.used n _ hslot
    · exact h.used m p ((Function.update_of_ne hmn ..).symm.trans hm)
  returned := by
    intro success hpc
    have hpc' : s.pc = .returned success := hpc
    rw [hpc'] at hrun
    cases hrun

lemma Resolve.setMtime_same (s : Resolve) (mtime : UInt32) :
    (s.setMtime pos mtime).files.map (fun f => (f.path, f.md5)) =
      s.files.map fun f => (f.path, f.md5) := by
  refine List.ext_getElem? fun i => ?_
  rw [Resolve.setMtime, List.getElem?_map, List.getElem?_map, List.getElem?_modify]
  split
  · rcases s.files[i]? <;> rfl
  · rcases s.files[i]? <;> rfl

lemma Resolve.getElem?_setMtime {f : RemoteFile} (hf : s.files[pos]? = some f) (mtime : UInt32) :
    (s.setMtime pos mtime).files[pos]? = some { f with mtime := mtime } := by
  rw [Resolve.setMtime, List.getElem?_modify_eq, hf]
  rfl

lemma Resolve.getElem?_setMtime_ne {i : ℕ} (hi : i ≠ pos) (mtime : UInt32) :
    (s.setMtime pos mtime).files[i]? = s.files[i]? :=
  List.getElem?_modify_ne _ _ hi.symm

/-- A HEAD response is dealt with. -/
lemma Resolving.head (h : Resolving P files s) (hrun : s.pc.running = true) {url : Option Bytes}
    {cUploads : ℕ} (hslot : s.slots n = some (pos, .heading url cUploads)) {f : RemoteFile}
    (hf : s.files[pos]? = some f) {response : Option Response}
    (htells : ∀ r, response = some r → ∀ t, r.go = some t → t.res = .ok →
      t.httpStatusCode = 200 → P f.path (extractMtimeFromMicroCurl t)) :
    Resolving P files (afterHead s n pos url cUploads response) := by
  rcases afterHead_cases s n pos url cUploads response with hs | ⟨w, hw, hs⟩ |
    ⟨r, t, hr, hgo, hok, h200, hs⟩
  · rw [hs]
    refine h.goto ?_ (by simp)
    intro i hi
    cases hi
  · rw [hs]
    exact h.thread hrun hslot id rfl (fun i f hf hP => ⟨f, hf, hP⟩) fun h' => absurd h' hw
  · rw [hs]
    have hP := htells r hr t hgo hok h200
    have hnew := Resolve.getElem?_setMtime hf (extractMtimeFromMicroCurl t)
    refine h.thread hrun hslot id (s.setMtime_same _) ?_ fun _ _ => Or.inr ⟨_, hnew, hP⟩
    intro i f' hf' hP'
    by_cases hi : i = pos
    · subst hi
      exact ⟨_, hnew, hP⟩
    · exact ⟨f', (Resolve.getElem?_setMtime_ne hi _).trans hf', hP'⟩

/-- A file is given a thread. -/
lemma Resolving.dispatch (h : Resolving P files s) {i : ℕ} (hpc : s.pc = .sleeping i)
    (hn : n < s.threadsCount) (hslot : s.slots n = none) :
    Resolving P files ((s.setSlot n i .starting).goto (.checking i)) where
  same := h.same
  account := by
    intro j hj
    have hj' : j < i + 1 := hj
    rcases Nat.lt_succ_iff_lt_or_eq.mp hj' with hlt | rfl
    · rcases h.account j (by rw [hpc]; exact hlt) with hf | ⟨m, v, hm, hv⟩ | hf
      · exact Or.inl hf
      · have hmn : m ≠ n := by
          rintro rfl
          rw [hslot] at hm
          cases hm
        exact Or.inr (Or.inl ⟨m, v, (Function.update_of_ne hmn ..).trans hm, hv⟩)
      · exact Or.inr (Or.inr hf)
    · exact Or.inr (Or.inl ⟨n, .starting, Function.update_self .., by simp⟩)
  used := by
    intro m p hm
    by_cases hmn : m = n
    · exact hmn ▸ hn
    · exact h.used m p ((Function.update_of_ne hmn ..).symm.trans hm)
  returned := by
    intro success hpc'
    cases hpc'

/-- A slot becomes free. -/
lemma Resolving.markFree (h : Resolving P files s) (hrun : s.pc.running = true)
    (hslot : s.slots n = some (pos, .finishing)) : Resolving P files (s.markFree n) where
  same := h.same
  account := by
    intro i hi
    rcases h.account i hi with hf | ⟨m, v, hm, hv⟩ | hf
    · exact Or.inl hf
    · have hmn : m ≠ n := by
        rintro rfl
        rw [hslot] at hm
        obtain ⟨-, rfl⟩ := Prod.mk.inj (Option.some.inj hm)
        exact hv rfl
      exact Or.inr (Or.inl ⟨m, v, (Function.update_of_ne hmn ..).trans hm, hv⟩)
    · exact Or.inr (Or.inr hf)
  used := by
    intro m p hm
    by_cases hmn : m = n
    · exact hmn ▸ h.used n _ hslot
    · exact h.used m p ((Function.update_of_ne hmn ..).symm.trans hm)
  returned := by
    intro success hpc
    have hpc' : s.pc = .returned success := hpc
    rw [hpc'] at hrun
    cases hrun

/-- **A step keeps the account.** -/
theorem Resolving.step (h : Resolving P files s) {a : ResolveAction}
    (hs : resolveStep c useSsl s a = some (s', es)) (htells : ∀ e ∈ es, e.Tells P) :
    Resolving P files s' := by
  have hothers : ∀ (i : ℕ) (f : RemoteFile), s.files[i]? = some f → P f.path f.mtime →
      ∃ f' : RemoteFile, s.files[i]? = some f' ∧ P f'.path f'.mtime := fun i f hf hP => ⟨f, hf, hP⟩
  cases resolveStep_moved hs with
  | check i hpc hi => exact h.goto (fun j hj => Or.inr (by rw [hpc]; exact hj)) (by simp)
  | listed i hpc hi =>
      refine h.goto (fun j hj => Or.inr ?_) (by simp)
      have hj' : j < s.files.length := hj
      rw [hpc]
      show j < i
      omega
  | dispatched i n hpc hn hnone => exact h.dispatch hpc hn hnone
  | exited i hpc => exact h.goto (fun j hj => by cases hj) (by simp)
  | stopped i hpc hfailed => exact h.goto (fun j _ => Or.inl hfailed) (by simp)
  | next i hpc => exact h.goto (fun j hj => Or.inr (by rw [hpc]; exact hj)) (by simp)
  | joined hpc hfree =>
      refine h.goto (fun j hj => Or.inr (by rw [hpc]; exact hj)) ?_
      rintro success ⟨⟩
      refine ⟨rfl, fun m => ?_⟩
      rcases hm : s.slots m with _ | p
      · rfl
      · have hnone := hfree m (h.used m p hm)
        rw [hm] at hnone
        cases hnone
  | started n pos hrun hslot =>
      refine h.thread hrun hslot id rfl hothers fun hw _ => Or.inl ?_
      by_contra hfailed
      rw [if_neg hfailed] at hw
      cases hw
  | headed n pos url cUploads f response hrun hslot hf =>
      refine h.head hrun hslot hf fun r hr => ?_
      subst hr
      exact htells _ (List.mem_singleton_self _)
  | failed n pos hrun hslot =>
      exact h.thread hrun hslot (fun _ => rfl) rfl hothers fun _ _ => Or.inl rfl
  | freed n pos hrun hslot => exact h.markFree hrun hslot

/-- **The mtimes after success.**  The list has the paths and md5s it had, and every mtime is one
that a completed response to its path gave. -/
theorem resolved_run
    (h : Run (resolveStep c useSsl) (always fun _ es => ∀ e ∈ es, e.Tells P) (.start files) () es s
      ())
    (hpc : s.pc = .returned true) :
    s.files.map (fun f => (f.path, f.md5)) = files.map (fun f => (f.path, f.md5)) ∧
      ∀ f ∈ s.files, P f.path f.mtime := by
  have hresolving : Resolving P files s := by
    refine h.invariant (I := fun _ s _ => Resolving P files s) resolving_start ?_
    intro _ t x a fs u y hI hs htells
    exact hI.step hs htells
  refine ⟨hresolving.same, fun f hf => ?_⟩
  obtain ⟨hsuccess, hslots⟩ := hresolving.returned true hpc
  obtain ⟨i, hi⟩ := List.mem_iff_getElem?.mp hf
  have hlt : i < s.pc.position s.files.length := by
    rw [hpc]
    exact (List.getElem?_eq_some_iff.mp hi).1
  rcases hresolving.account i hlt with hfailed | ⟨n, w, hslot, -⟩ | ⟨f', hf', hP⟩
  · rw [hfailed] at hsuccess
    cases hsuccess
  · rw [hslots n] at hslot
    cases hslot
  · rw [hi] at hf'
    obtain rfl := Option.some.inj hf'
    exact hP

end RemoteListOfFiles

end Clarc
