import Clarc.Upload.Pool
import Clarc.Upload.RetryLoop
import Clarc.Upload.UnchangedTree

/-!
# How a job ends: `runOverThread`

A job asks the world for five things: the md5 of its file, the accounts of its owner, the target of
a link, the responses to its requests and the results of the statements of its `store`.  Four of the
answers may be absent — no md5 of a file that does not open, no account for an owner, no `Location`
in a redirect, no value behind a colon that is not there — and the code uses each of them as a
string.  One may be too long: a `Location` is copied into the 20 KiB that `runOverThread` has for an
error text.

* `makes_iff_called` — which calls of `uploadFile` the retry loop makes, read off the attempts;
* `loop_returns` — with finitely many responses of status 307 the loop returns, unless nothing is
  sent any more after one of them;
* `finishes_iff` — **from where a job ends with its row stored or with `failed` set**, one case for
  each place in `runOverThread`;
* `runOverThread_ends_iff` — **a job ends cleanly exactly when each answer that it uses is there**
  and fits, and the responses of status 307 come to an end.
-/

namespace Clarc

open Bytes Reactive Sqlite Threads

namespace Uploader

/-! ## Which calls the loop makes -/

/-- The transfer of the attempt has the status 307, whether or not it completed. -/
def Attempt.Status307 (a : Attempt) : Prop :=
  ∃ t, a.transfer = some t ∧ t.httpStatusCode = 307

/-- The transfer of the attempt failed in a way that is worth another one. -/
def Attempt.retryable (a : Attempt) : Bool :=
  match a.transfer with
  | some t => t.httpStatusCode != 307 && httpShouldRetryOn t.res
  | none => false

/-- Another call follows the attempt: it has the status 307; or it sends nothing, and the last
response before it has; or it is worth another one, and not too many in a row before it were. -/
inductive Attempt.GoesOn (a : Attempt) (after307 : Prop) (failures : ℕ) : Prop
  | redirected (hstatus : a.Status307) (hsurvives : ¬ a.Loses)
  | stale (hlocal : a.Local) (hafter : after307)
  | retried (hretry : a.retryable = true) (hmore : failures + 1 < RETRY_FAIL_AFTER)

section

variable (attempts : ℕ → Attempt)

/-- The last response before attempt `n` has the status 307. -/
def After307 (n : ℕ) : Prop :=
  ∃ m < n, (attempts m).Status307 ∧ ∀ j, m < j → j < n → (attempts j).Local

/-- How many attempts in a row before attempt `n` were worth another one. -/
def failuresBefore : ℕ → ℕ
  | 0 => 0
  | n + 1 => if (attempts n).retryable then failuresBefore n + 1 else 0

/-- Attempt `n` is made. -/
def Called (n : ℕ) : Prop :=
  ∀ m < n, (attempts m).GoesOn (After307 attempts m) (failuresBefore attempts m)

end

section

variable {localPath : Bytes} {attempts : ℕ → Attempt} {r r' : Retry} {a : Attempt} {n : ℕ}

lemma loopAfter_next (h : Makes localPath attempts n r) :
    loopAfter localPath attempts (n + 1) = r.next localPath (attempts n) := by
  rw [loopAfter_succ, h, turn_again]

/-- An attempt that sends nothing finds the 307 of before, and the loop goes on with it. -/
lemma Turn.stale_again {result : Option RetryResult} (h : Turn r a result) (ha : a.Local)
    (h307 : r.httpStatusCode = 307) :
    ∃ r', result = some (.again r') ∧ r'.httpStatusCode = 307 := by
  have hnone := ha.transfer_eq_none
  cases h with
  | lost h =>
      rcases h with ⟨hsent, -⟩ | ⟨t, ht, -⟩
      · exact absurd ha hsent
      · cases hnone.symm.trans ht
  | redirected url h =>
      obtain ⟨t, ht, -⟩ := h
      cases hnone.symm.trans ht
  | misled curlErrors h =>
      obtain ⟨t, ht, -⟩ := h
      cases hnone.symm.trans ht
  | stale errorResult h hstatus => exact ⟨_, rfl, rfl⟩
  | stopped h hstatus => exact absurd h307 hstatus
  | retried t ht | failed t ht => cases hnone.symm.trans ht
  | completed t md5 ht => cases hnone.symm.trans ht

/-- The turn of a transfer that has another status. -/
lemma next_transferred {t : Transfer} (localPath : Bytes) (r : Retry) (ht : a.transfer = some t)
    (h307 : t.httpStatusCode ≠ 307) :
    (∃ r', r.next localPath a = some (.again r')) ↔
      a.retryable = true ∧ r.cUploads + 1 < RETRY_FAIL_AFTER := by
  rcases a with strerror | system | ⟨system, response⟩
  · cases ht
  · cases ht
  · have hgo : response.go = some t := ht
    have hretryable : (Attempt.performed system response).retryable = httpShouldRetryOn t.res := by
      simp [Attempt.retryable, ht, h307]
    rw [hretryable, Retry.next, uploadFile, hgo]
    by_cases hres : t.res = .ok
    · by_cases h200 : t.httpStatusCode = 200
      · simp [hres, h200, httpShouldRetryOn]
      · simp [hres, h307, h200, httpShouldRetryOn]
    · by_cases hretry : httpShouldRetryOn t.res = true
      · by_cases hmore : r.cUploads + 1 < RETRY_FAIL_AFTER
        · simp [hres, h307, hretry, hmore]
        · simp [hres, h307, hretry, hmore]
      · simp [hres, h307, hretry]

/-- **The loop goes on** as the attempt says. -/
lemma next_again_iff (localPath : Bytes) (r : Retry) (a : Attempt) :
    (∃ r', r.next localPath a = some (.again r')) ↔
      a.GoesOn (r.httpStatusCode = 307) r.cUploads := by
  have hturn := next_turn localPath r a
  rcases ht : a.transfer with _ | t
  · constructor
    · rintro ⟨r', hr'⟩
      rcases hturn.of_unsent ht with ⟨-, hnone⟩ | ⟨-, ⟨-, hfailed⟩ | ⟨h307, -⟩⟩
      · cases hr'.symm.trans hnone
      · cases hr'.symm.trans hfailed
      · rcases hturn.of_unsent ht with ⟨-, hnone⟩ | ⟨hlocal, -⟩
        · cases hr'.symm.trans hnone
        · exact .stale hlocal h307
    · rintro (⟨⟨t, ht', -⟩, -⟩ | ⟨hlocal, h307⟩ | ⟨hretry, -⟩)
      · cases ht.symm.trans ht'
      · obtain ⟨r', hr', -⟩ := hturn.stale_again hlocal h307
        exact ⟨r', hr'⟩
      · simp [Attempt.retryable, ht] at hretry
  · have hsent : ¬ a.Local := fun hlocal => by cases hlocal.transfer_eq_none.symm.trans ht
    by_cases h307 : t.httpStatusCode = 307
    · have hretryable : a.retryable = false := by simp [Attempt.retryable, ht, h307]
      rcases hturn.of_307 ht h307 with ⟨hres, hloc, hnone⟩ | ⟨hloc, url, hagain⟩
      · refine iff_of_false (by simp [hnone]) ?_
        rintro (⟨-, hsurvives⟩ | ⟨hlocal, -⟩ | ⟨hretry, -⟩)
        · exact hsurvives (Or.inr ⟨t, ht, hres, h307, hloc⟩)
        · exact hsent hlocal
        · simp [hretryable] at hretry
      · refine iff_of_true ⟨_, hagain⟩ (.redirected ⟨t, ht, h307⟩ fun hloses => ?_)
        cases hagain.symm.trans (hturn.none_of_loses hloses)
    · rw [next_transferred localPath r ht h307]
      constructor
      · rintro ⟨hretry, hmore⟩
        exact .retried hretry hmore
      · rintro (⟨⟨t', ht', hstatus⟩, -⟩ | ⟨hlocal, -⟩ | ⟨hretry, hmore⟩)
        · obtain rfl := Option.some.inj (ht.symm.trans ht')
          exact absurd hstatus h307
        · exact absurd hlocal hsent
        · exact ⟨hretry, hmore⟩

/-- The variables of the loop after a turn: a 307 stays in the buffer until something else is
received, and the counter counts the failures in a row. -/
lemma next_again (h : r.next localPath a = some (.again r')) :
    (r'.httpStatusCode = 307 ↔ a.Status307 ∨ (a.Local ∧ r.httpStatusCode = 307)) ∧
      r'.cUploads = if a.retryable then r.cUploads + 1 else 0 := by
  have hgoes := (next_again_iff localPath r a).mp ⟨r', h⟩
  have hturn := next_turn localPath r a
  rw [h] at hturn
  cases hturn with
  | redirected url hred =>
      obtain ⟨t, ht, -, h307, -⟩ := hred
      exact ⟨iff_of_true rfl (Or.inl ⟨t, ht, h307⟩), by simp [Attempt.retryable, ht, h307]⟩
  | misled curlErrors hfails =>
      obtain ⟨t, ht, -, h307⟩ := hfails
      exact ⟨iff_of_true rfl (Or.inl ⟨t, ht, h307⟩), by simp [Attempt.retryable, ht, h307]⟩
  | stale errorResult hlocal hstatus =>
      exact ⟨iff_of_true rfl (Or.inr ⟨hlocal, hstatus⟩),
        by simp [Attempt.retryable, hlocal.transfer_eq_none]⟩
  | retried t ht hres hstatus hmore =>
      have hother : ¬ a.Status307 := by
        rintro ⟨t', ht', h307⟩
        obtain rfl := Option.some.inj (ht.symm.trans ht')
        exact hstatus h307
      have hsent : ¬ a.Local := fun hlocal => by cases hlocal.transfer_eq_none.symm.trans ht
      refine ⟨iff_of_false hstatus (by simp [hother, hsent]), ?_⟩
      rcases hgoes with ⟨h307, -⟩ | ⟨hlocal, -⟩ | ⟨hretry, -⟩
      · exact absurd h307 hother
      · exact absurd hlocal hsent
      · rw [if_pos hretry]

/-- The 307 in the buffer is that of the last response. -/
lemma after307_succ : After307 attempts (n + 1) ↔
    (attempts n).Status307 ∨ ((attempts n).Local ∧ After307 attempts n) := by
  constructor
  · rintro ⟨m, hm, hstatus, hlocal⟩
    rcases Nat.lt_succ_iff_lt_or_eq.mp hm with hlt | rfl
    · exact Or.inr ⟨hlocal n hlt (Nat.lt_succ_self n), m, hlt, hstatus,
        fun j hj hj' => hlocal j hj (hj'.trans (Nat.lt_succ_self n))⟩
    · exact Or.inl hstatus
  · rintro (hstatus | ⟨hlast, m, hm, hstatus, hlocal⟩)
    · exact ⟨n, Nat.lt_succ_self n, hstatus, fun j hj hj' => by omega⟩
    · refine ⟨m, hm.trans (Nat.lt_succ_self n), hstatus, fun j hj hj' => ?_⟩
      rcases Nat.lt_succ_iff_lt_or_eq.mp hj' with hlt | rfl
      · exact hlocal j hj hlt
      · exact hlast

/-- The variables of the loop at an attempt that it makes. -/
lemma Makes.variables (h : Makes localPath attempts n r) :
    (r.httpStatusCode = 307 ↔ After307 attempts n) ∧ r.cUploads = failuresBefore attempts n := by
  induction n generalizing r with
  | zero =>
      cases h
      exact ⟨iff_of_false (by decide) (by rintro ⟨m, hm, -⟩; exact absurd hm (Nat.not_lt_zero m)),
        rfl⟩
  | succ n ih =>
      obtain ⟨r₀, h₀, -⟩ := h.pred
      have hnext : r₀.next localPath (attempts n) = some (.again r) :=
        (loopAfter_next h₀).symm.trans h
      obtain ⟨hstatus, hcounter⟩ := next_again hnext
      rw [hstatus, hcounter, (ih h₀).1, (ih h₀).2, after307_succ, failuresBefore]
      exact ⟨Iff.rfl, rfl⟩

/-- **Which calls the loop makes.** -/
lemma makes_iff_called (localPath : Bytes) :
    (∃ r, Makes localPath attempts n r) ↔ Called attempts n := by
  induction n with
  | zero => exact iff_of_true ⟨{}, rfl⟩ fun m hm => absurd hm (Nat.not_lt_zero m)
  | succ n ih =>
      have hturn : ∀ {r}, Makes localPath attempts n r →
          ((∃ r', Makes localPath attempts (n + 1) r') ↔
            (attempts n).GoesOn (After307 attempts n) (failuresBefore attempts n)) := by
        intro r hr
        obtain ⟨hstatus, hcounter⟩ := hr.variables
        rw [← propext hstatus, ← hcounter, ← next_again_iff localPath r (attempts n)]
        simp only [Makes, loopAfter_next hr]
      constructor
      · rintro ⟨r', hr'⟩ m hm
        obtain ⟨r, hr, -⟩ := hr'.pred
        rcases Nat.lt_succ_iff_lt_or_eq.mp hm with hlt | rfl
        · exact ih.mp ⟨r, hr⟩ m hlt
        · exact (hturn hr).mp ⟨r', hr'⟩
      · intro h
        obtain ⟨r, hr⟩ := ih.mpr fun m hm => h m (hm.trans (Nat.lt_succ_self n))
        exact (hturn hr).mpr (h n (Nat.lt_succ_self n))

/-- After a 307 the attempts that send nothing are made one after another. -/
lemma called_stale (hn : Called attempts n) (h307 : (attempts n).Status307)
    (hsurvives : ¬ (attempts n).Loses) (hlocal : ∀ m > n, (attempts m).Local) (m : ℕ) :
    Called attempts m := by
  intro j _
  rcases Nat.lt_trichotomy j n with hlt | rfl | hgt
  · exact hn j hlt
  · exact .redirected h307 hsurvives
  · exact .stale (hlocal j hgt) ⟨n, hgt, h307, fun i hi _ => hlocal i hi⟩

/-! ## The end of the retry loop -/

/-- The process is lost only by an attempt that loses it. -/
lemma Turn.loses (h : Turn r a none) : a.Loses := by
  cases h with
  | lost h => exact h

/-- A turn without a 307, of its own or in the buffer, is counted. -/
lemma next_counted (h : r.next localPath a = some (.again r')) (ha : ¬ a.Status307)
    (hbuffer : ¬ a.Local ∨ r.httpStatusCode ≠ 307) :
    r'.cUploads = r.cUploads + 1 ∧ r.cUploads + 1 < RETRY_FAIL_AFTER ∧
      r'.httpStatusCode ≠ 307 := by
  obtain ⟨hstatus, hcounter⟩ := next_again h
  have hclear : ¬ (a.Local ∧ r.httpStatusCode = 307) := by
    rintro ⟨hlocal, h307⟩
    rcases hbuffer with hsent | hne
    · exact hsent hlocal
    · exact hne h307
  rcases (next_again_iff localPath r a).mp ⟨r', h⟩ with ⟨h307, -⟩ | ⟨hlocal, h307⟩ |
    ⟨hretry, hmore⟩
  · exact absurd h307 ha
  · exact absurd ⟨hlocal, h307⟩ hclear
  · rw [if_pos hretry] at hcounter
    exact ⟨hcounter, hmore, fun h307 => (hstatus.mp h307).elim ha hclear⟩

/-- **The loop returns** when no attempt loses the process, finitely many responses have the status
307 and something is sent after each of them. -/
lemma loop_returns (localPath : Bytes) (hsurvives : ∀ n, Called attempts n → ¬ (attempts n).Loses)
    (hfinite : ∃ N, ∀ n ≥ N, Called attempts n → ¬ (attempts n).Status307)
    (hsends : ∀ n, Called attempts n → (attempts n).Status307 → ∃ m > n, ¬ (attempts m).Local) :
    ∃ n, Returned (loopAfter localPath attempts n) := by
  by_contra hnever
  push Not at hnever
  -- otherwise every attempt is made
  have hmakes : ∀ n, ∃ r, Makes localPath attempts n r := by
    intro n
    induction n with
    | zero => exact ⟨{}, rfl⟩
    | succ n ih =>
        obtain ⟨r, hr⟩ := ih
        rcases h : loopAfter localPath attempts (n + 1) with _ | (r' | ⟨status, md5⟩ | _)
        · have hturn := hr.turn
          rw [h] at hturn
          exact absurd hturn.loses (hsurvives n ((makes_iff_called localPath).mp ⟨r, hr⟩))
        · exact ⟨r', h⟩
        · exact absurd (by rw [h]; trivial) (hnever (n + 1))
        · exact absurd (by rw [h]; trivial) (hnever (n + 1))
  have hcalled : ∀ n, Called attempts n := fun n => (makes_iff_called localPath).mp (hmakes n)
  have hnext : ∀ {n r r'}, Makes localPath attempts n r → Makes localPath attempts (n + 1) r' →
      r.next localPath (attempts n) = some (.again r') :=
    fun hr hr' => (loopAfter_next hr).symm.trans hr'
  obtain ⟨N, hN⟩ := hfinite
  -- after the last 307 an attempt that is sent clears the buffer
  obtain ⟨k, r₀, hk, h₀, hstatus₀⟩ : ∃ k r, N ≤ k ∧ Makes localPath attempts k r ∧
      r.httpStatusCode ≠ 307 := by
    obtain ⟨r, hr⟩ := hmakes N
    by_cases h307 : r.httpStatusCode = 307
    · obtain ⟨m, -, hm307, hbetween⟩ := hr.variables.1.mp h307
      obtain ⟨j, hj, hsent⟩ := hsends m (hcalled m) hm307
      have hNj : N ≤ j := by
        by_contra hlt
        exact hsent (hbetween j hj (not_le.mp hlt))
      obtain ⟨rj, hrj⟩ := hmakes j
      obtain ⟨r', hr'⟩ := hmakes (j + 1)
      have hcounted := next_counted (hnext hrj hr') (hN j hNj (hcalled j)) (Or.inl hsent)
      exact ⟨j + 1, r', by omega, hr', hcounted.2.2⟩
    · exact ⟨N, r, le_refl N, hr, h307⟩
  -- from there on the buffer stays clear, and every attempt is counted
  have hclear : ∀ {n r}, k ≤ n → Makes localPath attempts n r → r.httpStatusCode ≠ 307 := by
    intro n r hn hr
    induction n, hn using Nat.le_induction generalizing r with
    | base =>
        obtain rfl : r = r₀ := by
          rw [Makes, h₀] at hr
          cases hr
          rfl
        exact hstatus₀
    | succ n hn ih =>
        obtain ⟨r', hr'⟩ := hmakes n
        exact (next_counted (hnext hr' hr) (hN n (hk.trans hn) (hcalled n))
          (Or.inr (ih hr'))).2.2
  have hcounted : ∀ {n r r'}, k ≤ n → Makes localPath attempts n r →
      Makes localPath attempts (n + 1) r' →
      r'.cUploads = r.cUploads + 1 ∧ r.cUploads + 1 < RETRY_FAIL_AFTER := by
    intro n r r' hn hr hr'
    have hnew := next_counted (hnext hr hr') (hN n (hk.trans hn) (hcalled n))
      (Or.inr (hclear hn hr))
    exact ⟨hnew.1, hnew.2.1⟩
  exact counted_out (fun n _ => hmakes n) hcounted

end

/-! ## A job and the world around it -/

/-- The accounts of a file's owner are there. -/
def HasAccounts (system : System) : Prop := system.user ≠ none ∧ system.group ≠ none

/-- They are, and so is the target of a link. -/
def Supplied (system : System) (fileInfo : Stat) : Prop :=
  HasAccounts system ∧ (fileInfo.isSoftLink = true → system.target ≠ none)

/-- What the system says when `uploadFile` builds its request, which it does for a file that
opens. -/
def Attempt.system : Attempt → Option System
  | .cannotOpen _ => none
  | .authFailed system | .performed system _ => some system

/-- What the world answers a job: the md5 of its file, unless that does not open; the accounts of
the owner and the response at the request of `updateMeta`, unless signing fails; the calls of
`uploadFile` one after another, which open no file for a link; the statements of `store` that
fail. -/
structure JobWorld (c : ThreadCommand) where
  md5 : Option Bytes
  copySystem : System
  copyResponse : Option Response
  attempts : ℕ → Attempt
  opens : c.fileInfo.isSoftLink = true → ∀ n, (attempts n).unopened = false
  fails : Faults

namespace JobWorld

variable {c : ThreadCommand} (world : JobWorld c)

/-- The call of `updateMeta`. -/
def copy : Attempt :=
  match world.copyResponse with
  | none => .authFailed world.copySystem
  | some response => .performed world.copySystem response

/-- The answer to a job, after so many calls of `uploadFile`. -/
def answer (calls : ℕ) : Worker → WorkerAction
  | .checking => .read world.md5
  | .updatingMeta => .updateMeta world.copy
  | .uploading _ => .upload (world.attempts calls)
  | .storing _ => .store world.fails
  | .failing => .fail
  | .finishing => .markFree

end JobWorld

/-- Where a job stands, with the connection and `failed`, after so many calls of `uploadFile`; at
its end, before `markFree`; or the process is lost. -/
inductive JobState
  | working (g : Shared) (w : Worker) (calls : ℕ)
  | ended (g : Shared)
  | lost

/-- `runOverThread`, turn by turn, in a world. -/
def jobStep (u : Uploader) (c : ThreadCommand) (world : JobWorld c) :
    Process JobState Unit Event :=
  fun s _ =>
    match s with
    | .working g w calls =>
        match u.jobTurn g c w (world.answer calls w) with
        | none => none
        | some (.goOn g' w', es) =>
            let calls' := match w with
              | .uploading _ => calls + 1
              | _ => calls
            some (.working g' w' calls', es)
        | some (.done, es) => some (.ended g, es)
        | some (.lose _, es) => some (.lost, es)
    | .ended _ | .lost => none

/-- The row of the file is written, and nothing else on the connection. -/
def RowStored (c : ThreadCommand) (conn conn' : Db) : Prop :=
  ∃ md5, conn' = conn.update (AList.insert c.path ⟨md5, c.fileInfo.mtime32.toUInt64⟩)

/-- The job ends with its row stored or with `failed` set, and the process is not lost. -/
structure EndsCleanly (u : Uploader) (c : ThreadCommand) (world : JobWorld c) (conn : Db)
    (failed : Bool) : Prop where
  ends : ∃ es conn' failed', Run (u.jobStep c world) anything
    (.working (conn, failed) (u.enter c) 0) () es (.ended (conn', failed')) () ∧
      (RowStored c conn conn' ∨ failed' = true)
  survives : ∀ es, ¬ Run (u.jobStep c world) anything
    (.working (conn, failed) (u.enter c) 0) () es .lost ()

/-! ## Turn by turn -/

section

variable {u : Uploader} {c : ThreadCommand} {world : JobWorld c} {g : Shared} {calls : ℕ}

lemma uploadFileRequest_isSome {localPath remotePath contentType : Bytes} {url : Option Bytes}
    {fileInfo : Stat} {system : System} :
    (u.uploadFileRequest localPath remotePath url contentType fileInfo system).isSome = true ↔
      Supplied system fileInfo := by
  rcases system with ⟨_ | user, _ | group, target⟩
  · simp [uploadFileRequest, addUidAndGidHeaders, Supplied, HasAccounts]
  · simp [uploadFileRequest, addUidAndGidHeaders, Supplied, HasAccounts]
  · simp [uploadFileRequest, addUidAndGidHeaders, Supplied, HasAccounts]
  · by_cases hlink : fileInfo.isSoftLink = true
    · rcases target with _ | target
      · simp [uploadFileRequest, addUidAndGidHeaders, softLinkData, hlink, Supplied]
      · simp [uploadFileRequest, addUidAndGidHeaders, softLinkData, hlink, Supplied,
          HasAccounts]
    · simp [uploadFileRequest, addUidAndGidHeaders, softLinkData, hlink, Supplied,
        HasAccounts]

lemma updateMetaRequest_isSome {remotePath contentType : Bytes} {fileInfo : Stat}
    {system : System} :
    (u.updateMetaRequest remotePath contentType fileInfo system).isSome = true ↔
      HasAccounts system := by
  rcases system with ⟨_ | user, _ | group, target⟩ <;>
    simp [updateMetaRequest, addUidAndGidHeaders, HasAccounts]

lemma jobStep_unreadable (u : Uploader) (g : Shared) (calls : ℕ) (h : world.md5 = none) :
    ∃ es, u.jobStep c world (.working g .checking calls) () = some (.lost, es) := by
  refine ⟨[.read c none], ?_⟩
  simp [jobStep, JobWorld.answer, h, jobTurn, workerStep, State.goto, Dispatcher.running]

lemma jobStep_same (g : Shared) (calls : ℕ) (hdry : u.dryRun = false)
    (h : world.md5 = some c.storedMd5) :
    ∃ es, u.jobStep c world (.working g .checking calls) () =
      some (.working g .updatingMeta calls, es) := by
  refine ⟨[.read c (some c.storedMd5)], ?_⟩
  simp [jobStep, JobWorld.answer, h, jobTurn, workerStep, hdry, alone, State.setSlot,
    Dispatcher.running]

lemma jobStep_differs (g : Shared) (calls : ℕ) {md5 : Bytes} (hdry : u.dryRun = false)
    (h : world.md5 = some md5) (hne : md5 ≠ c.storedMd5) :
    ∃ es, u.jobStep c world (.working g .checking calls) () =
      some (.working g (.uploading {}) calls, es) := by
  refine ⟨[.read c (some md5)], ?_⟩
  simp [jobStep, JobWorld.answer, h, jobTurn, workerStep, hne, startUpload, hdry, alone,
    State.setSlot, Dispatcher.running]

lemma jobStep_failing : u.jobStep c world (.working g .failing calls) () =
    some (.working (g.1, true) .finishing calls, []) := by
  simp [jobStep, JobWorld.answer, jobTurn, workerStep, alone, State.setSlot, Dispatcher.running]

lemma jobStep_finishing : u.jobStep c world (.working g .finishing calls) () =
    some (.ended g, []) := by
  simp [jobStep, JobWorld.answer, jobTurn, workerStep, alone, State.markFree, Dispatcher.running]

/-- The row is written, or the statement fails. -/
lemma jobStep_storing (u : Uploader) (world : JobWorld c) (g : Shared) (calls : ℕ) (md5 : Bytes) :
    ∃ g' w, ((w = .finishing ∧ g' = (g.1.update
        (AList.insert c.path ⟨md5.take 32, c.fileInfo.mtime32.toUInt64⟩), g.2)) ∨
      w = .failing) ∧
      ∃ es, u.jobStep c world (.working g (.storing md5) calls) () =
        some (.working g' w calls, es) := by
  rcases FileListStorage.store_cases world.fails c.path md5 c.fileInfo.mtime32.toUInt64 g.1 with
    hstore | hstore
  · refine ⟨g, .failing, Or.inr rfl, [], ?_⟩
    simp [jobStep, JobWorld.answer, jobTurn, workerStep, alone, hstore, State.setSlot,
      Dispatcher.running]
  · refine ⟨_, .finishing, Or.inl ⟨rfl, rfl⟩,
      [.row c ⟨md5.take 32, c.fileInfo.mtime32.toUInt64⟩], ?_⟩
    simp [jobStep, JobWorld.answer, jobTurn, workerStep, alone, hstore, State.setSlot,
      Dispatcher.running]

/-- The copy of the metadata goes through or fails where the accounts are there and the headers of
the response can be read, and loses the process otherwise. -/
lemma jobStep_updatingMeta (u : Uploader) (world : JobWorld c) (g : Shared) (calls : ℕ) :
    (HasAccounts world.copySystem ∧ (∀ response, world.copyResponse = some response →
        response.go ≠ none) ∧
      ∃ w es, (w = .storing c.storedMd5 ∨ w = .failing) ∧
        u.jobStep c world (.working g .updatingMeta calls) () = some (.working g w calls, es)) ∨
    (¬ (HasAccounts world.copySystem ∧ ∀ response, world.copyResponse = some response →
        response.go ≠ none) ∧
      ∃ es, u.jobStep c world (.working g .updatingMeta calls) () = some (.lost, es)) := by
  have hunopened : world.copy.unopened = false := by
    unfold JobWorld.copy
    split <;> rfl
  rcases hbuild : u.updateMetaRequest c.path c.contentType c.fileInfo world.copySystem
    with _ | request
  · -- an account is missing
    have haccounts : ¬ HasAccounts world.copySystem := by
      rw [← updateMetaRequest_isSome (u := u), hbuild]
      exact Bool.false_ne_true
    have hexchange : exchange (u.updateMetaRequest c.path c.contentType c.fileInfo) world.copy =
        none := by
      unfold JobWorld.copy
      split <;> simp [exchange, hbuild]
    refine Or.inr ⟨fun h => haccounts h.1, [], ?_⟩
    simp [jobStep, JobWorld.answer, jobTurn, workerStep, hunopened, hexchange, State.goto,
      Dispatcher.running]
  · have haccounts : HasAccounts world.copySystem := by
      rw [← updateMetaRequest_isSome (u := u), hbuild]
      rfl
    rcases hresponse : world.copyResponse with _ | response
    · -- signing fails
      refine Or.inl ⟨haccounts, by simp, .failing, [], Or.inr rfl, ?_⟩
      simp [jobStep, JobWorld.answer, JobWorld.copy, hresponse, jobTurn, workerStep,
        Attempt.unopened,
        exchange, hbuild, updateMeta, alone, State.setSlot, Dispatcher.running]
    · rcases hgo : response.go with _ | t
      · refine Or.inr ⟨fun h => h.2 response rfl hgo, [.copy c request response], ?_⟩
        simp [jobStep, JobWorld.answer, JobWorld.copy, hresponse, jobTurn, workerStep,
          Attempt.unopened, exchange, hbuild, updateMeta, hgo, State.goto, Dispatcher.running]
      · refine Or.inl ⟨haccounts, by simp [hgo],
          if t.res = .ok then .storing c.storedMd5 else .failing, [.copy c request response],
          ?_, ?_⟩
        · split_ifs
          · exact Or.inl rfl
          · exact Or.inr rfl
        · simp [jobStep, JobWorld.answer, JobWorld.copy, hresponse, jobTurn, workerStep,
            Attempt.unopened, exchange, hbuild, updateMeta, hgo, alone, State.setSlot,
            Dispatcher.running]

/-- What `exchange` needs. -/
lemma exchange_isSome {localPath remotePath contentType : Bytes} {url : Option Bytes}
    {fileInfo : Stat} (attempt : Attempt) :
    (exchange (u.uploadFileRequest localPath remotePath url contentType fileInfo)
      attempt).isSome = true ↔
      ∀ system, attempt.system = some system → Supplied system fileInfo := by
  rcases attempt with strerror | system | ⟨system, response⟩
  · simp [exchange, Attempt.system]
  · simp [exchange, Attempt.system, uploadFileRequest_isSome]
  · simp [exchange, Attempt.system, uploadFileRequest_isSome]

/-- An upload leads to where the loop goes on, or loses the process. -/
lemma jobStep_uploading (u : Uploader) (world : JobWorld c) (g : Shared) (calls : ℕ) (r : Retry) :
    ((∀ system, (world.attempts calls).system = some system → Supplied system c.fileInfo) ∧
      ∃ result, r.nextWithin ERROR_RESULT_SIZE c.realLocalPath (world.attempts calls) =
          some result ∧
      ∃ es, u.jobStep c world (.working g (.uploading r) calls) () =
        some (.working g (afterUpload result) (calls + 1), es)) ∨
    (¬ ((∀ system, (world.attempts calls).system = some system → Supplied system c.fileInfo) ∧
        r.nextWithin ERROR_RESULT_SIZE c.realLocalPath (world.attempts calls) ≠ none) ∧
      ∃ es, u.jobStep c world (.working g (.uploading r) calls) () = some (.lost, es)) := by
  have hopens : ((world.attempts calls).unopened && c.fileInfo.isSoftLink) = false := by
    rcases hlink : c.fileInfo.isSoftLink
    · exact Bool.and_false _
    · rw [world.opens hlink calls, Bool.false_and]
  have hbuilt : (exchange (u.uploadFileRequest c.realLocalPath c.path r.url c.contentType
      c.fileInfo) (world.attempts calls)).isSome = true ↔
      ∀ system, (world.attempts calls).system = some system → Supplied system c.fileInfo :=
    exchange_isSome _
  rcases hexchange : exchange (u.uploadFileRequest c.realLocalPath c.path r.url c.contentType
      c.fileInfo) (world.attempts calls) with _ | sent
  · rw [hexchange] at hbuilt
    refine Or.inr ⟨fun h => Bool.false_ne_true (hbuilt.mpr h.1), [], ?_⟩
    simp [jobStep, JobWorld.answer, jobTurn, workerStep, hopens, hexchange, State.goto,
      Dispatcher.running]
  · rw [hexchange] at hbuilt
    have hsupplied := hbuilt.mp rfl
    rcases hnext : r.nextWithin ERROR_RESULT_SIZE c.realLocalPath (world.attempts calls) with
      _ | result
    · refine Or.inr ⟨fun h => h.2 rfl, sent.map fun p => .put c p.1 p.2, ?_⟩
      simp [jobStep, JobWorld.answer, jobTurn, workerStep, hopens, hexchange, hnext, State.goto,
        Dispatcher.running]
    · refine Or.inl ⟨hsupplied, result, rfl, sent.map fun p => .put c p.1 p.2, ?_⟩
      simp [jobStep, JobWorld.answer, jobTurn, workerStep, hopens, hexchange, hnext, alone,
        State.setSlot, Dispatcher.running]

end

/-! ## From where a job ends -/

section

variable (u : Uploader) (c : ThreadCommand) (world : JobWorld c) (conn : Db)

/-- From here the job ends, with its row stored or with `failed` set. -/
def Finishes (s : JobState) : Prop :=
  ∃ es conn' failed', Run (u.jobStep c world) anything s () es (.ended (conn', failed')) () ∧
    (RowStored c conn conn' ∨ failed' = true)

variable {u c world conn} {g : Shared} {calls : ℕ} {s s' : JobState} {es : List Event}

/-- A job finishes from where it stands when it does after its next turn. -/
lemma finishes_step (h : u.jobStep c world s () = some (s', es)) :
    Finishes u c world conn s ↔ Finishes u c world conn s' := by
  constructor
  · rintro ⟨fs, conn', failed', hrun, hend⟩
    rcases hrun.head with ⟨rfl, -, -⟩ | ⟨_, s₁, _, _, fs', hs, -, hrest, -⟩
    · cases h
    · rw [h] at hs
      obtain ⟨rfl, -⟩ := Prod.mk.inj (Option.some.inj hs)
      exact ⟨fs', conn', failed', hrest, hend⟩
  · rintro ⟨fs, conn', failed', hrun, hend⟩
    exact ⟨es ++ fs, conn', failed', (Run.one h trivial).trans hrun, hend⟩

/-- A process that is lost finishes nothing. -/
lemma not_finishes_lost : ¬ Finishes u c world conn .lost := by
  rintro ⟨fs, conn', failed', hrun, -⟩
  rcases hrun.head with ⟨h, -⟩ | ⟨_, _, _, _, _, hs, -⟩
  · cases h
  · cases hs

lemma finishes_finishing (h : RowStored c conn g.1 ∨ g.2 = true) :
    Finishes u c world conn (.working g .finishing calls) :=
  (finishes_step jobStep_finishing).mpr ⟨[], g.1, g.2, .start, h⟩

lemma finishes_failing : Finishes u c world conn (.working g .failing calls) :=
  (finishes_step jobStep_failing).mpr (finishes_finishing (Or.inr rfl))

lemma finishes_storing {failed : Bool} (md5 : Bytes) :
    Finishes u c world conn (.working (conn, failed) (.storing md5) calls) := by
  obtain ⟨g', w, hw, es, hs⟩ := jobStep_storing u world (conn, failed) calls md5
  rw [finishes_step hs]
  rcases hw with ⟨rfl, rfl⟩ | rfl
  · exact finishes_finishing (Or.inl ⟨md5.take 32, rfl⟩)
  · exact finishes_failing

/-- What the copy of the metadata needs. -/
def JobWorld.Copyable (world : JobWorld c) : Prop :=
  HasAccounts world.copySystem ∧ ∀ response, world.copyResponse = some response →
    response.go ≠ none

lemma finishes_updatingMeta {failed : Bool} :
    Finishes u c world conn (.working (conn, failed) .updatingMeta calls) ↔ world.Copyable := by
  rcases jobStep_updatingMeta u world (conn, failed) calls with
    ⟨haccounts, hresponse, w, es, hw, hs⟩ | ⟨hnot, es, hs⟩
  · refine iff_of_true ?_ ⟨haccounts, hresponse⟩
    rw [finishes_step hs]
    rcases hw with rfl | rfl
    · exact finishes_storing c.storedMd5
    · exact finishes_failing
  · refine iff_of_false ?_ hnot
    rw [finishes_step hs]
    exact not_finishes_lost

/-- What the upload needs of the calls of `uploadFile` that are made: what the request is built from
and headers that can be read; a `Location` that fits the buffer for it; that something is sent after
a 307; and an end of the transfers that fail with one. -/
structure JobWorld.Uploadable (world : JobWorld c) : Prop where
  supplied : ∀ n, Called world.attempts n →
    ∀ system, (world.attempts n).system = some system → Supplied system c.fileInfo
  survives : ∀ n, Called world.attempts n → ¬ (world.attempts n).Loses
  fits : ∀ n, Called world.attempts n →
    (world.attempts n).overflows ERROR_RESULT_SIZE = false
  sends : ∀ n, Called world.attempts n → (world.attempts n).Status307 →
    ∃ m > n, ¬ (world.attempts m).Local
  transfers : ∃ N, ∀ n ≥ N, Called world.attempts n → ¬ (world.attempts n).FailsRedirecting

/-- A job that finishes makes the calls that the loop makes. -/
lemma finishes_makes {failed : Bool}
    (h : Finishes u c world conn (.working (conn, failed) (.uploading {}) 0)) {n : ℕ} {r : Retry}
    (hr : Makes c.realLocalPath world.attempts n r) :
    Finishes u c world conn (.working (conn, failed) (.uploading r) n) := by
  induction n generalizing r with
  | zero =>
      cases hr
      exact h
  | succ n ih =>
      obtain ⟨r₀, h₀, -⟩ := hr.pred
      have hnext := loopAfter_next h₀
      rw [hr] at hnext
      have hfinishes := ih h₀
      rcases jobStep_uploading u world (conn, failed) n r₀ with
        ⟨-, result, hresult, es, hs⟩ | ⟨-, es, hs⟩
      · obtain rfl := Option.some.inj (hnext.trans (Retry.next_of_nextWithin hresult))
        exact (finishes_step hs).mp hfinishes
      · exact absurd ((finishes_step hs).mp hfinishes) not_finishes_lost

/-- A job that makes every call does not finish. -/
lemma not_finishes_endless {failed : Bool} (hcalled : ∀ n, Called world.attempts n) :
    ¬ Finishes u c world conn (.working (conn, failed) (.uploading {}) 0) := by
  intro h
  have hmade := fun {n r} (hr : Makes c.realLocalPath world.attempts n r) => finishes_makes h hr
  obtain ⟨es, conn', failed', hrun, -⟩ := h
  have hmakes : ∃ n r, Makes c.realLocalPath world.attempts n r ∧
      JobState.ended (conn', failed') = .working (conn, failed) (.uploading r) n := by
    refine hrun.invariant (I := fun _ s _ => ∃ n r, Makes c.realLocalPath world.attempts n r ∧
      s = .working (conn, failed) (.uploading r) n) ⟨0, {}, rfl, rfl⟩ ?_
    rintro _ _ _ _ _ s' _ ⟨n, r, hr, rfl⟩ hs -
    obtain ⟨r', hr'⟩ := (makes_iff_called c.realLocalPath).mpr (hcalled (n + 1))
    rcases jobStep_uploading u world (conn, failed) n r with
      ⟨-, result, hresult, fs, hstep⟩ | ⟨-, fs, hstep⟩
    · have hagain := (loopAfter_next hr).symm.trans hr'
      rw [Retry.next_of_nextWithin hresult] at hagain
      obtain rfl := Option.some.inj hagain
      rw [hs] at hstep
      obtain ⟨rfl, -⟩ := Prod.mk.inj (Option.some.inj hstep)
      exact ⟨n + 1, r', hr', rfl⟩
    · exact absurd ((finishes_step hstep).mp (hmade hr)) not_finishes_lost
  obtain ⟨_, _, _, h⟩ := hmakes
  cases h

/-- A job whose loop returns finishes from each call that the loop makes. -/
lemma finishes_returned {failed : Bool} (hup : world.Uploadable) {n : ℕ}
    (hn : Returned (loopAfter c.realLocalPath world.attempts n)) :
    ∀ (k : ℕ) {m : ℕ} {r : Retry}, m + k = n → Makes c.realLocalPath world.attempts m r →
      Finishes u c world conn (.working (conn, failed) (.uploading r) m) := by
  intro k
  induction k with
  | zero =>
      rintro m r rfl hr
      rw [Nat.add_zero, hr] at hn
      exact hn.elim
  | succ k ih =>
      intro m r hm hr
      have hnext := loopAfter_next hr
      rcases jobStep_uploading u world (conn, failed) m r with
        ⟨-, result, hresult, es, hs⟩ | ⟨hnot, -⟩
      · rw [finishes_step hs]
        rcases result with r' | ⟨status, md5⟩ | _
        · exact ih (by omega) (hnext.trans (Retry.next_of_nextWithin hresult))
        · rw [afterUpload]
          split
          · exact finishes_storing _
          · exact finishes_failing
        · exact finishes_failing
      · have hcalled := (makes_iff_called c.realLocalPath).mp ⟨r, hr⟩
        refine absurd ⟨hup.supplied m hcalled, fun hnone => ?_⟩ hnot
        have hturn := next_turn c.realLocalPath r (world.attempts m)
        rw [← Retry.nextWithin_of_fits (hup.fits m hcalled), hnone] at hturn
        exact hup.survives m hcalled hturn.loses

/-- From the beginning of the upload a job finishes exactly when the upload has what it needs. -/
lemma finishes_uploading {failed : Bool}
    (hfinite : ∃ N, ∀ n ≥ N, ¬ (world.attempts n).Redirects) :
    Finishes u c world conn (.working (conn, failed) (.uploading {}) 0) ↔ world.Uploadable := by
  constructor
  · intro h
    have hmade : ∀ n r, Makes c.realLocalPath world.attempts n r →
        (∀ system, (world.attempts n).system = some system → Supplied system c.fileInfo) ∧
          r.nextWithin ERROR_RESULT_SIZE c.realLocalPath (world.attempts n) ≠ none := by
      intro n r hr
      have hfinishes := finishes_makes h hr
      rcases jobStep_uploading u world (conn, failed) n r with
        ⟨hsupplied, result, hresult, -⟩ | ⟨-, es, hs⟩
      · exact ⟨hsupplied, by rw [hresult]; simp⟩
      · exact absurd ((finishes_step hs).mp hfinishes) not_finishes_lost
    have hcalled : ∀ {n}, Called world.attempts n →
        ∃ r, Makes c.realLocalPath world.attempts n r := (makes_iff_called _).mpr
    have hsupplied : ∀ n, Called world.attempts n →
        ∀ system, (world.attempts n).system = some system → Supplied system c.fileInfo := by
      intro n hn
      obtain ⟨r, hr⟩ := hcalled hn
      exact (hmade n r hr).1
    have hfits : ∀ n, Called world.attempts n →
        (world.attempts n).overflows ERROR_RESULT_SIZE = false := by
      intro n hn
      obtain ⟨r, hr⟩ := hcalled hn
      exact Retry.fits_of_nextWithin (hmade n r hr).2
    have hsurvives : ∀ n, Called world.attempts n → ¬ (world.attempts n).Loses := by
      intro n hn hloses
      obtain ⟨r, hr⟩ := hcalled hn
      have hmade := (hmade n r hr).2
      rw [Retry.nextWithin_of_fits (hfits n hn)] at hmade
      exact hmade ((next_turn _ r _).none_of_loses hloses)
    refine ⟨hsupplied, hsurvives, hfits, ?_, ?_⟩
    · intro n hn h307
      by_contra hnone
      push Not at hnone
      exact not_finishes_endless (called_stale hn h307 (hsurvives n hn) hnone) h
    · by_contra hnone
      push Not at hnone
      refine not_finishes_endless (fun m => ?_) h
      obtain ⟨n, hmn, hn, -⟩ := hnone m
      exact fun j hj => hn j (hj.trans_le hmn)
  · intro hup
    obtain ⟨N, hN⟩ := hfinite
    obtain ⟨M, hM⟩ := hup.transfers
    have hnone : ∀ n ≥ max N M, Called world.attempts n → ¬ (world.attempts n).Status307 := by
      rintro n hn hcalled ⟨t, ht, h307⟩
      by_cases hres : t.res = .ok
      · exact hN n (le_of_max_le_left hn) ⟨t, ht, hres, h307⟩
      · exact hM n (le_of_max_le_right hn) hcalled ⟨t, ht, hres, h307⟩
    obtain ⟨n, hn⟩ := loop_returns c.realLocalPath hup.survives ⟨_, hnone⟩ hup.sends
    exact finishes_returned hup hn n (Nat.zero_add n) rfl

/-- What a job needs. -/
structure JobWorld.Provides (world : JobWorld c) : Prop where
  readable : c.fileInfo.isSoftLink = false → c.shouldCheckMd5 = true → world.md5 ≠ none
  copyable : c.fileInfo.isSoftLink = false → c.shouldCheckMd5 = true →
    world.md5 = some c.storedMd5 → world.Copyable
  uploadable : ¬ (c.fileInfo.isSoftLink = false ∧ c.shouldCheckMd5 = true ∧
    world.md5 = some c.storedMd5) → world.Uploadable

/-- **From where a job ends**: it finishes exactly when the world provides what it needs on its
path. -/
lemma finishes_iff (conn : Db) (failed : Bool) (hdry : u.dryRun = false)
    (hfinite : ∃ N, ∀ n ≥ N, ¬ (world.attempts n).Redirects) :
    Finishes u c world conn (.working (conn, failed) (u.enter c) 0) ↔ world.Provides := by
  by_cases hcheck : c.fileInfo.isSoftLink = false ∧ c.shouldCheckMd5 = true
  · obtain ⟨hfile, hmd5⟩ := hcheck
    have henter : u.enter c = .checking := by simp [enter, hfile, hmd5]
    rw [henter]
    rcases hread : world.md5 with _ | md5
    · obtain ⟨es, hs⟩ := jobStep_unreadable u (conn, failed) 0 hread
      rw [finishes_step hs]
      exact iff_of_false not_finishes_lost fun h => h.readable hfile hmd5 hread
    · by_cases hsame : md5 = c.storedMd5
      · subst hsame
        obtain ⟨es, hs⟩ := jobStep_same (conn, failed) 0 hdry hread
        rw [finishes_step hs, finishes_updatingMeta]
        constructor
        · intro h
          exact ⟨fun _ _ => by rw [hread]; simp, fun _ _ _ => h,
            fun hnot => absurd ⟨hfile, hmd5, hread⟩ hnot⟩
        · intro h
          exact h.copyable hfile hmd5 hread
      · obtain ⟨es, hs⟩ := jobStep_differs (conn, failed) 0 hdry hread hsame
        have hother : world.md5 ≠ some c.storedMd5 := by
          rw [hread]
          exact fun h => hsame (Option.some.inj h)
        rw [finishes_step hs, finishes_uploading hfinite]
        constructor
        · intro h
          exact ⟨fun _ _ => by rw [hread]; simp, fun _ _ heq => absurd heq hother, fun _ => h⟩
        · intro h
          exact h.uploadable fun hcopy => hother hcopy.2.2
  · have henter : u.enter c = .uploading {} := by
      have hnot : (!c.fileInfo.isSoftLink && c.shouldCheckMd5) = false := by
        rw [Bool.and_eq_false_iff, Bool.not_eq_false']
        by_contra hboth
        push Not at hboth
        exact hcheck ⟨by simpa using hboth.1, by simpa using hboth.2⟩
      simp [enter, hnot, startUpload, hdry]
    rw [henter, finishes_uploading hfinite]
    constructor
    · intro h
      exact ⟨fun hfile hmd5 => absurd ⟨hfile, hmd5⟩ hcheck,
        fun hfile hmd5 => absurd ⟨hfile, hmd5⟩ hcheck, fun _ => h⟩
    · intro h
      exact h.uploadable fun hcopy => hcheck ⟨hcopy.1, hcopy.2.1⟩

/-- **When a job ends cleanly**: exactly when each answer that it uses is there, and the 307s come
to an end. -/
theorem runOverThread_ends_iff (hdry : u.dryRun = false)
    (hfinite : ∃ N, ∀ n ≥ N, ¬ (world.attempts n).Redirects) (conn : Db) (failed : Bool) :
    EndsCleanly u c world conn failed ↔ world.Provides := by
  rw [← finishes_iff conn failed hdry hfinite]
  constructor
  · intro h
    exact h.ends
  · intro h
    refine ⟨h, fun es hlost => ?_⟩
    obtain ⟨es', conn', failed', hrun, -⟩ := h
    obtain ⟨hsame, -⟩ := hrun.eq_of_stuck hlost rfl rfl
    cases hsame

end

/-! ## One file -/

/-- A file that is new to the table. -/
def sampleJob : ThreadCommand where
  index := 0
  realLocalPath := ascii "/home/a"
  path := ascii "a"
  contentType := ascii "application/octet-stream"
  fileInfo := sampleStat 1000
  storedMd5 := []
  shouldCheckMd5 := false

/-- A world that accepts it, with these accounts. -/
def sampleAnswers (system : System) : JobWorld sampleJob where
  md5 := some (ascii "900150983cd24fb0d6963f7d28e17f72")
  copySystem := system
  copyResponse := some sampleResponse
  attempts := fun _ => .performed system sampleResponse
  opens := fun _ _ => rfl
  fails := noFaults

lemma sampleResponse_go : ∃ t, sampleResponse.go = some t ∧ t.httpStatusCode = 200 :=
  Option.map_eq_some_iff.mp (show sampleResponse.go.map Transfer.httpStatusCode = some 200 by
    decide)

lemma sampleAnswers_status (system : System) (n : ℕ) :
    ¬ ((sampleAnswers system).attempts n).Status307 := by
  rintro ⟨t, ht, h307⟩
  obtain ⟨t', hgo, h200⟩ := sampleResponse_go
  obtain rfl := Option.some.inj (hgo.symm.trans ht)
  rw [h200] at h307
  exact absurd h307 (by decide)

lemma sampleAnswers_finite (system : System) :
    ∃ N, ∀ n ≥ N, ¬ ((sampleAnswers system).attempts n).Redirects := by
  refine ⟨0, ?_⟩
  rintro n - ⟨t, ht, -, h307⟩
  exact sampleAnswers_status system n ⟨t, ht, h307⟩

theorem runOverThread_ends_iff_sample :
    EndsCleanly (sampleUploader []) sampleJob (sampleAnswers sampleSystem) { committed := ∅ }
      false := by
  refine (runOverThread_ends_iff rfl (sampleAnswers_finite sampleSystem) _ _).mpr ⟨?_, ?_, ?_⟩
  · rintro - ⟨⟩
  · rintro - ⟨⟩
  · intro _
    have hstatus := sampleAnswers_status sampleSystem
    obtain ⟨t, hgo, h200⟩ := sampleResponse_go
    refine ⟨?_, ?_, ?_, ?_, 0, ?_⟩
    · rintro n - system ⟨⟩
      exact ⟨⟨by decide, by decide⟩, by decide⟩
    · rintro n - (⟨-, hnone⟩ | ⟨t, ht, -, h307, -⟩)
      · cases hgo.symm.trans hnone
      · exact hstatus n ⟨t, ht, h307⟩
    · rintro n -
      exact Attempt.fits_of_ne hgo (by rw [h200]; decide)
    · intro n _ h307
      exact absurd h307 (hstatus n)
    · rintro n - - ⟨t, ht, -, h307⟩
      exact hstatus n ⟨t, ht, h307⟩

/-- The owner of the file has no account any more. -/
theorem ownerless_file_crashes :
    (∃ N, ∀ n ≥ N, ¬ ((sampleAnswers { user := none, group := some (ascii "users") }).attempts
      n).Redirects) ∧
    ¬ EndsCleanly (sampleUploader []) sampleJob
      (sampleAnswers { user := none, group := some (ascii "users") }) { committed := ∅ } false := by
  refine ⟨sampleAnswers_finite _, fun h => ?_⟩
  rcases jobStep_uploading (sampleUploader [])
    (sampleAnswers { user := none, group := some (ascii "users") }) ({ committed := ∅ }, false) 0 {}
    with
    ⟨hsupplied, -⟩ | ⟨-, es, hs⟩
  · exact (hsupplied _ rfl).1.1 rfl
  · exact h.survives es (Run.one hs trivial)

end Uploader

end Clarc
