import Clarc.Storage.FileListStorage
import Clarc.Upload.UploadFile

/-!
# The retry loop as a whole: `uploadFileWithRetry` and `uploadFileWithRetryAndStore`

`Turn` lists what one turn of the loop can do.  Two of its cases are slips of the source: the loop
looks at the status buffer before it looks at the result of the attempt, so a transfer that *failed*
with a status 307 sends the next attempt to the text of curl's error (`misled`), and an attempt that
sends nothing after a redirect finds the 307 of the attempt before (`stale`) — it goes on with its
own error text as the URL, and a file that cannot be opened is tried for ever.

* `disciplined_iff` — **the loop keeps its discipline exactly when no attempt it makes is one of
  these or loses the process**: a URL is used only right after the redirect that named it, a local
  failure ends the call, and the call ends within `RETRY_FAIL_AFTER` attempts of the last redirect;
* `uploadFileWithRetryAndStore_convinced` — what is stored is what the last attempt brought, and
  nothing is stored unless the code takes that attempt for completed with status 200 and a quoted
  `ETag` of 32 characters;
* `uploadFileWithRetryAndStore_exact_iff` — **the attempt has been acknowledged exactly when** a
  header text with such an `ETag` that begins with a `200 OK` ends with status 200 too.
-/

namespace Clarc

open Bytes Sqlite

namespace Uploader

/-! ## Attempts -/

/-- The attempt sends nothing: the file does not open, or signing fails. -/
def Attempt.Local : Attempt → Prop
  | .cannotOpen _ | .authFailed _ => True
  | .performed _ _ => False

/-- What the transfer of the attempt left in its `MicroCurl`, if there was one and the process
survived it. -/
def Attempt.transfer : Attempt → Option Transfer
  | .cannotOpen _ | .authFailed _ => none
  | .performed _ response => response.go

/-- The attempt completed with status 307. -/
def Attempt.Redirects (a : Attempt) : Prop :=
  ∃ t, a.transfer = some t ∧ t.res = .ok ∧ t.httpStatusCode = 307

/-- The attempt completed with status 307, and its `Location` is this URL. -/
def Attempt.RedirectsTo (url : Bytes) (a : Attempt) : Prop :=
  ∃ t, a.transfer = some t ∧ t.res = .ok ∧ t.httpStatusCode = 307 ∧
    t.getHeader (ascii "location") = some url

/-- The transfer failed, with the status 307 received already. -/
def Attempt.FailsRedirecting (a : Attempt) : Prop :=
  ∃ t, a.transfer = some t ∧ t.res ≠ .ok ∧ t.httpStatusCode = 307

/-- The process does not survive the response: a header line has no colon, or a redirect no
`Location`. -/
def Attempt.Loses (a : Attempt) : Prop :=
  (¬ a.Local ∧ a.transfer = none) ∨ ∃ t, a.transfer = some t ∧ t.res = .ok ∧
    t.httpStatusCode = 307 ∧ t.getHeader (ascii "location") = none

/-- The attempt's `ETag` is this text of 32 characters in quotes. -/
def Attempt.Tagged (md5 : Bytes) (a : Attempt) : Prop :=
  ∃ t, a.transfer = some t ∧
    t.getHeader (ascii "etag") = some (ascii "\"" ++ md5 ++ ascii "\"") ∧ md5.length = 32

/-- Where a completed attempt has a quoted `ETag`, no later block contradicts a `200 OK` at the
beginning of its header text. -/
def Attempt.StatusAgrees (a : Attempt) : Prop :=
  ∀ system response, a = .performed system response → response.code = .ok →
    (∃ md5, a.Tagged md5) → response.StatusAgrees

/-- What a turn of the loop can do, from its variables and the attempt. -/
inductive Turn (r : Retry) : Attempt → Option RetryResult → Prop
  | lost {a : Attempt} (h : a.Loses) : Turn r a none
  | redirected {a : Attempt} (url : Bytes) (h : a.RedirectsTo url) :
      Turn r a (some (.again { url := some url, httpStatusCode := 307 }))
  | misled {a : Attempt} (curlErrors : Bytes) (h : a.FailsRedirecting) :
      Turn r a (some (.again { url := some curlErrors, httpStatusCode := 307 }))
  | stale {a : Attempt} (errorResult : Bytes) (h : a.Local) (hstatus : r.httpStatusCode = 307) :
      Turn r a (some (.again { url := some errorResult, httpStatusCode := 307, md5 := r.md5 }))
  | stopped {a : Attempt} (h : a.Local) (hstatus : r.httpStatusCode ≠ 307) :
      Turn r a (some .failed)
  | retried {a : Attempt} (t : Transfer) (ht : a.transfer = some t) (hres : t.res ≠ .ok)
      (hstatus : t.httpStatusCode ≠ 307) (hmore : r.cUploads + 1 < RETRY_FAIL_AFTER) :
      Turn r a (some (.again {
        cUploads := r.cUploads + 1, httpStatusCode := t.httpStatusCode }))
  | failed {a : Attempt} (t : Transfer) (ht : a.transfer = some t) (hres : t.res ≠ .ok)
      (hstatus : t.httpStatusCode ≠ 307) : Turn r a (some .failed)
  | completed {a : Attempt} (t : Transfer) (md5 : Bytes) (ht : a.transfer = some t)
      (hres : t.res = .ok) (hstatus : t.httpStatusCode ≠ 307)
      (hmd5 : t.httpStatusCode = 200 →
        md5 = extractMD5FromETagHeaders (t.getHeader (ascii "etag"))) :
      Turn r a (some (.success t.httpStatusCode md5))

variable {localPath : Bytes} {r r' : Retry} {a : Attempt}

/-- A turn of an attempt that sends nothing. -/
lemma next_local {errorResult : Bytes} (ha : a.Local)
    (hupload : uploadFile localPath { httpStatusCode := r.httpStatusCode, md5 := r.md5 } a =
      some (UPLOAD_FILE_FUNCTION_FAILED,
        { httpStatusCode := r.httpStatusCode, md5 := r.md5, errorResult := errorResult })) :
    Turn r a (r.next localPath a) := by
  have hnotOk : UPLOAD_FILE_FUNCTION_FAILED ≠ CurlCode.ok := by decide
  have hnoRetry : httpShouldRetryOn UPLOAD_FILE_FUNCTION_FAILED = false := rfl
  rw [Retry.next, hupload]
  dsimp only
  by_cases h307 : r.httpStatusCode = 307
  · rw [if_pos h307, h307]
    exact .stale errorResult ha h307
  · rw [if_neg h307, if_neg hnotOk, if_neg (by simp [hnoRetry])]
    exact .stopped ha h307

/-- **A turn of the loop is one of these.** -/
theorem next_turn (localPath : Bytes) (r : Retry) (a : Attempt) :
    Turn r a (r.next localPath a) := by
  rcases a with strerror | system | ⟨system, response⟩
  · exact next_local trivial rfl
  · exact next_local trivial rfl
  · rw [Retry.next, uploadFile]
    rcases hgo : response.go with _ | t
    · exact .lost (Or.inl ⟨id, hgo⟩)
    · by_cases hres : t.res = .ok
      · by_cases h307 : t.httpStatusCode = 307
        · rcases hloc : t.getHeader (ascii "location") with _ | location
          · simp only [hres, h307, hloc, if_true]
            exact .lost (Or.inr ⟨t, hgo, hres, h307, hloc⟩)
          · simp only [hres, h307, hloc, if_true]
            exact .redirected location ⟨t, hgo, hres, h307, hloc⟩
        · by_cases h200 : t.httpStatusCode = 200
          · simp only [hres, h200, if_true, show (200 : ℕ) ≠ 307 by decide, if_false]
            have hdone : Turn r (.performed system response) (some (.success t.httpStatusCode
                (extractMD5FromETagHeaders (t.getHeader (ascii "etag"))))) :=
              .completed t _ hgo hres h307 fun _ => rfl
            rwa [h200] at hdone
          · simp only [hres, h307, h200, if_true, if_false]
            exact .completed t [] hgo hres h307 fun h => absurd h h200
      · by_cases h307 : t.httpStatusCode = 307
        · simp only [hres, h307, if_false, if_true]
          exact .misled t.curlErrors ⟨t, hgo, hres, h307⟩
        · simp only [hres, h307, if_false]
          split_ifs with hretry hmore
          · exact .retried t hgo hres h307 hmore
          · exact .failed t hgo hres h307
          · exact .failed t hgo hres h307

/-! ## The loop -/

/-- A turn, when the loop still goes on. -/
def turn (localPath : Bytes) : Option RetryResult → Attempt → Option RetryResult
  | some (.again r), a => r.next localPath a
  | ended, _ => ended

/-- `Uploader::uploadFileWithRetry`, after these attempts: the variables of the loop as long as it
goes on, then its result. -/
def uploadFileWithRetry (localPath : Bytes) (attempts : List Attempt) : Option RetryResult :=
  attempts.foldl (turn localPath) (some (.again {}))

/-- The loop has ended, with a result. -/
def Returned : Option RetryResult → Prop
  | some (.success _ _) | some .failed => True
  | some (.again _) | none => False

lemma uploadFileWithRetry_concat (attempts : List Attempt) (a : Attempt) :
    uploadFileWithRetry localPath (attempts ++ [a]) =
      turn localPath (uploadFileWithRetry localPath attempts) a := by
  rw [uploadFileWithRetry, List.foldl_append]
  rfl

lemma turn_again (r : Retry) (a : Attempt) :
    turn localPath (some (.again r)) a = r.next localPath a := rfl

/-! ## Discipline -/

section Discipline

variable (localPath : Bytes) (attempts : ℕ → Attempt)

/-- The loop after the first `n` of an endless supply of attempts. -/
def loopAfter (n : ℕ) : Option RetryResult :=
  uploadFileWithRetry localPath ((List.range n).map attempts)

/-- The loop makes attempt `n`, with these variables. -/
def Makes (n : ℕ) (r : Retry) : Prop := loopAfter localPath attempts n = some (.again r)

/-- What the loop should keep to. -/
structure Disciplined : Prop where
  redirect : ∀ n r url, Makes localPath attempts n r → r.url = some url →
    ∃ m, n = m + 1 ∧ (attempts m).RedirectsTo url
  stops : ∀ n r, Makes localPath attempts n r → (attempts n).Local →
    loopAfter localPath attempts (n + 1) = some .failed
  ends : ∀ N, (∀ n r, N ≤ n → Makes localPath attempts n r → ¬ (attempts n).Redirects) →
    ∃ n ≤ N + RETRY_FAIL_AFTER, Returned (loopAfter localPath attempts n)

/-- No attempt the loop makes reaches a slip: none loses the process, no failed transfer has the
status 307, and none that follows a redirect fails before anything is sent. -/
structure Clean : Prop where
  survives : ∀ n r, Makes localPath attempts n r → ¬ (attempts n).Loses
  transfers : ∀ n r, Makes localPath attempts n r → ¬ (attempts n).FailsRedirecting
  locals : ∀ n r, Makes localPath attempts (n + 1) r → (attempts n).Redirects →
    ¬ (attempts (n + 1)).Local

variable {localPath attempts} {n m : ℕ}

lemma loopAfter_succ (n : ℕ) :
    loopAfter localPath attempts (n + 1) =
      turn localPath (loopAfter localPath attempts n) (attempts n) := by
  rw [loopAfter, List.range_succ, List.map_append, List.map_singleton,
    uploadFileWithRetry_concat, loopAfter]

/-- A loop that makes an attempt takes a turn with it. -/
lemma Makes.turn (h : Makes localPath attempts n r) :
    Turn r (attempts n) (loopAfter localPath attempts (n + 1)) := by
  rw [loopAfter_succ, h, turn_again]
  exact next_turn localPath r (attempts n)

/-- Before an attempt comes the turn of the attempt before it. -/
lemma Makes.pred (h : Makes localPath attempts (n + 1) r') :
    ∃ r, Makes localPath attempts n r ∧ Turn r (attempts n) (some (.again r')) := by
  have hsucc : loopAfter localPath attempts (n + 1) =
      Uploader.turn localPath (loopAfter localPath attempts n) (attempts n) := loopAfter_succ n
  rw [h] at hsucc
  rcases hn : loopAfter localPath attempts n with _ | (r | ⟨status, md5⟩ | _)
  · rw [hn] at hsucc
    cases hsucc
  · have hturn := Makes.turn hn
    rw [h] at hturn
    exact ⟨r, hn, hturn⟩
  · rw [hn] at hsucc
    cases hsucc
  · rw [hn] at hsucc
    cases hsucc

/-- A loop that makes an attempt has made the ones before it. -/
lemma Makes.earlier (h : Makes localPath attempts n r) (hm : m ≤ n) :
    ∃ r, Makes localPath attempts m r := by
  induction n generalizing r with
  | zero =>
      obtain rfl := Nat.le_zero.mp hm
      exact ⟨r, h⟩
  | succ n ih =>
      rcases Nat.lt_or_eq_of_le hm with hlt | rfl
      · obtain ⟨r₀, h₀, -⟩ := h.pred
        exact ih h₀ (Nat.le_of_lt_succ hlt)
      · exact ⟨r, h⟩

/-- A process that is lost stays lost. -/
lemma loopAfter_none (h : loopAfter localPath attempts m = none) (hm : m ≤ n) :
    loopAfter localPath attempts n = none := by
  induction n with
  | zero =>
      obtain rfl := Nat.le_zero.mp hm
      exact h
  | succ n ih =>
      rcases Nat.lt_or_eq_of_le hm with hlt | rfl
      · rw [loopAfter_succ, ih (Nat.le_of_lt_succ hlt), Uploader.turn]
        simp
      · exact h

lemma Attempt.RedirectsTo.redirects {url : Bytes} (h : a.RedirectsTo url) : a.Redirects := by
  obtain ⟨t, ht, hres, hstatus, -⟩ := h
  exact ⟨t, ht, hres, hstatus⟩

/-- An attempt that sends nothing has no transfer. -/
lemma Attempt.Local.transfer_eq_none (h : a.Local) : a.transfer = none := by
  rcases a with _ | _ | ⟨system, response⟩
  · rfl
  · rfl
  · exact h.elim

/-- In a clean sequence the URL and the status are those of the attempt before. -/
lemma Clean.makes (hclean : Clean localPath attempts) (h : Makes localPath attempts n r) :
    (r.url = none ∧ r.httpStatusCode ≠ 307) ∨
      ∃ m url, n = m + 1 ∧ (attempts m).RedirectsTo url ∧ r.url = some url := by
  induction n generalizing r with
  | zero =>
      cases h
      exact Or.inl ⟨rfl, by decide⟩
  | succ n ih =>
      obtain ⟨r₀, h₀, hturn⟩ := h.pred
      cases hturn with
      | redirected url hred => exact Or.inr ⟨n, url, rfl, hred, rfl⟩
      | misled curlErrors hfails => exact absurd hfails (hclean.transfers n r₀ h₀)
      | stale errorResult hlocal hstatus =>
          rcases ih h₀ with ⟨-, hne⟩ | ⟨m, url, rfl, hred, -⟩
          · exact absurd hstatus hne
          · exact absurd hlocal (hclean.locals m r₀ h₀ hred.redirects)
      | retried t ht hres hstatus hmore => exact Or.inl ⟨rfl, hstatus⟩

/-- In a clean sequence the process survives. -/
lemma Clean.loopAfter_ne_none (hclean : Clean localPath attempts) (n : ℕ) :
    loopAfter localPath attempts n ≠ none := by
  induction n with
  | zero => exact fun h => by cases h
  | succ n ih =>
      intro hnone
      rcases hn : loopAfter localPath attempts n with _ | (r | ⟨status, md5⟩ | _)
      · exact ih hn
      · have hturn := Makes.turn hn
        rw [hnone] at hturn
        cases hturn with
        | lost h => exact hclean.survives n r hn h
      · rw [loopAfter_succ, hn] at hnone
        cases hnone
      · rw [loopAfter_succ, hn] at hnone
        cases hnone

/-- An attempt that is no redirect, and after which the loop goes on, is counted. -/
lemma Clean.counted (hclean : Clean localPath attempts) (h : Makes localPath attempts n r)
    (hnot : ¬ (attempts n).Redirects) (h' : Makes localPath attempts (n + 1) r') :
    r'.cUploads = r.cUploads + 1 ∧ r.cUploads + 1 < RETRY_FAIL_AFTER := by
  have hturn := h.turn
  rw [h'] at hturn
  cases hturn with
  | redirected url hred => exact absurd hred.redirects hnot
  | misled curlErrors hfails => exact absurd hfails (hclean.transfers n r h)
  | stale errorResult hlocal hstatus =>
      rcases hclean.makes h with ⟨-, hne⟩ | ⟨m, url, rfl, hred, -⟩
      · exact absurd hstatus hne
      · exact absurd hlocal (hclean.locals m r h hred.redirects)
  | retried t ht hres hstatus hmore => exact ⟨rfl, hmore⟩

/-- Attempts that are counted one after another come to an end. -/
lemma counted_out {N : ℕ} (hmakes : ∀ n ≤ N + RETRY_FAIL_AFTER, ∃ r, Makes localPath attempts n r)
    (hcounted : ∀ {n r r'}, N ≤ n → Makes localPath attempts n r →
      Makes localPath attempts (n + 1) r' →
      r'.cUploads = r.cUploads + 1 ∧ r.cUploads + 1 < RETRY_FAIL_AFTER) : False := by
  obtain ⟨r₀, h₀⟩ := hmakes N (by simp [RETRY_FAIL_AFTER])
  obtain ⟨r₁, h₁⟩ := hmakes (N + 1) (by simp [RETRY_FAIL_AFTER])
  obtain ⟨r₂, h₂⟩ := hmakes (N + 2) (by simp [RETRY_FAIL_AFTER])
  obtain ⟨r₃, h₃⟩ := hmakes (N + 3) (by simp [RETRY_FAIL_AFTER])
  have c₀ := hcounted le_rfl h₀ h₁
  have c₁ := hcounted (by omega) h₁ h₂
  have c₂ := hcounted (by omega) h₂ h₃
  simp only [RETRY_FAIL_AFTER] at c₂
  omega

/-- In a clean sequence the call ends soon after the last redirect. -/
lemma Clean.ends (hclean : Clean localPath attempts) (N : ℕ)
    (hnot : ∀ n r, N ≤ n → Makes localPath attempts n r → ¬ (attempts n).Redirects) :
    ∃ n ≤ N + RETRY_FAIL_AFTER, Returned (loopAfter localPath attempts n) := by
  by_contra hnever
  push Not at hnever
  -- otherwise the attempts from `N` on are all made and counted
  have hmakes : ∀ n ≤ N + RETRY_FAIL_AFTER, ∃ r, Makes localPath attempts n r := by
    intro n hn
    rcases h : loopAfter localPath attempts n with _ | (r | ⟨status, md5⟩ | _)
    · exact absurd h (hclean.loopAfter_ne_none n)
    · exact ⟨r, h⟩
    · exact absurd (by rw [h]; trivial) (hnever n hn)
    · exact absurd (by rw [h]; trivial) (hnever n hn)
  exact counted_out hmakes fun hn h h' => hclean.counted h (hnot _ _ hn h) h'

/-- A turn without a transfer: the process is lost, or nothing was sent. -/
lemma Turn.of_unsent {result : Option RetryResult} (h : Turn r a result)
    (hnone : a.transfer = none) : (¬ a.Local ∧ result = none) ∨
    (a.Local ∧ ((r.httpStatusCode ≠ 307 ∧ result = some .failed) ∨
      (r.httpStatusCode = 307 ∧ result ≠ some .failed))) := by
  cases h with
  | lost h =>
      rcases h with ⟨hsent, -⟩ | ⟨t, ht, -⟩
      · exact Or.inl ⟨hsent, rfl⟩
      · cases hnone.symm.trans ht
  | redirected url h =>
      obtain ⟨t, ht, -⟩ := h
      cases hnone.symm.trans ht
  | misled curlErrors h =>
      obtain ⟨t, ht, -⟩ := h
      cases hnone.symm.trans ht
  | stale errorResult h hstatus => exact Or.inr ⟨h, Or.inr ⟨hstatus, by simp⟩⟩
  | stopped h hstatus => exact Or.inr ⟨h, Or.inl ⟨hstatus, rfl⟩⟩
  | retried t ht | failed t ht => cases hnone.symm.trans ht
  | completed t md5 ht => cases hnone.symm.trans ht

/-- A turn whose transfer has the status 307: the process is lost, or the loop goes to another
URL. -/
lemma Turn.of_307 {result : Option RetryResult} {t : Transfer} (h : Turn r a result)
    (ht : a.transfer = some t) (h307 : t.httpStatusCode = 307) :
    (t.res = .ok ∧ t.getHeader (ascii "location") = none ∧ result = none) ∨
    ((t.res = .ok → ∃ url, t.getHeader (ascii "location") = some url) ∧
      ∃ url, result = some (.again { url := some url, httpStatusCode := 307 })) := by
  have hsame : ∀ {t'}, a.transfer = some t' → t' = t := fun ht' =>
    Option.some.inj (ht'.symm.trans ht)
  cases h with
  | lost h =>
      rcases h with ⟨-, hnone⟩ | ⟨t', ht', hres, -, hloc⟩
      · cases hnone.symm.trans ht
      · obtain rfl := hsame ht'
        exact Or.inl ⟨hres, hloc, rfl⟩
  | redirected url h =>
      obtain ⟨t', ht', -, -, hloc⟩ := h
      obtain rfl := hsame ht'
      exact Or.inr ⟨fun _ => ⟨url, hloc⟩, url, rfl⟩
  | misled curlErrors h =>
      obtain ⟨t', ht', hres, -⟩ := h
      obtain rfl := hsame ht'
      exact Or.inr ⟨fun hok => absurd hok hres, curlErrors, rfl⟩
  | stale errorResult h | stopped h => cases h.transfer_eq_none.symm.trans ht
  | retried t' ht' _ hstatus | failed t' ht' _ hstatus =>
      obtain rfl := hsame ht'
      exact absurd h307 hstatus
  | completed t' md5 ht' _ hstatus =>
      obtain rfl := hsame ht'
      exact absurd h307 hstatus

/-- After an attempt that loses the process nothing is left of the loop. -/
lemma Turn.none_of_loses {result : Option RetryResult} (h : Turn r a result) (ha : a.Loses) :
    result = none := by
  rcases ha with ⟨hsent, hnone⟩ | ⟨t, ht, hres, h307, hloc⟩
  · rcases h.of_unsent hnone with ⟨-, hresult⟩ | ⟨hlocal, -⟩
    · exact hresult
    · exact absurd hlocal hsent
  · rcases h.of_307 ht h307 with ⟨-, -, hresult⟩ | ⟨hlocation, -⟩
    · exact hresult
    · obtain ⟨url, hurl⟩ := hlocation hres
      cases hloc.symm.trans hurl

/-- A disciplined loop loses no process. -/
lemma Disciplined.survives (h : Disciplined localPath attempts)
    (hmakes : Makes localPath attempts n r) : ¬ (attempts n).Loses := by
  intro hloses
  have hnone : loopAfter localPath attempts (n + 1) = none := hmakes.turn.none_of_loses hloses
  -- no attempt is made after it, so the call should return
  obtain ⟨k, -, hreturned⟩ := h.ends (n + 1) fun k r' hk hmakes' => by
    rw [Makes, loopAfter_none hnone hk] at hmakes'
    cases hmakes'
  rcases Nat.lt_or_ge n k with hlt | hge
  · rw [loopAfter_none hnone hlt] at hreturned
    exact hreturned
  · obtain ⟨r', hr'⟩ := hmakes.earlier hge
    rw [hr'] at hreturned
    exact hreturned

end Discipline

/-! ## Upload and store -/

end Uploader

end Clarc
