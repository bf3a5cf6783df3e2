import Clarc.Http.MicroCurl

/-!
# Uploading one file: `Uploader::uploadFile` and its retry loop

`uploadFile` sends one PUT.  What it is told from outside is an `Attempt`: that the file does not
open, that signing fails, or the response that libcurl delivered.  `uploadFileWithRetry` repeats it,
and keeps its three result buffers from one attempt to the next: the error text is emptied before
each attempt, the status and the md5 are not.  An attempt that sends nothing therefore leaves the
status of the attempt before it, and the loop looks at that status first.

* `Retry.next` is one turn of the loop, and `Retry.nextWithin` the same for a caller whose buffer
  for the error text has so many bytes;
* `Retry.next_success` — **the loop ends with success only through a completed response**, and the
  status and md5 it reports are that response's.

An absent pointer that the code uses as a string — no account for an owner, no `Location` — ends
the process, and so do a `readlink` that fails and a `Location` that is copied over the end of the
buffer; the model returns `none` there.
-/

namespace Clarc

open Bytes

/-! ## File information -/

/-- `struct stat`, as far as it is used. -/
structure Stat where
  mode : UInt32
  size : ℕ
  mtime : Int64
  uid : UInt32
  gid : UInt32
  deriving DecidableEq, Repr

/-- `(st_mode & S_IFLNK) == S_IFLNK`. -/
def Stat.isSoftLink (st : Stat) : Bool := st.mode &&& 0xA000 == 0xA000

/-- `(uint64_t) st_mtime`. -/
def Stat.mtime64 (st : Stat) : UInt64 := st.mtime.toUInt64

/-- `(uint32_t) st_mtime`. -/
def Stat.mtime32 (st : Stat) : UInt32 := st.mtime.toUInt64.toUInt32

/-- Files from this size on are skipped. -/
def MAX_S3_FILE_SIZE : ℕ := 5315022020

/-- The table of `guessContentType`, in its order. -/
def contentTypes : List (Bytes × Bytes) :=
  [ (ascii "jpg", ascii "image/jpeg"), (ascii "jpeg", ascii "image/jpeg"),
    (ascii "png", ascii "image/png"), (ascii "gif", ascii "image/gif"),
    (ascii "bmp", ascii "image/bmp"), (ascii "tif", ascii "image/tif"),
    (ascii "tiff", ascii "image/tif"), (ascii "css", ascii "text/css"),
    (ascii "js", ascii "text/javascript"), (ascii "json", ascii "text/json"),
    (ascii "xml", ascii "text/xml"), (ascii "plist", ascii "text/xml"),
    (ascii "html", ascii "text/html"), (ascii "txt", ascii "text/plain"),
    (ascii "gz", ascii "application/x-gzip"), (ascii "bzip2", ascii "application/x-bzip2"),
    (ascii "tar", ascii "application/x-tar"), (ascii "zip", ascii "application/zip"),
    (ascii "pdf", ascii "application/pdf"),
    (ascii "jad", ascii "text/vnd.sun.j2me.app-descriptor"),
    (ascii "jar", ascii "application/java-archive") ]

/-- `guessContentType`: by what follows the last dot. -/
def guessContentType (filename : Bytes) : Bytes :=
  if 46 ∈ filename then
    let lowcaseExtension := ((filename.reverse.takeWhile (· ≠ 46)).reverse).map tolower
    (contentTypes.lookup lowcaseExtension).getD (ascii "application/octet-stream")
  else ascii "application/octet-stream"

/-! ## The uploader's settings -/

/-- The default number of threads is one that is admitted. -/
lemma defaultThreads_pos : 0 < 4 := by decide

lemma defaultThreads_lt : 4 < 100 := by decide

/-- The settings of an `Uploader`; the command line admits 1 to 99 threads. -/
structure Uploader where
  amazonCredentials : AmazonCredentials
  destinationFolder : Option Bytes := none
  useRrs : Bool := false
  makeAllPublic : Bool := false
  useSsl : Bool := true
  dryRun : Bool := false
  uploadThreads : ℕ := 4
  uploadThreads_pos : 0 < uploadThreads := by decide
  uploadThreads_lt : uploadThreads < 100 := by decide

/-- What the system says of a file's owner, and of a link's target. -/
structure System where
  user : Option Bytes
  group : Option Bytes
  target : Option Bytes := none
  deriving DecidableEq, Repr

namespace Uploader

variable (u : Uploader)

/-- The remote key of a path, as `uploadFiles` builds it. -/
def remotePath (path : Bytes) : Bytes :=
  match u.destinationFolder with
  | some destinationFolder =>
      if 0 < destinationFolder.length then destinationFolder ++ ascii "/" ++ path else path
  | none => path

/-- `Uploader::extractMD5FromETagHeaders`. -/
def extractMD5FromETagHeaders : Option Bytes → Bytes
  | none => []
  | some md5HeaderValue =>
      if md5HeaderValue.length ≠ 34 then []
      else if md5HeaderValue.head? = some 0x22 ∧ md5HeaderValue.getLast? = some 0x22 then
        (md5HeaderValue.drop 1).take 32
      else []

/-- `Uploader::addUidAndGidHeaders`. -/
def addUidAndGidHeaders (fileInfo : Stat) (system : System) : Option (List (Bytes × Bytes)) :=
  match system.user, system.group with
  | some pw_name, some gr_name =>
      some [(ascii "x-amz-meta-uid", decimal fileInfo.uid.toNat ++ ascii " " ++ pw_name),
        (ascii "x-amz-meta-gid", decimal fileInfo.gid.toNat ++ ascii " " ++ gr_name)]
  | _, _ => none

/-- The headers both PUT requests start their metadata with. -/
def aclHeaders : List (Bytes × Bytes) :=
  [(ascii "x-amz-acl", if u.makeAllPublic then ascii "public-read" else ascii "private")] ++
    if u.useRrs then [(ascii "x-amz-storage-class", ascii "REDUCED_REDUNDANCY")] else []

/-- The mode and mtime headers. -/
def statHeaders (fileInfo : Stat) : List (Bytes × Bytes) :=
  [(ascii "x-amz-meta-mode", octal fileInfo.mode.toNat),
    (ascii "x-amz-meta-mtime", decimal fileInfo.mtime64.toNat)]

/-- The link's target, read into 1024 bytes; nothing for other files. -/
def softLinkData (fileInfo : Stat) (system : System) : Option (Option Bytes) :=
  if fileInfo.isSoftLink then
    system.target.map fun target => some (cString (target.take 1024))
  else some none

/-- The PUT that `uploadFile` prepares. -/
def uploadFileRequest (localPath remotePath : Bytes) (url : Option Bytes) (contentType : Bytes)
    (fileInfo : Stat) (system : System) : Option Request :=
  match addUidAndGidHeaders fileInfo system, softLinkData fileInfo system with
  | some ids, some link =>
      let escapedRemotePath := escape remotePath
      some {
        method := .put
        url := url.getD (u.amazonCredentials.generateUrl escapedRemotePath u.useSsl)
        canonicalizedResource := u.amazonCredentials.resource escapedRemotePath
        headers := ids ++ u.aclHeaders ++ statHeaders fileInfo ++
          (match link with
            | some target =>
                [(ascii "x-amz-meta-symlink", target), (ascii "x-amz-meta-localpath", localPath)]
            | none => []) ++
          [(ascii "Content-type", contentType), (ascii "Expect", [])]
        body := match link with
          | some target => .data target
          | none => .file localPath fileInfo.size }
  | _, _ => none

/-- The copy of an object onto itself that `updateMeta` prepares. -/
def updateMetaRequest (remotePath contentType : Bytes) (fileInfo : Stat) (system : System) :
    Option Request :=
  match addUidAndGidHeaders fileInfo system with
  | some ids =>
      let escapedRemotePath := escape remotePath
      let canonicalizedResource := u.amazonCredentials.resource escapedRemotePath
      some {
        method := .put
        url := u.amazonCredentials.generateUrl escapedRemotePath u.useSsl
        canonicalizedResource := canonicalizedResource
        headers := u.aclHeaders ++ statHeaders fileInfo ++
          [(ascii "x-amz-copy-source", canonicalizedResource),
            (ascii "x-amz-metadata-directive", ascii "REPLACE"), (ascii "Expect", []),
            (ascii "Content-type", contentType)] ++ ids }
  | none => none

/-! ## One attempt -/

/-- What happens to one call of `uploadFile`. -/
inductive Attempt
  | cannotOpen (strerror : Bytes)
  | authFailed (system : System)
  | performed (system : System) (response : Response)

/-- The file did not open. -/
def Attempt.unopened : Attempt → Bool
  | .cannotOpen _ => true
  | .authFailed _ | .performed _ _ => false

/-- The buffers `uploadFile` writes its results to. -/
structure Results where
  httpStatusCode : ℕ := 0
  md5 : Bytes := []
  errorResult : Bytes := []
  deriving DecidableEq, Repr

/-- `Uploader::uploadFile`, after the request: its result, and what it leaves in the buffers. -/
def uploadFile (localPath : Bytes) (b : Results) : Attempt → Option (CurlCode × Results)
  | .cannotOpen strerror =>
      some (UPLOAD_FILE_FUNCTION_FAILED,
        { b with errorResult := ascii "Cannot open file " ++ localPath ++ ascii ": " ++ strerror })
  | .authFailed _ =>
      some (UPLOAD_FILE_FUNCTION_FAILED, { b with errorResult := ascii "Error in auth module" })
  | .performed _ response =>
      match response.go with
      | none => none
      | some t =>
          if t.res = .ok then
            if t.httpStatusCode = 307 then
              match t.getHeader (ascii "location") with
              | none => none
              | some location =>
                  some (.ok, { httpStatusCode := 307, md5 := [], errorResult := location })
            else if t.httpStatusCode = 200 then
              some (.ok, { b with
                httpStatusCode := 200
                md5 := extractMD5FromETagHeaders (t.getHeader (ascii "etag")) })
            else some (.ok, { b with httpStatusCode := t.httpStatusCode, md5 := [] })
          else
            some (t.res, {
              httpStatusCode := t.httpStatusCode, md5 := [], errorResult := t.curlErrors })

/-! ## The retry loop -/

/-- The variables of `uploadFileWithRetry` at the top of its loop. -/
structure Retry where
  url : Option Bytes := none
  cUploads : ℕ := 0
  httpStatusCode : ℕ := 0
  md5 : Bytes := []
  deriving DecidableEq, Repr

/-- How one turn of the loop ends. -/
inductive RetryResult
  | again (r : Retry)
  | success (httpStatusCode : ℕ) (md5 : Bytes)
  | failed
  deriving DecidableEq, Repr

/-- One turn of the loop of `Uploader::uploadFileWithRetry`. -/
def Retry.next (localPath : Bytes) (r : Retry) (attempt : Attempt) : Option RetryResult :=
  match uploadFile localPath { httpStatusCode := r.httpStatusCode, md5 := r.md5 } attempt with
  | none => none
  | some (res, b) =>
      if b.httpStatusCode = 307 then
        some (.again {
          url := some b.errorResult
          cUploads := 0
          httpStatusCode := b.httpStatusCode
          md5 := b.md5 })
      else if res = .ok then some (.success b.httpStatusCode b.md5)
      else if httpShouldRetryOn res then
        if r.cUploads + 1 < RETRY_FAIL_AFTER then
          some (.again {
            url := none
            cUploads := r.cUploads + 1
            httpStatusCode := b.httpStatusCode
            md5 := b.md5 })
        else some .failed
      else some .failed

/-- The size of the `errorResult` of `runOverThread`.  The other callers have 100 KiB, which is more
than libcurl lets a header line have. -/
def ERROR_RESULT_SIZE : ℕ := 1024 * 20

/-- The attempt completed with status 307, and its `Location` and a terminator are too long for a
buffer of this size. -/
def Attempt.overflows (size : ℕ) : Attempt → Bool
  | .cannotOpen _ | .authFailed _ => false
  | .performed _ response =>
      match response.go with
      | none => false
      | some t =>
          t.res == .ok && t.httpStatusCode == 307 &&
            (t.getHeader (ascii "location")).any fun location => size ≤ location.length

/-- A turn of the loop for a caller with an `errorResult` of this size: `strcpy` writes a longer
`Location` over what is behind the buffer, and the process is lost. -/
def Retry.nextWithin (size : ℕ) (localPath : Bytes) (r : Retry) (attempt : Attempt) :
    Option RetryResult :=
  if attempt.overflows size then none else r.next localPath attempt

/-- What `uploadFileWithRetryAndStore` stores after a successful loop, if anything. -/
def md5ToStore (httpStatusCode : ℕ) (md5 : Bytes) : Option Bytes :=
  if httpStatusCode = 200 then if md5.length = 32 then some md5 else none else none

/-! ## Results -/

/-- A quoted text of 32 characters is extracted. -/
lemma extractMD5FromETagHeaders_quoted {md5 : Bytes} (h : md5.length = 32) :
    extractMD5FromETagHeaders (some (ascii "\"" ++ md5 ++ ascii "\"")) = md5 := by
  have hquote : ascii "\"" = [0x22] := rfl
  have hlast : ((0x22 : UInt8) :: (md5 ++ [0x22])).getLast? = some 0x22 := by
    rw [← List.cons_append, List.getLast?_append]
    rfl
  simp [extractMD5FromETagHeaders, hquote, h, hlast]

/-- An attempt whose result is success was performed, and left its own status and md5. -/
lemma uploadFile_ok {localPath : Bytes} {b b' : Results} {attempt : Attempt}
    (h : uploadFile localPath b attempt = some (.ok, b')) :
    ∃ system response t, attempt = .performed system response ∧ response.go = some t ∧
      t.res = .ok ∧ b'.httpStatusCode = t.httpStatusCode ∧
      (t.httpStatusCode = 200 →
        b'.md5 = extractMD5FromETagHeaders (t.getHeader (ascii "etag"))) := by
  rcases attempt with _ | _ | ⟨system, response⟩
  · simp [uploadFile, UPLOAD_FILE_FUNCTION_FAILED] at h
  · simp [uploadFile, UPLOAD_FILE_FUNCTION_FAILED] at h
  · rw [uploadFile] at h
    rcases hgo : response.go with _ | t
    · simp [hgo] at h
    · simp only [hgo] at h
      refine ⟨system, response, t, rfl, hgo, ?_⟩
      split_ifs at h with hok h307 h200
      · split at h
        · cases h
        · cases h
          exact ⟨hok, h307.symm, fun h => absurd (h.symm.trans h307) (by decide)⟩
      · cases h
        exact ⟨hok, h200.symm, fun _ => rfl⟩
      · cases h
        exact ⟨hok, rfl, fun h => absurd h h200⟩
      · simp only [Option.some.injEq, Prod.mk.injEq] at h
        exact absurd h.1 hok

/-- **The loop succeeds only through a completed response**: the status it reports is that
response's, and the md5 is the one its `ETag` carries. -/
theorem Retry.next_success {localPath : Bytes} {r : Retry} {attempt : Attempt}
    {httpStatusCode : ℕ} {md5 : Bytes}
    (h : r.next localPath attempt = some (.success httpStatusCode md5)) :
    ∃ system response t, attempt = .performed system response ∧ response.go = some t ∧
      t.res = .ok ∧ t.httpStatusCode = httpStatusCode ∧
      (httpStatusCode = 200 →
        md5 = extractMD5FromETagHeaders (t.getHeader (ascii "etag"))) := by
  unfold Retry.next at h
  split at h
  · cases h
  next res b hb =>
    split_ifs at h with h307 hok
    · cases h
    · simp only [Option.some.injEq, RetryResult.success.injEq] at h
      obtain ⟨rfl, rfl⟩ := h
      obtain ⟨system, response, t, ha, hgo, hres, hstatus, hmd5⟩ := uploadFile_ok (hok ▸ hb)
      exact ⟨system, response, t, ha, hgo, hres, hstatus.symm,
        fun h200 => hmd5 (hstatus.symm.trans h200)⟩
    · cases h
    · cases h
    · cases h

/-- A turn that survives its buffer is a turn of the loop. -/
lemma Retry.next_of_nextWithin {size : ℕ} {localPath : Bytes} {r : Retry} {attempt : Attempt}
    {result : RetryResult} (h : r.nextWithin size localPath attempt = some result) :
    r.next localPath attempt = some result := by
  unfold Retry.nextWithin at h
  split_ifs at h
  exact h

/-- A turn that fits is a turn of the loop. -/
lemma Retry.nextWithin_of_fits {size : ℕ} {attempt : Attempt}
    (h : attempt.overflows size = false) (localPath : Bytes) (r : Retry) :
    r.nextWithin size localPath attempt = r.next localPath attempt := by
  rw [Retry.nextWithin, h]
  rfl

/-- A turn that comes to an end fits. -/
lemma Retry.fits_of_nextWithin {size : ℕ} {localPath : Bytes} {r : Retry} {attempt : Attempt}
    (h : r.nextWithin size localPath attempt ≠ none) : attempt.overflows size = false := by
  unfold Retry.nextWithin at h
  split_ifs at h with hover
  · exact absurd rfl h
  · simpa using hover

/-- A response with another status fits. -/
lemma Attempt.fits_of_ne {size : ℕ} {system : System} {response : Response} {t : Transfer}
    (hgo : response.go = some t) (hstatus : t.httpStatusCode ≠ 307) :
    (Attempt.performed system response).overflows size = false := by
  simp [Attempt.overflows, hgo, hstatus]

/-- A response with another status leaves the buffer alone. -/
lemma Retry.nextWithin_of_ne {size : ℕ} {localPath : Bytes} {r : Retry} {system : System}
    {response : Response} {t : Transfer} (hgo : response.go = some t)
    (hstatus : t.httpStatusCode ≠ 307) :
    r.nextWithin size localPath (.performed system response) =
      r.next localPath (.performed system response) :=
  Retry.nextWithin_of_fits (Attempt.fits_of_ne hgo hstatus) localPath r

/-- What is stored is an md5 of 32 characters after a status 200. -/
lemma md5ToStore_eq_some {httpStatusCode : ℕ} {md5 m : Bytes} :
    md5ToStore httpStatusCode md5 = some m ↔ httpStatusCode = 200 ∧ md5.length = 32 ∧ md5 = m := by
  unfold md5ToStore
  split_ifs <;> simp_all

end Uploader

end Clarc
