import Clarc.Core.Bytes

/-!
# One HTTP request: `microCurl.cc`, `amazonCredentials.cc` and `settings.h`

`MicroCurl` collects a method, a URL, headers and a body, hands them to libcurl and keeps what
came back.  libcurl is outside the repository: a `Response` is what it delivers — its result code,
the status of the last response, the header text its callback accumulated, the body — and
`Response.go` is what the code makes of it.  Two of its habits matter to every caller:

* `parseHeaders` takes every line to have a colon.  On a line without one `strsep` leaves a null
  pointer, which the code advances and stores: the process is lost, and the model returns `none`;
* a header text that *begins* with `HTTP/1.1 200 OK` overrides the status libcurl reports, whatever
  response follows it.

The model does not track buffer capacities, and a request is shown with the headers its builder
added, without the `Date` and `Authorization` headers that `prepare` appends.
-/

namespace Clarc

open Bytes

/-! ## Settings -/

/-- How many tries a failed transfer gets. -/
def RETRY_FAIL_AFTER : ℕ := 3

/-- libcurl's result codes, as far as the code distinguishes them. -/
inductive CurlCode
  | ok
  | couldntResolveProxy
  | couldntResolveHost
  | couldntConnect
  | httpReturnedError
  | writeError
  | uploadFailed
  | operationTimedout
  | sslConnectError
  | peerFailedVerification
  | sendError
  | chunkFailed
  | obsolete44
  | other (code : ℕ)
  deriving DecidableEq, Repr

/-- The code for failures of the upload functions themselves. -/
def UPLOAD_FILE_FUNCTION_FAILED : CurlCode := .obsolete44

/-- `HTTP_SHOULD_RETRY_ON`. -/
def httpShouldRetryOn : CurlCode → Bool
  | .couldntResolveProxy | .couldntResolveHost | .couldntConnect | .httpReturnedError
  | .writeError | .uploadFailed | .operationTimedout | .sslConnectError
  | .peerFailedVerification | .sendError | .chunkFailed => true
  | .ok | .obsolete44 | .other _ => false

/-! ## What libcurl delivers -/

/-- An XML node as libxml delivers it. -/
inductive Xml
  | element (name : Bytes) (children : List Xml)
  | text (content : Bytes)

/-- What `xmlParseMemory` and `xmlDocGetRootElement` make of a response body. -/
inductive Document
  | unparsable
  | rootless
  | rooted (root : Xml)

/-- The outcome of `curl_easy_perform`: `responseCode` is `CURLINFO_RESPONSE_CODE`, `headers` the
text the header callback accumulated and `curlErrors` the error buffer. -/
structure Response where
  code : CurlCode
  responseCode : ℕ
  headers : Bytes
  body : Document := .unparsable
  curlErrors : Bytes := []

/-- What a `MicroCurl` holds after `go`. -/
structure Transfer where
  res : CurlCode
  httpStatusCode : ℕ
  resultingHeaders : List (Bytes × Bytes)
  body : Document
  curlErrors : Bytes

/-- A C string ends at its first NUL. -/
def cString (s : Bytes) : Bytes := s.takeWhile (· ≠ 0)

lemma cString_eq_self {text : Bytes} (h : 0 ∉ text) : cString text = text := by
  rw [cString, List.takeWhile_eq_self_iff]
  exact all_ne h

/-- What comes behind the first NUL is not part of the string. -/
lemma cString_append_zero {text : Bytes} (h : 0 ∉ text) (rest : Bytes) :
    cString (text ++ 0 :: rest) = text := takeWhile_ne h rest

/-- A terminator behind the string is not part of it. -/
lemma cString_append_nul (s : Bytes) : cString (s ++ [0]) = cString s := by
  induction s with
  | nil => rfl
  | cons c s ih =>
      rw [cString, cString] at ih
      rw [cString, cString, List.cons_append, List.takeWhile_cons, List.takeWhile_cons, ih]

/-- The pieces `strsep(&headers, "\n")` returns one after another. -/
def headerLines (headers : Bytes) : List Bytes := (cString headers).splitOn 10

/-- `tolower`. -/
def tolower (c : UInt8) : UInt8 := if 65 ≤ c ∧ c ≤ 90 then c + 32 else c

/-- `strsep(&token, ":")`: what precedes the first colon and what follows it, when there is one. -/
def splitColon (token : Bytes) : Option (Bytes × Bytes) :=
  if 58 ∈ token then
    some (token.takeWhile (· ≠ 58), (token.dropWhile (· ≠ 58)).drop 1)
  else none

/-- `MicroCurl::parseHeaders`, line by line; `none` when a line without a colon is met. -/
def parseHeaderLines : List Bytes → Option (List (Bytes × Bytes))
  | [] => some []
  | token :: rest =>
      if token.length < 2 then parseHeaderLines rest
      else if ascii "HTTP/1" <+: token then parseHeaderLines rest
      else
        -- the last character of the line goes, as if it were always a carriage return
        match splitColon token.dropLast with
        | none => none
        | some (header, value) =>
            (parseHeaderLines rest).map ((header.map tolower, value.drop 1) :: ·)

/-- `MicroCurl::parseHeaders`. -/
def parseHeaders (headers : Bytes) : Option (List (Bytes × Bytes)) :=
  parseHeaderLines (headerLines headers)

/-- The first line of the header text: what `strstr` sees of the buffer once `parseHeaders` has
cut it. -/
def firstLine (headers : Bytes) : Bytes := (headerLines headers).headD []

/-- The header text begins with `HTTP/1.1 200 OK`. -/
def startsWith200 (headers : Bytes) : Bool :=
  1 < (firstLine headers).length && decide (ascii "HTTP/1.1 200 OK" <+: firstLine headers)

/-- `MicroCurl::go`, from the response libcurl delivered. -/
def Response.go (r : Response) : Option Transfer :=
  match parseHeaders r.headers with
  | none => none
  | some headers =>
      some {
        res := r.code
        httpStatusCode := if startsWith200 r.headers then 200 else r.responseCode
        resultingHeaders := headers
        body := r.body
        curlErrors := r.curlErrors }

/-- `MicroCurl::getHeader`: the value of the first header of that name. -/
def Transfer.getHeader (t : Transfer) (name : Bytes) : Option Bytes :=
  (t.resultingHeaders.find? fun h => h.1 == name).map Prod.snd

/-- The response completed, and its last block has status 200. -/
def Response.Completed200 (r : Response) : Prop := r.code = .ok ∧ r.responseCode = 200

instance (r : Response) : Decidable r.Completed200 := inferInstanceAs (Decidable (_ ∧ _))

/-- The header text does not begin with a `200 OK` that a later block contradicts. -/
def Response.StatusAgrees (r : Response) : Prop :=
  startsWith200 r.headers = true → r.responseCode = 200

instance (r : Response) : Decidable r.StatusAgrees := inferInstanceAs (Decidable (_ → _))

variable {r : Response} {t : Transfer}

lemma go_res (h : r.go = some t) : t.res = r.code := by
  unfold Response.go at h
  split at h <;> simp_all
  rw [← h]

lemma go_body (h : r.go = some t) : t.body = r.body := by
  unfold Response.go at h
  split at h <;> simp_all
  rw [← h]

lemma go_status (h : r.go = some t) :
    t.httpStatusCode = if startsWith200 r.headers then 200 else r.responseCode := by
  unfold Response.go at h
  split at h <;> simp_all
  rw [← h]

/-- Where the status is not overridden, what the code takes for a completed 200 is one. -/
lemma completed200_of_go (h : r.go = some t) (hagree : r.StatusAgrees) (hres : t.res = .ok)
    (hstatus : t.httpStatusCode = 200) : r.Completed200 := by
  refine ⟨(go_res h).symm.trans hres, ?_⟩
  rw [go_status h] at hstatus
  split_ifs at hstatus with h200
  · exact hagree h200
  · exact hstatus

/-- The code reads the status as it is: of a last block with status 200 it can take the headers
apart, and it takes no other status for 200. -/
structure Response.StatusRead (r : Response) : Prop where
  parsed : r.responseCode = 200 → (parseHeaders r.headers).isSome = true
  agrees : (parseHeaders r.headers).isSome = true → r.StatusAgrees

/-- The code sees the status 200 in exactly the responses with that status. -/
lemma statusRead_iff : r.StatusRead ↔
    ((∃ t, r.go = some t ∧ t.httpStatusCode = 200) ↔ r.responseCode = 200) := by
  have hgo : r.go.isSome = (parseHeaders r.headers).isSome := by
    unfold Response.go
    split <;> simp_all
  constructor
  · rintro ⟨hparsed, hagrees⟩
    constructor
    · rintro ⟨t, h, hstatus⟩
      rw [go_status h] at hstatus
      split_ifs at hstatus with h200
      · exact hagrees (by rw [← hgo, h]; rfl) h200
      · exact hstatus
    · intro hcode
      obtain ⟨t, h⟩ := Option.isSome_iff_exists.mp (hgo.trans (hparsed hcode))
      exact ⟨t, h, by rw [go_status h, hcode, ite_self]⟩
  · intro hread
    constructor
    · intro hcode
      obtain ⟨t, h, -⟩ := hread.mpr hcode
      rw [← hgo, h]
      rfl
    · intro hparsed h200
      obtain ⟨t, h⟩ := Option.isSome_iff_exists.mp (hgo.trans hparsed)
      exact hread.mp ⟨t, h, by rw [go_status h, if_pos h200]⟩

/-! ## Requests -/

/-- The request methods in use. -/
inductive Method
  | get | post | put | head
  deriving DecidableEq, Repr

/-- The body of a request: none, a string, or the first `size` bytes of an opened file. -/
inductive RequestBody
  | none
  | data (postData : Bytes)
  | file (localPath : Bytes) (size : ℕ)
  deriving DecidableEq, Repr

/-- A request as its builder leaves it to `prepare`. -/
structure Request where
  method : Method
  url : Bytes
  canonicalizedResource : Bytes
  headers : List (Bytes × Bytes) := []
  body : RequestBody := .none
  deriving DecidableEq, Repr

/-! ## Where requests go -/

/-- `AmazonCredentials`, without the keys: a request is signed or refused as a whole. -/
structure AmazonCredentials where
  bucket : Bytes
  endPoint : Bytes
  deriving DecidableEq, Repr

/-- The scheme of a URL. -/
def scheme (useSsl : Bool) : Bytes := if useSsl then ascii "https" else ascii "http"

/-- `AmazonCredentials::generateUrl`. -/
def AmazonCredentials.generateUrl (c : AmazonCredentials) (remotePath : Bytes) (useSsl : Bool) :
    Bytes :=
  let remotePathToUse := if remotePath.head? = some 47 then remotePath.drop 1 else remotePath
  scheme useSsl ++ ascii "://" ++ c.bucket ++ ascii "." ++ c.endPoint ++ ascii "/" ++
    remotePathToUse

/-- `AmazonCredentials::generateUrlForBucketCreate`. -/
def AmazonCredentials.generateUrlForBucketCreate (c : AmazonCredentials) (useSsl : Bool) : Bytes :=
  scheme useSsl ++ ascii "://" ++ c.bucket ++ ascii ".s3.amazonaws.com/"

/-- `AmazonCredentials::generateUrlForObjectDelete`. -/
def AmazonCredentials.generateUrlForObjectDelete (c : AmazonCredentials) (useSsl : Bool) : Bytes :=
  scheme useSsl ++ ascii "://" ++ c.bucket ++ ascii ".s3.amazonaws.com/?delete"

/-- The resource that is signed: the bucket and what follows it. -/
def AmazonCredentials.resource (c : AmazonCredentials) (rest : Bytes) : Bytes :=
  ascii "/" ++ c.bucket ++ ascii "/" ++ rest

end Clarc
