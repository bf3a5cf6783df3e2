import Clarc.Hash.Base64
import Clarc.Hash.Hmac
import Clarc.Upload.StringToSign

/-!
# Signed requests: `signString`, `prepare` and the one who checks them

`prepare` cannot fail: `hmac_sha1` always returns 0, and the 28 characters of a signature fit into
every buffer on their way.  The server has the key too.  It reads the headers off the wire, takes
the resource from the URL, puts the same lines together — its `x-amz` headers in the order of their
names — and compares the hash with the one that it decodes from the authorization.

* `signString_eq` — **the signature is the base64 of the keyed hash**;
* `prepare_eq` — what `prepare` hands over;
* `resourceFor_url` — the resource that is signed is the one that the URL names;
* `accepts_prepared` — **a request whose headers can be carried and whose URL names its resource is
  accepted** by a server that has the key.
-/

namespace Clarc

open Bytes HeaderText BlockHash

/-! ## The date -/

/-- What `gmtime` fills in of a `struct tm`. -/
structure Tm where
  tm_sec : Fin 61
  tm_min : Fin 60
  tm_hour : Fin 24
  tm_mday : Fin 32
  tm_mon : Fin 12
  tm_year : ℕ
  tm_wday : Fin 7

/-- Two digits. -/
def twoDigits (n : ℕ) : Bytes := [UInt8.ofNat (48 + n / 10 % 10), UInt8.ofNat (48 + n % 10)]

/-- `%a`. -/
def weekdays : List Bytes :=
  [ascii "Sun", ascii "Mon", ascii "Tue", ascii "Wed", ascii "Thu", ascii "Fri", ascii "Sat"]

/-- `%b`. -/
def months : List Bytes :=
  [ascii "Jan", ascii "Feb", ascii "Mar", ascii "Apr", ascii "May", ascii "Jun", ascii "Jul",
    ascii "Aug", ascii "Sep", ascii "Oct", ascii "Nov", ascii "Dec"]

/-- `getIsoDate`, in the locale `C`. -/
def getIsoDate (timeinfo : Tm) : Bytes :=
  weekdays.getD timeinfo.tm_wday [] ++ ascii ", " ++ twoDigits timeinfo.tm_mday ++ ascii " " ++
    months.getD timeinfo.tm_mon [] ++ ascii " " ++ decimal (1900 + timeinfo.tm_year) ++
    ascii " " ++ twoDigits timeinfo.tm_hour ++ ascii ":" ++ twoDigits timeinfo.tm_min ++
    ascii ":" ++ twoDigits timeinfo.tm_sec ++ ascii " GMT"

private lemma digit_ne : ∀ d < 10, UInt8.ofNat (48 + d) ≠ 10 := by decide

lemma ten_not_mem_twoDigits (n : ℕ) : (10 : UInt8) ∉ twoDigits n := by
  have htens := digit_ne (n / 10 % 10) (Nat.mod_lt _ (by decide))
  have hones := digit_ne (n % 10) (Nat.mod_lt _ (by decide))
  simp only [twoDigits, List.mem_cons, List.not_mem_nil, or_false, not_or]
  exact ⟨htens.symm, hones.symm⟩

/-- The date is plain. -/
lemma plain_getIsoDate (timeinfo : Tm) : Plain (getIsoDate timeinfo) := by
  have hweekday : ∀ d : Fin 7, (10 : UInt8) ∉ weekdays.getD d [] ∧ weekdays.getD d [] ≠ [] ∧
      ∀ c ∈ (weekdays.getD d []).head?, isBlank c = false := by decide +kernel
  have hmonth : ∀ m : Fin 12, (10 : UInt8) ∉ months.getD m [] := by decide
  have hyear : (10 : UInt8) ∉ decimal (1900 + timeinfo.tm_year) :=
    fun h => (inBase_digits (by decide) (by decide) 10 h).2 rfl
  have hfixed : ∀ s ∈ [ascii ", ", ascii " ", ascii ":", ascii " GMT"], (10 : UInt8) ∉ s := by
    decide
  simp only [List.forall_mem_cons, List.not_mem_nil, false_imp_iff, implies_true, and_true] at hfixed
  obtain ⟨hcomma, hspace, hcolon, hgmt⟩ := hfixed
  obtain ⟨hday, hne, hfirst⟩ := hweekday timeinfo.tm_wday
  refine ⟨?_, ?_, ?_⟩
  · simp only [getIsoDate, List.mem_append, not_or]
    exact ⟨⟨⟨⟨⟨⟨⟨⟨⟨⟨⟨⟨⟨hday, hcomma⟩, ten_not_mem_twoDigits _⟩, hspace⟩, hmonth _⟩, hspace⟩, hyear⟩,
      hspace⟩, ten_not_mem_twoDigits _⟩, hcolon⟩, ten_not_mem_twoDigits _⟩, hcolon⟩,
      ten_not_mem_twoDigits _⟩, hgmt⟩
  · intro c hc
    simp only [getIsoDate, List.append_assoc] at hc
    rw [List.head?_append_of_ne_nil _ hne] at hc
    exact hfirst c hc
  · intro c hc
    have hlast : ∀ c ∈ (ascii " GMT").getLast?, isBlank c = false := by decide +kernel
    rw [getIsoDate, List.getLast?_append_of_ne_nil _ (by decide)] at hc
    exact hlast c hc

/-! ## The signature -/

/-- `AmazonCredentials::signString`, for the two strings without their terminators.  `hmac_sha1`
always returns 0. -/
def signString (memory : Memory) (secretAccessKey stringToSign : Bytes) : Option Bytes :=
  let resultBinary := hmacSha1 memory secretAccessKey stringToSign
  some (cString (base64Encode (resultBinary.take 20) 64))

/-- The characters of base64 stand in a header as they are. -/
lemma plain_base64 (input : Bytes) : Plain (base64 input) := by
  have hletters : ∀ c ∈ b64str, c ≠ 10 ∧ isBlank c = false := by decide +kernel
  have hmem : ∀ c ∈ base64 input, c ≠ 10 ∧ isBlank c = false := by
    intro c hc
    rcases mem_base64 hc with hletter | rfl
    · exact hletters c hletter
    · decide
  refine ⟨fun h => (hmem 10 h).1 rfl, ?_, ?_⟩
  · exact fun c hc => (hmem c (List.mem_of_mem_head? hc)).2
  · exact fun c hc => (hmem c (List.mem_of_mem_getLast? hc)).2

lemma length_hmac (key msg : Bytes) : (sha1Hash.hmac key msg).length = 20 := length_sha1 _

/-- **The signature is the base64 of the keyed hash.** -/
theorem signString_eq (memory : Memory) (secretAccessKey stringToSign : Bytes) :
    signString memory secretAccessKey stringToSign =
      some (base64 (sha1Hash.hmac secretAccessKey stringToSign)) := by
  have hlength := length_hmac secretAccessKey stringToSign
  rw [signString, hmacSha1_eq, List.take_of_length_le hlength.le,
    cString_base64Encode (by rw [hlength]; decide)]

/-- A signature is 28 characters long. -/
lemma signature_ne_nil (key msg : Bytes) : base64 (sha1Hash.hmac key msg) ≠ [] := by
  have hlength := length_base64 (sha1Hash.hmac key msg)
  rw [length_hmac] at hlength
  exact List.ne_nil_of_length_pos (by rw [hlength]; decide)

/-- The value of the header `Authorization`. -/
def authorization (accessKeyId secretAccessKey stringToSign : Bytes) : Bytes :=
  ascii "AWS " ++ accessKeyId ++ ascii ":" ++ base64 (sha1Hash.hmac secretAccessKey stringToSign)

/-- **`prepare` never fails**, and this is what it hands over. -/
theorem prepare_eq (r : Request) (date accessKeyId secretAccessKey : Bytes) (memory : Memory) :
    r.prepare date accessKeyId (signString memory secretAccessKey) =
      some (r.signedHeaders date ++ [(ascii "Authorization",
        authorization accessKeyId secretAccessKey (r.getStringToSign date))]) := by
  rw [Request.prepare, sign, signString_eq]
  rfl

/-! ## The server -/

/-- The resource that a URL names for the server of a bucket: what stands before the host name and
the query is cut off, save for the two subresources. -/
def resourceFor (bucket url : Bytes) : Option Bytes :=
  let rest := (url.dropWhile (· ≠ 58)).drop 3
  let host := rest.takeWhile (· ≠ 47)
  let target := rest.dropWhile (· ≠ 47)
  let query := (target.dropWhile (· ≠ 63)).drop 1
  if bucket ++ ascii "." <+: host then
    some (ascii "/" ++ bucket ++ target.takeWhile (· ≠ 63) ++
      if query = ascii "location" ∨ query = ascii "delete" then ascii "?" ++ query else [])
  else none

/-- A server of a bucket, with the keys that it knows. -/
structure Server where
  bucket : Bytes
  secretOf : Bytes → Option Bytes

/-- The lines that the server puts together, from the headers that it has read. -/
def receivedStringToSign (method : Method) (resource : Bytes) (headers : List (Bytes × Bytes)) :
    Bytes :=
  method.getMethodName ++ ascii "\n" ++
    keptHeader (ascii "content-md5") headers ++ ascii "\n" ++
    keptHeader (ascii "content-type") headers ++ ascii "\n" ++
    keptHeader (ascii "date") headers ++ ascii "\n" ++
    ((byName headers).map amzLine).flatten ++ resource

/-- The server accepts the request line and the text of the headers. -/
def Server.accepts (server : Server) (method : Method) (url text : Bytes) : Bool :=
  match receive text, resourceFor server.bucket url with
  | some headers, some resource =>
      match headers.lookup (ascii "Authorization") with
      | some authorization =>
          let credentials := authorization.drop 4
          let accessKeyId := credentials.takeWhile (· ≠ 58)
          let signature := (credentials.dropWhile (· ≠ 58)).drop 1
          match server.secretOf accessKeyId with
          | some secretAccessKey =>
              authorization.take 4 == ascii "AWS " && base64Decode signature 20 ==
                (true, sha1Hash.hmac secretAccessKey
                  (receivedStringToSign method resource headers))
          | none => false
      | none => false
  | _, _ => false

/-- **The resource that is signed is the one that the URL names**: a path on the host of the bucket,
with a query or without one. -/
theorem resourceFor_url {bucket endPoint path query : Bytes} (useSsl : Bool)
    (hbucket : 47 ∉ bucket) (hendPoint : 47 ∉ endPoint) (hpath : 63 ∉ path)
    (hquery : query = [] ∨ query.head? = some 63) :
    resourceFor bucket (scheme useSsl ++ ascii "://" ++ bucket ++ ascii "." ++ endPoint ++
        ascii "/" ++ path ++ query) =
      some (ascii "/" ++ bucket ++ ascii "/" ++ path ++
        if query.drop 1 = ascii "location" ∨ query.drop 1 = ascii "delete" then
          ascii "?" ++ query.drop 1 else []) := by
  have hscheme : 58 ∉ scheme useSsl := by cases useSsl <;> decide
  have hurl : scheme useSsl ++ ascii "://" ++ bucket ++ ascii "." ++ endPoint ++ ascii "/" ++ path ++
      query = scheme useSsl ++ 58 :: 47 :: 47 :: ((bucket ++ ascii "." ++ endPoint) ++
        47 :: (path ++ query)) := by
    have hcolon : ascii "://" = [58, 47, 47] := rfl
    have hslash : ascii "/" = [47] := rfl
    simp [hcolon, hslash]
  have hdot : 47 ∉ ascii "." := by decide
  have hhost : 47 ∉ bucket ++ ascii "." ++ endPoint := by
    simp only [List.mem_append, not_or]
    exact ⟨⟨hbucket, hdot⟩, hendPoint⟩
  have hpath' : 63 ∉ 47 :: path := by simpa using hpath
  have hcut : (47 :: (path ++ query)).takeWhile (· ≠ (63 : UInt8)) = 47 :: path ∧
      (47 :: (path ++ query)).dropWhile (· ≠ (63 : UInt8)) = query := by
    rcases query with _ | ⟨c, query⟩
    · rw [List.append_nil]
      exact ⟨List.takeWhile_eq_self_iff.mpr (all_ne hpath'),
        List.dropWhile_eq_nil_iff.mpr (all_ne hpath')⟩
    · obtain rfl : c = 63 := by simpa using hquery
      exact ⟨takeWhile_ne hpath' query, dropWhile_ne hpath' query⟩
  rw [hurl, resourceFor, dropWhile_ne hscheme, List.drop_succ_cons, List.drop_succ_cons,
    List.drop_succ_cons, List.drop_zero, takeWhile_ne hhost, dropWhile_ne hhost,
    if_pos ⟨endPoint, rfl⟩, hcut.1, hcut.2, List.append_assoc _ _ path]
  rfl

/-! ## What is accepted -/

/-- The names of the headers of a request, as far as the signature depends on them. -/
structure Named (headers : List (Bytes × Bytes)) : Prop where
  names : ∀ h ∈ headers, Name h.1
  apart : NamesApart headers
  unsigned : ∀ h ∈ headers, h.1 ≠ ascii "Authorization"

/-- The authorization is none of the headers that are signed. -/
lemma keptHeader_authorization {name : Bytes} (hname : name ≠ ascii "authorization")
    (headers : List (Bytes × Bytes)) (value : Bytes) :
    keptHeader name (headers ++ [(ascii "Authorization", value)]) = keptHeader name headers := by
  have hlower : (ascii "Authorization").map tolower = ascii "authorization" := by decide
  rw [keptHeader, List.reverse_append, List.reverse_singleton, List.singleton_append,
    List.find?_cons_of_neg, keptHeader]
  rw [hlower, beq_iff_eq]
  exact hname.symm

lemma isAmz_authorization (value : Bytes) : isAmz (ascii "Authorization", value) = false := by
  have hname : ¬ ascii "x-amz" <+: ascii "Authorization" := by decide
  exact decide_eq_false hname

lemma isAmz_date (value : Bytes) : isAmz (ascii "Date", value) = false := by
  have hname : ¬ ascii "x-amz" <+: ascii "Date" := by decide
  exact decide_eq_false hname

/-- The server puts together what was signed. -/
lemma stringToSign_received {r : Request} (h : NamesApart r.headers) (date value : Bytes) :
    receivedStringToSign r.method r.canonicalizedResource
      (r.signedHeaders date ++ [(ascii "Authorization", value)]) = r.getStringToSign date := by
  have hnames : ∀ name ∈ [ascii "content-md5", ascii "content-type", ascii "date"],
      name ≠ ascii "authorization" := by decide
  simp only [List.forall_mem_cons, List.not_mem_nil, false_imp_iff, implies_true, and_true]
    at hnames
  obtain ⟨hmd5, htype, hdate⟩ := hnames
  have hsigned : (r.signedHeaders date).filter isAmz = r.headers.filter isAmz := by
    rw [Request.signedHeaders, List.filter_append, List.filter_singleton, isAmz_date]
    exact List.append_nil _
  have hapart : NamesApart (r.signedHeaders date) := by
    rw [NamesApart, hsigned]
    exact h
  have hbyName : byName (r.signedHeaders date ++ [(ascii "Authorization", value)]) =
      byName (r.signedHeaders date) := by
    rw [byName, List.filter_append, List.filter_singleton, isAmz_authorization, byName]
    exact congrArg (List.mergeSort · _) (List.append_nil _)
  have hself : (r.signedHeaders date).map (fun h => (h.1, Prod.snd h)) = r.signedHeaders date :=
    List.map_id _
  have hlines := serialize_values hapart Prod.snd
  rw [hself] at hlines
  rw [receivedStringToSign, keptHeader_authorization hmd5, keptHeader_authorization htype,
    keptHeader_authorization hdate, hbyName, getStringToSign_eq, stringToSign, hlines]

/-- The server finds the authorization. -/
lemma lookup_authorization {headers : List (Bytes × Bytes)}
    (h : ∀ h ∈ headers, h.1 ≠ ascii "Authorization") (value : Bytes) :
    (headers ++ [(ascii "Authorization", value)]).lookup (ascii "Authorization") = some value := by
  have hnone : headers.lookup (ascii "Authorization") = none := by
    rw [List.lookup_eq_none_iff]
    exact fun p hp => bne_iff_ne.mpr (h p hp).symm
  rw [List.lookup_append, hnone, Option.none_or, List.lookup_cons_self]

/-- **A request whose headers can be carried and whose URL names its resource is accepted** by a
server that has the key. -/
theorem accepts_prepared {r : Request} (hnamed : Named r.headers)
    (hplain : ∀ h ∈ r.headers, Plain h.2) {server : Server}
    (hurl : resourceFor server.bucket r.url = some r.canonicalizedResource)
    {accessKeyId secretAccessKey : Bytes} (hid : 58 ∉ accessKeyId) (hline : 10 ∉ accessKeyId)
    (hsecret : server.secretOf accessKeyId = some secretAccessKey) (timeinfo : Tm)
    (memory : Memory) :
    ∃ headers, r.prepare (getIsoDate timeinfo) accessKeyId (signString memory secretAccessKey) =
        some headers ∧ server.accepts r.method r.url (write headers) = true := by
  refine ⟨_, prepare_eq r _ accessKeyId secretAccessKey memory, ?_⟩
  have hdate : Name (ascii "Date") ∧ ascii "Date" ≠ ascii "Authorization" := by decide
  have hauthorization : Name (ascii "Authorization") := by decide
  have hvalue : Plain (authorization accessKeyId secretAccessKey
      (r.getStringToSign (getIsoDate timeinfo))) :=
    (plain_authorization (signature_ne_nil _ _) (plain_base64 _)).mpr hline
  have hcredentials : ∀ signature, (ascii "AWS " ++ accessKeyId ++ ascii ":" ++ signature).take 4 =
      ascii "AWS " ∧ (ascii "AWS " ++ accessKeyId ++ ascii ":" ++ signature).drop 4 =
        accessKeyId ++ 58 :: signature := by
    intro signature
    rw [List.append_assoc, List.append_assoc]
    exact ⟨rfl, rfl⟩
  obtain ⟨hscheme, hkey⟩ := hcredentials
    (base64 (sha1Hash.hmac secretAccessKey (r.getStringToSign (getIsoDate timeinfo))))
  rw [← authorization] at hscheme hkey
  generalize authorization accessKeyId secretAccessKey (r.getStringToSign (getIsoDate timeinfo)) =
    value at hvalue hscheme hkey ⊢
  have hreceived : receive (write (r.signedHeaders (getIsoDate timeinfo) ++
      [(ascii "Authorization", value)])) = some (r.signedHeaders (getIsoDate timeinfo) ++
        [(ascii "Authorization", value)]) := by
    refine (receive_write_iff ?_).mpr ?_ <;>
      simp only [Request.signedHeaders, List.forall_mem_append, List.forall_mem_singleton]
    · exact ⟨⟨hnamed.names, hdate.1⟩, hauthorization⟩
    · exact ⟨⟨hplain, plain_getIsoDate timeinfo⟩, hvalue⟩
  have hunsigned : ∀ h ∈ r.signedHeaders (getIsoDate timeinfo), h.1 ≠ ascii "Authorization" := by
    simp only [Request.signedHeaders, List.forall_mem_append, List.forall_mem_singleton]
    exact ⟨hnamed.unsigned, hdate.2⟩
  have hlookup := lookup_authorization hunsigned value
  rw [Server.accepts, hreceived, hurl]
  dsimp only
  rw [hlookup]
  dsimp only
  rw [hkey, takeWhile_ne hid, dropWhile_ne hid, hsecret]
  dsimp only
  rw [hscheme, stringToSign_received hnamed.apart, List.drop_succ_cons, List.drop_zero,
    base64Decode_base64, List.take_of_length_le (length_hmac _ _).le]
  simp

end Clarc
