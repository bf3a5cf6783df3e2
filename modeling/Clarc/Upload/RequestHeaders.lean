import Clarc.Core.HeaderText
import Clarc.Upload.UploadFile

/-!
# The headers of an upload on the wire and under the signature

`prepare` adds the date, signs the request and adds the authorization; `go` hands libcurl a line
`name: value` for each header.  The headers that begin with `x-amz` are serialised a second time for
the string to sign.  Nothing is escaped in either form.

A regular file's headers are made of numbers, fixed words and account names.  A symbolic link adds
its target and its local path, two byte strings of the file system.  **The receiver reads the
headers that were added exactly when these are plain** — on one line, without a blank at either end
(`headers_received_iff`); `link_adds_header` is a link whose target puts a header of its own into
the request.

The signature is HMAC and base64 over the string to sign, a parameter here.
-/

namespace Clarc

open Bytes HeaderText

/-! ## Signing -/

/-- `MicroCurl::getMethodName`. -/
def Method.getMethodName : Method → Bytes
  | .post => ascii "POST"
  | .head => ascii "HEAD"
  | .put => ascii "PUT"
  | .get => ascii "GET"

/-- What `addHeader` keeps of the last header of a name, whatever its case. -/
def keptHeader (name : Bytes) (headers : List (Bytes × Bytes)) : Bytes :=
  ((headers.reverse.find? fun h => h.1.map tolower == name).map Prod.snd).getD []

/-- `MicroCurl::serializeAmzHeadersIntoStringToSign`. -/
def serializeAmzHeadersIntoStringToSign (headers : List (Bytes × Bytes)) : Bytes :=
  let headersList := (headers.filter fun h => ascii "x-amz" <+: h.1).map fun h =>
    h.1 ++ ascii ":" ++ h.2 ++ ascii "\n"
  (headersList.mergeSort fun a b => decide (a ≤ b)).flatten

/-- The headers when `prepare` signs them. -/
def Request.signedHeaders (r : Request) (date : Bytes) : List (Bytes × Bytes) :=
  r.headers ++ [(ascii "Date", date)]

/-- `MicroCurl::getStringToSign`. -/
def Request.getStringToSign (r : Request) (date : Bytes) : Bytes :=
  let headers := r.signedHeaders date
  r.method.getMethodName ++ ascii "\n" ++
    keptHeader (ascii "content-md5") headers ++ ascii "\n" ++
    keptHeader (ascii "content-type") headers ++ ascii "\n" ++
    keptHeader (ascii "date") headers ++ ascii "\n" ++
    serializeAmzHeadersIntoStringToSign headers ++ r.canonicalizedResource

/-- `AmazonCredentials::sign`, with `signString` for HMAC and base64. -/
def sign (accessKeyId : Bytes) (signString : Bytes → Option Bytes) (stringToSign : Bytes) :
    Option Bytes :=
  (signString stringToSign).map fun signature =>
    ascii "AWS " ++ accessKeyId ++ ascii ":" ++ signature

/-- `MicroCurl::prepare`: the headers that `go` hands over, `none` when signing fails. -/
def Request.prepare (r : Request) (date accessKeyId : Bytes) (signString : Bytes → Option Bytes) :
    Option (List (Bytes × Bytes)) :=
  (sign accessKeyId signString (r.getStringToSign date)).map fun authorization =>
    r.signedHeaders date ++ [(ascii "Authorization", authorization)]

/-! ## Values that are plain -/

private lemma digit_not_blank : ∀ c : UInt8, 48 ≤ c → c ≤ 57 → isBlank c = false ∧ c ≠ 10 := by
  decide +kernel

private lemma digit_byte : ∀ n < 58, 48 ≤ n →
    48 ≤ UInt8.ofNat n ∧ UInt8.ofNat n ≤ 57 := by decide

/-- The text of a number is made of digits. -/
lemma inBase_digits {base n : ℕ} (hbase : 0 < base) (hten : base ≤ 10) :
    ∀ c ∈ inBase base n, isBlank c = false ∧ c ≠ 10 := by
  intro c hc
  obtain ⟨d, hd, rfl⟩ := List.mem_map.mp hc
  have hdigit := Nat.isDigit_of_mem_toDigits hbase hten hd
  rw [Char.isDigit, Bool.and_eq_true, decide_eq_true_eq, decide_eq_true_eq] at hdigit
  have hlow : 48 ≤ d.toNat := hdigit.1
  have hhigh : d.toNat ≤ 57 := hdigit.2
  have hbyte := digit_byte d.toNat (by omega) hlow
  exact digit_not_blank _ hbyte.1 hbyte.2

lemma inBase_ne_nil (base n : ℕ) : inBase base n ≠ [] := by
  rw [inBase, ne_eq, List.map_eq_nil_iff]
  exact Nat.toDigits_ne_nil

lemma plain_inBase {base n : ℕ} (hbase : 0 < base) (hten : base ≤ 10) : Plain (inBase base n) := by
  have hdigits := inBase_digits (n := n) hbase hten
  refine ⟨fun h => (hdigits 10 h).2 rfl, ?_, ?_⟩
  · exact fun c hc => (hdigits c (List.mem_of_mem_head? hc)).1
  · exact fun c hc => (hdigits c (List.mem_of_mem_getLast? hc)).1

lemma plain_guessContentType (filename : Bytes) : Plain (guessContentType filename) := by
  have hdefault : Plain (ascii "application/octet-stream") := by decide +kernel
  have hall : ∀ t ∈ contentTypes, Plain t.2 := by decide +kernel
  unfold guessContentType
  split_ifs
  · dsimp only
    rcases htype : List.lookup _ contentTypes with _ | contentType
    · exact hdefault
    · obtain ⟨before, behind, hsplit, -⟩ := List.lookup_eq_some_iff.mp htype
      have hmem : ∃ t ∈ contentTypes, t.2 = contentType := by
        rw [hsplit]
        exact ⟨_, List.mem_append_right before List.mem_cons_self, rfl⟩
      obtain ⟨t, ht, rfl⟩ := hmem
      exact hall t ht
  · exact hdefault

/-- An account name as a header can carry it: on one line, and not ending in a blank. -/
structure Account (name : Bytes) : Prop where
  nonempty : name ≠ []
  noLineFeed : 10 ∉ name
  last : ∀ c ∈ name.getLast?, isBlank c = false

lemma plain_id (n : ℕ) (name : Bytes) : Plain (decimal n ++ ascii " " ++ name) ↔ Account name := by
  have hblank : ascii " " = [32] := rfl
  have hdigits : ∀ c ∈ inBase 10 n, isBlank c = false ∧ c ≠ 10 :=
    inBase_digits (by decide) (by decide)
  have hnumber : (10 : UInt8) ∉ decimal n ++ ascii " " := by
    rw [hblank, List.mem_append, List.mem_singleton, not_or]
    exact ⟨fun h => (hdigits 10 h).2 rfl, by decide⟩
  have hfirst : ∀ c ∈ (decimal n ++ ascii " ").head?, isBlank c = false := by
    intro c hc
    rw [decimal, List.head?_append_of_ne_nil _ (inBase_ne_nil 10 n)] at hc
    exact (hdigits c (List.mem_of_mem_head? hc)).1
  have hne : decimal n ++ ascii " " ≠ [] := by simp [hblank]
  by_cases hname : name = []
  · subst hname
    constructor
    · intro h
      rw [List.append_nil] at h
      have hlast := h.last 32 (by simp [hblank])
      exact absurd hlast (by decide)
    · exact fun h => absurd rfl h.nonempty
  · rw [plain_append hne hname hfirst]
    exact ⟨fun h => ⟨hname, h.2.1, h.2.2⟩, fun h => ⟨hnumber, h.noLineFeed, h.last⟩⟩

lemma plain_authorization {accessKeyId signature : Bytes} (hne : signature ≠ [])
    (hplain : Plain signature) :
    Plain (ascii "AWS " ++ accessKeyId ++ ascii ":" ++ signature) ↔ 10 ∉ accessKeyId := by
  have hstart : ascii "AWS " ++ accessKeyId ++ ascii ":" =
      65 :: ([87, 83, 32] ++ accessKeyId ++ [58]) := rfl
  rw [hstart, plain_append (by simp) hne (by intro c hc; cases hc; decide)]
  constructor
  · rintro ⟨hline, -, -⟩ hmem
    exact hline (by simp [hmem])
  · intro hline
    exact ⟨by simp [hline], hplain.noLineFeed, hplain.last⟩

/-! ## The headers of an upload -/

/-- What goes into the headers from outside the program can be carried by them. -/
structure Carried (accessKeyId localPath : Bytes) (fileInfo : Stat) (system : System) : Prop where
  key : 10 ∉ accessKeyId
  user : ∀ name ∈ system.user, Account name
  group : ∀ name ∈ system.group, Account name
  localPath : fileInfo.isSoftLink = true → Plain localPath
  target : fileInfo.isSoftLink = true →
    ∀ target ∈ system.target, Plain (cString (target.take 1024))

namespace Uploader

variable (u : Uploader) {localPath remotePath filename contentType date accessKeyId : Bytes}
  {url : Option Bytes} {fileInfo : Stat} {system : System} {request : Request}
  {signString : Bytes → Option Bytes} {headers : List (Bytes × Bytes)}

/-- The fixed headers are plain. -/
lemma plain_aclHeaders : ∀ h ∈ u.aclHeaders, Name h.1 ∧ Plain h.2 := by
  have hall : ∀ makeAllPublic useRrs : Bool, ∀ h ∈
      [(ascii "x-amz-acl", if makeAllPublic then ascii "public-read" else ascii "private")] ++
        (if useRrs then [(ascii "x-amz-storage-class", ascii "REDUCED_REDUNDANCY")] else []),
      Name h.1 ∧ Plain h.2 := by decide +kernel
  exact hall u.makeAllPublic u.useRrs

lemma plain_statHeaders (fileInfo : Stat) : ∀ h ∈ statHeaders fileInfo, Name h.1 ∧ Plain h.2 := by
  have hmode : Name (ascii "x-amz-meta-mode") := by decide
  have hmtime : Name (ascii "x-amz-meta-mtime") := by decide
  intro h hh
  rcases List.mem_cons.mp hh with rfl | hh
  · exact ⟨hmode, plain_inBase (by decide) (by decide)⟩
  · obtain rfl := List.mem_singleton.mp hh
    exact ⟨hmtime, plain_inBase (by decide) (by decide)⟩

/-- The headers of a link. -/
def linkHeaders (localPath : Bytes) : Option Bytes → List (Bytes × Bytes)
  | some target =>
      [(ascii "x-amz-meta-symlink", target), (ascii "x-amz-meta-localpath", localPath)]
  | none => []

variable {u}

/-- The headers of an upload, in order. -/
lemma uploadFileRequest_headers
    (h : u.uploadFileRequest localPath remotePath url contentType fileInfo system =
      some request) :
    ∃ user group link, system.user = some user ∧ system.group = some group ∧
      softLinkData fileInfo system = some link ∧
      request.headers = [(ascii "x-amz-meta-uid", decimal fileInfo.uid.toNat ++ ascii " " ++ user),
          (ascii "x-amz-meta-gid", decimal fileInfo.gid.toNat ++ ascii " " ++ group)] ++
        u.aclHeaders ++ statHeaders fileInfo ++ linkHeaders localPath link ++
        [(ascii "Content-type", contentType), (ascii "Expect", [])] := by
  unfold uploadFileRequest at h
  split at h
  next ids link hids hlink =>
    unfold addUidAndGidHeaders at hids
    split at hids
    next user group huser hgroup =>
      cases h
      cases hids
      refine ⟨user, group, link, huser, hgroup, hlink, ?_⟩
      cases link <;> rfl
    · cases hids
  · cases h

/-- All headers have names, and they are plain when what comes from outside can be carried. -/
lemma prepare_plain_iff
    (hrequest : u.uploadFileRequest localPath remotePath url (guessContentType filename) fileInfo
      system = some request)
    (hprepare : request.prepare date accessKeyId signString = some headers)
    (hdate : Plain date)
    (hsignature : ∀ s signature, signString s = some signature → signature ≠ [] ∧ Plain signature) :
    (∀ h ∈ headers, Name h.1) ∧
      ((∀ h ∈ headers, Plain h.2) ↔ Carried accessKeyId localPath fileInfo system) := by
  obtain ⟨user, group, link, huser, hgroup, hlink, hheaders⟩ := uploadFileRequest_headers hrequest
  obtain ⟨authorization, hsign, rfl⟩ := Option.map_eq_some_iff.mp hprepare
  obtain ⟨signature, hsigned, rfl⟩ := Option.map_eq_some_iff.mp hsign
  obtain ⟨hne, hplain⟩ := hsignature _ _ hsigned
  have hacl := u.plain_aclHeaders
  have hstat := plain_statHeaders fileInfo
  have hnames : ∀ name ∈ [ascii "x-amz-meta-uid", ascii "x-amz-meta-gid", ascii "Content-type",
      ascii "Expect", ascii "Date", ascii "Authorization", ascii "x-amz-meta-symlink",
      ascii "x-amz-meta-localpath"], Name name := by decide
  have hempty : Plain [] := ⟨by simp, by simp, by simp⟩
  have hcontent := plain_guessContentType filename
  simp only [List.forall_mem_cons] at hnames
  obtain ⟨huid, hgid, hctype, hexpect, hdname, haname, hsname, hlname, -⟩ := hnames
  rw [Request.signedHeaders, hheaders]
  constructor
  · simp only [List.forall_mem_append, List.forall_mem_cons]
    refine ⟨⟨⟨⟨⟨⟨⟨huid, hgid, by simp⟩, fun h hh => (hacl h hh).1⟩,
      fun h hh => (hstat h hh).1⟩, ?_⟩, hctype, hexpect, by simp⟩, hdname, by simp⟩, haname, by simp⟩
    rcases link with _ | target
    · simp [linkHeaders]
    · simp only [linkHeaders, List.forall_mem_cons]
      exact ⟨hsname, hlname, by simp⟩
  · simp only [List.forall_mem_append, List.forall_mem_cons, plain_id,
      plain_authorization hne hplain]
    constructor
    · rintro ⟨⟨⟨⟨⟨⟨⟨hu, hg, -⟩, -⟩, -⟩, hl⟩, -⟩, -⟩, hkey, -⟩
      refine ⟨hkey, ?_, ?_, ?_, ?_⟩
      · rw [huser]
        rintro _ ⟨⟩
        exact hu
      · rw [hgroup]
        rintro _ ⟨⟩
        exact hg
      all_goals
        intro hsoft
        rw [softLinkData, if_pos hsoft, Option.map_eq_some_iff] at hlink
        obtain ⟨target, htarget, rfl⟩ := hlink
        simp only [linkHeaders, List.forall_mem_cons] at hl
      · exact hl.2.1
      · rw [htarget]
        rintro _ ⟨⟩
        exact hl.1
    · intro h
      refine ⟨⟨⟨⟨⟨⟨⟨h.user _ huser, h.group _ hgroup, by simp⟩, fun h hh => (hacl h hh).2⟩,
        fun h hh => (hstat h hh).2⟩, ?_⟩, hcontent, hempty, by simp⟩, hdate, by simp⟩, h.key,
        by simp⟩
      unfold softLinkData at hlink
      split_ifs at hlink with hsoft
      · obtain ⟨target, htarget, rfl⟩ := Option.map_eq_some_iff.mp hlink
        simp only [linkHeaders, List.forall_mem_cons]
        exact ⟨h.target hsoft _ htarget, h.localPath hsoft, by simp⟩
      · cases hlink
        simp [linkHeaders]

/-- **The receiver reads the headers that were added**, and derives the `x-amz` lines that were
signed, exactly when what comes from outside can be carried by a header. -/
theorem headers_received_iff
    (hrequest : u.uploadFileRequest localPath remotePath url (guessContentType filename) fileInfo
      system = some request)
    (hprepare : request.prepare date accessKeyId signString = some headers)
    (hdate : Plain date)
    (hsignature : ∀ s signature, signString s = some signature → signature ≠ [] ∧ Plain signature) :
    (receive (write headers) = some headers ∧
      (receive (write headers)).map serializeAmzHeadersIntoStringToSign =
        some (serializeAmzHeadersIntoStringToSign (request.signedHeaders date))) ↔
      Carried accessKeyId localPath fileInfo system := by
  obtain ⟨hnames, hplain⟩ := prepare_plain_iff hrequest hprepare hdate hsignature
  rw [← hplain, ← receive_write_iff hnames]
  refine ⟨fun h => h.1, fun h => ⟨h, ?_⟩⟩
  obtain ⟨authorization, -, rfl⟩ := Option.map_eq_some_iff.mp hprepare
  rw [h, Option.map_some]
  -- the authorization is not an `x-amz` header
  have hauthorization : (ascii "x-amz" <+: ascii "Authorization") = False := by decide
  simp [serializeAmzHeadersIntoStringToSign, List.filter_append, hauthorization]

/-- An uploader without options. -/
def plainUploader : Uploader where
  amazonCredentials := ⟨ascii "b", ascii "s3.amazonaws.com"⟩

/-- What the system says of a link `/home/a`. -/
def linkTo (target : Bytes) : System := ⟨some (ascii "root"), some (ascii "wheel"), some target⟩

/-- The headers that go out for the link, with the signature that belongs to the target `target`. -/
def linkHeadersSent (target : Bytes) : Option (List (Bytes × Bytes)) :=
  match plainUploader.uploadFileRequest (ascii "/home/a") (ascii "a") none
      (guessContentType (ascii "a")) ⟨0xA1FF, 6, 1000, 0, 0⟩ (linkTo target) with
  | none => none
  | some request =>
      request.prepare (ascii "Thu, 01 Jan 2015 00:00:00 GMT") (ascii "AKID")
        fun _ => some (ascii "8v5VaJHzKIwe7wtWqkUkbx/iVRw=")

/-- The link to a file beside it has a request. -/
lemma exists_linkRequest :
    ∃ request, plainUploader.uploadFileRequest (ascii "/home/a") (ascii "a") none
      (guessContentType (ascii "a")) ⟨0xA1FF, 6, 1000, 0, 0⟩ (linkTo (ascii "target")) =
        some request := by
  rw [← Option.isSome_iff_exists]
  decide

/-- A link to a file beside it is uploaded with the headers that were added. -/
theorem headers_received_iff_sample :
    ∃ headers, linkHeadersSent (ascii "target") = some headers ∧
      receive (write headers) = some headers := by
  obtain ⟨request, hrequest⟩ := exists_linkRequest
  have hdate : Plain (ascii "Thu, 01 Jan 2015 00:00:00 GMT") := by decide +kernel
  have hsignature : ascii "8v5VaJHzKIwe7wtWqkUkbx/iVRw=" ≠ [] ∧
      Plain (ascii "8v5VaJHzKIwe7wtWqkUkbx/iVRw=") := by
    decide +kernel
  have hcarried : Carried (ascii "AKID") (ascii "/home/a") ⟨0xA1FF, 6, 1000, 0, 0⟩
      (linkTo (ascii "target")) := by
    refine ⟨by decide, ?_, ?_, fun _ => by decide +kernel, ?_⟩
    · rintro _ ⟨⟩
      exact ⟨by decide, by decide +kernel, by decide +kernel⟩
    · rintro _ ⟨⟩
      exact ⟨by decide, by decide +kernel, by decide +kernel⟩
    · rintro _ _ ⟨⟩
      decide +kernel
  have hprepare : request.prepare (ascii "Thu, 01 Jan 2015 00:00:00 GMT") (ascii "AKID")
      (fun _ => some (ascii "8v5VaJHzKIwe7wtWqkUkbx/iVRw=")) = some _ := rfl
  refine ⟨_, ?_, ((headers_received_iff hrequest hprepare hdate ?_).mpr hcarried).1⟩
  · rw [linkHeadersSent, hrequest]
    exact hprepare
  · rintro _ _ ⟨⟩
    exact hsignature

/-- A link whose target has a second line, uploaded as private: the receiver reads a header that
makes the object public. -/
theorem link_adds_header :
    ∃ headers received,
      linkHeadersSent (ascii "t\nx-amz-acl: public-read") = some headers ∧
      receive (write headers) = some received ∧ received ≠ headers ∧
      (ascii "x-amz-acl", ascii "public-read") ∉ headers ∧
      (ascii "x-amz-acl", ascii "public-read") ∈ received := by
  have hany : (linkHeadersSent (ascii "t\nx-amz-acl: public-read")).any (fun headers =>
      (receive (write headers)).any fun received => decide (received ≠ headers ∧
        (ascii "x-amz-acl", ascii "public-read") ∉ headers ∧
        (ascii "x-amz-acl", ascii "public-read") ∈ received)) = true := by
    decide
  obtain ⟨headers, hheaders, hany⟩ := (Option.any_eq_true _ _).mp hany
  obtain ⟨received, hreceived, hadded⟩ := (Option.any_eq_true _ _).mp hany
  exact ⟨headers, received, hheaders, hreceived, of_decide_eq_true hadded⟩

end Uploader

end Clarc
