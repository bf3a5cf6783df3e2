import Clarc.Main.DryRun
import Clarc.Main.RowsAndObjects
import Clarc.Upload.Signature

/-!
# Every request of a run is accepted

`Built` has the requests that the program makes, each with the redirect that it follows, if it
follows one.  Their header names are fixed lists, and without a redirect they go to the URL of the
resource that they are signed for.

* `built_of_step` — **a step sends no other request**;
* `Built.named`, `Built.addressed` — what holds for all of them;
* `run_accepted` — **every request of a run is accepted by a server that has the key**, when its
  headers can be carried and a redirect, where it follows one, names the same resource.
-/

namespace Clarc

open Bytes HeaderText Reactive RemoteListOfFiles

namespace Main

variable {o : Options}

/-- A request of the program, and the redirect that it follows. -/
inductive Built (o : Options) : Option Bytes → Request → Prop
  | auth : Built o none (authRequest o.uploader.amazonCredentials o.uploader.useSsl)
  | create (url : Option Bytes) (region : Bytes) :
      Built o url (createRequest o.uploader.amazonCredentials o.uploader.useSsl url region)
  | list (l : Listing) : Built o l.url (l.request o.uploader.amazonCredentials o.uploader.useSsl)
  | head (url : Option Bytes) (remotePath : Bytes) :
      Built o url (headRequest o.uploader.amazonCredentials o.uploader.useSsl url remotePath)
  | copy (remotePath contentType : Bytes) (fileInfo : Stat) (system : System) (request : Request)
      (h : o.uploader.updateMetaRequest remotePath contentType fileInfo system = some request) :
      Built o none request
  | put (localPath remotePath : Bytes) (url : Option Bytes) (contentType : Bytes)
      (fileInfo : Stat) (system : System) (request : Request)
      (h : o.uploader.uploadFileRequest localPath remotePath url contentType fileInfo system =
        some request) : Built o url request
  | post (xml : Bytes) : Built o none (o.deleter.postRequest xml)

/-! ## Names -/

/-- The names that the signature depends on, of a list of headers. -/
def NamedBy (names : List Bytes) : Prop :=
  (∀ n ∈ names, Name n ∧ n ≠ ascii "Authorization") ∧
    (names.filter fun n => decide (ascii "x-amz" <+: n)).Pairwise
      fun m n => ¬ m <+: n ∧ ¬ n <+: m

instance (names : List Bytes) : Decidable (NamedBy names) :=
  inferInstanceAs (Decidable (_ ∧ List.Pairwise _ _))

lemma named_of_names {headers : List (Bytes × Bytes)} (h : NamedBy (headers.map Prod.fst)) :
    Named headers where
  names := fun p hp => (h.1 p.1 (List.mem_map_of_mem hp)).1
  apart := by
    have hpair := h.2
    rw [List.filter_map, List.pairwise_map] at hpair
    exact hpair
  unsigned := fun p hp => (h.1 p.1 (List.mem_map_of_mem hp)).2

lemma map_fst_aclHeaders (u : Uploader) : u.aclHeaders.map Prod.fst =
    ascii "x-amz-acl" :: if u.useRrs then [ascii "x-amz-storage-class"] else [] := by
  rw [Uploader.aclHeaders]
  split_ifs <;> rfl

/-- The headers of a request have their names from fixed lists. -/
lemma Built.named {redirect : Option Bytes} {r : Request} (h : Built o redirect r) :
    Named r.headers := by
  refine named_of_names ?_
  cases h with
  | auth => exact (by decide : NamedBy [])
  | create url region => exact (by decide : NamedBy [ascii "x-amz-acl", ascii "Expect"])
  | list l => exact (by decide : NamedBy [])
  | head url remotePath => exact (by decide : NamedBy [])
  | post xml =>
      exact (by decide :
        NamedBy [ascii "Content-MD5", ascii "Expect", ascii "Content-Type"])
  | copy remotePath contentType fileInfo system request h =>
      have hall : ∀ useRrs : Bool, NamedBy ((ascii "x-amz-acl" ::
          if useRrs then [ascii "x-amz-storage-class"] else []) ++
            ([ascii "x-amz-meta-mode", ascii "x-amz-meta-mtime"] ++
              ([ascii "x-amz-copy-source", ascii "x-amz-metadata-directive", ascii "Expect",
                ascii "Content-type"] ++ [ascii "x-amz-meta-uid", ascii "x-amz-meta-gid"]))) := by
        decide
      unfold Uploader.updateMetaRequest Uploader.addUidAndGidHeaders at h
      split at h
      next ids hids =>
        split at hids
        next user group huser hgroup =>
          cases h
          cases hids
          simp only [List.map_append, map_fst_aclHeaders, List.append_assoc]
          exact hall o.uploader.useRrs
        · cases hids
      · cases h
  | put localPath remotePath url contentType fileInfo system request h =>
      have hall : ∀ useRrs link : Bool, NamedBy ([ascii "x-amz-meta-uid", ascii "x-amz-meta-gid"] ++
          ((ascii "x-amz-acl" :: if useRrs then [ascii "x-amz-storage-class"] else []) ++
            ([ascii "x-amz-meta-mode", ascii "x-amz-meta-mtime"] ++
              ((if link then [ascii "x-amz-meta-symlink", ascii "x-amz-meta-localpath"] else []) ++
                [ascii "Content-type", ascii "Expect"])))) := by
        decide
      obtain ⟨user, group, link, -, -, -, hheaders⟩ := Uploader.uploadFileRequest_headers h
      rw [hheaders]
      simp only [List.map_append, map_fst_aclHeaders, List.append_assoc]
      rcases link with _ | target
      · exact hall o.uploader.useRrs false
      · exact hall o.uploader.useRrs true

/-! ## Addresses -/

/-- The names of the bucket and of the host end where the path begins. -/
structure Hosted (c : AmazonCredentials) : Prop where
  bucket : 47 ∉ c.bucket ∧ 63 ∉ c.bucket
  endPoint : 47 ∉ c.endPoint ∧ 63 ∉ c.endPoint

lemma resourceFor_generateUrl {c : AmazonCredentials} (hosted : Hosted c) (useSsl : Bool)
    {rest query : Bytes} (hslash : rest.head? ≠ some 47) (hmark : 63 ∉ rest)
    (hquery : query = [] ∨ query.head? = some 63) :
    resourceFor c.bucket (c.generateUrl rest useSsl ++ query) =
      some (c.resource rest ++
        if query.drop 1 = ascii "location" ∨ query.drop 1 = ascii "delete" then
          ascii "?" ++ query.drop 1 else []) := by
  rw [AmazonCredentials.generateUrl, if_neg hslash,
    resourceFor_url useSsl hosted.bucket.1 hosted.endPoint.1 hmark hquery,
    AmazonCredentials.resource]

/-- An escaped path neither begins a path nor a query. -/
lemma escape_apart (path : Bytes) : (escape path).head? ≠ some 47 ∧ 63 ∉ escape path := by
  have hreserved : ∀ c ∈ [(47 : UInt8), 63], unreserved c ≠ true ∧ c ≠ 37 := by
    decide +kernel
  refine ⟨fun h => ?_, fun h => ?_⟩
  · rcases mem_escape (List.mem_of_mem_head? h) with hc | hc
    · exact (hreserved 47 (by simp)).1 hc
    · exact (hreserved 47 (by simp)).2 hc
  · rcases mem_escape h with hc | hc
    · exact (hreserved 63 (by simp)).1 hc
    · exact (hreserved 63 (by simp)).2 hc

/-- The URL of an object. -/
lemma resourceFor_object {c : AmazonCredentials} (hosted : Hosted c) (useSsl : Bool)
    (path : Bytes) :
    resourceFor c.bucket (c.generateUrl (escape path) useSsl) = some (c.resource (escape path)) := by
  obtain ⟨hslash, hmark⟩ := escape_apart path
  have hurl := resourceFor_generateUrl hosted useSsl hslash hmark (.inl (rfl : ([] : Bytes) = []))
  have hnot : ¬ (([] : Bytes).drop 1 = ascii "location" ∨ ([] : Bytes).drop 1 = ascii "delete") := by
    decide
  rwa [List.append_nil, if_neg hnot, List.append_nil] at hurl

/-- The URL of a listing. -/
lemma resourceFor_getUrl {c : AmazonCredentials} (hosted : Hosted c) (useSsl : Bool)
    (marker : Bytes) :
    resourceFor c.bucket (getUrl c useSsl none marker false) = some (c.resource []) := by
  have hquery : ∀ query : Bytes, query = [] ∨ ascii "?marker=" <+: query →
      (query = [] ∨ query.head? = some 63) ∧
        ¬ (query.drop 1 = ascii "location" ∨ query.drop 1 = ascii "delete") := by
    rintro query (rfl | ⟨rest, rfl⟩)
    · exact ⟨.inl rfl, by decide⟩
    · refine ⟨.inr rfl, ?_⟩
      have hhead : ∀ s : Bytes, (ascii "?marker=" ++ s).drop 1 = 109 :: (ascii "arker=" ++ s) :=
        fun s => rfl
      have hlocation : (ascii "location").head? ≠ some 109 ∧ (ascii "delete").head? ≠ some 109 := by
        decide
      rw [hhead]
      rintro (h | h)
      · exact hlocation.1 (congrArg List.head? h).symm
      · exact hlocation.2 (congrArg List.head? h).symm
  have hurl : ∃ query, (query = [] ∨ ascii "?marker=" <+: query) ∧
      getUrl c useSsl none marker false = c.generateUrl [] useSsl ++ query := by
    unfold getUrl
    dsimp only [Option.getD_none]
    rw [if_neg (by decide : ¬ false = true)]
    split_ifs
    · exact ⟨[], .inl rfl, (List.append_nil _).symm⟩
    · exact ⟨_, .inr (List.prefix_append _ _), List.append_assoc _ _ _⟩
    · exact ⟨[], .inl rfl, (List.append_nil _).symm⟩
  obtain ⟨query, hform, heq⟩ := hurl
  obtain ⟨hmark, hnot⟩ := hquery query hform
  rw [heq, resourceFor_generateUrl hosted useSsl (by simp) (by simp) hmark, if_neg hnot,
    List.append_nil]

/-- The URL of the check of the credentials. -/
lemma resourceFor_location {c : AmazonCredentials} (hosted : Hosted c) (useSsl : Bool) :
    resourceFor c.bucket (getUrl c useSsl none [] true) = some (c.resource (ascii "?location")) := by
  have hfixed : 63 ∉ scheme useSsl ∧ 63 ∉ ascii "://" ∧ 63 ∉ ascii "." ∧ 63 ∉ ascii "/" := by
    cases useSsl <;> decide
  obtain ⟨hscheme, hcolon, hdot, hslash⟩ := hfixed
  have hmark : 63 ∉ c.generateUrl [] useSsl := by
    simp only [AmazonCredentials.generateUrl, List.mem_append, not_or]
    exact ⟨⟨⟨⟨⟨⟨hscheme, hcolon⟩, hosted.bucket.2⟩, hdot⟩, hosted.endPoint.2⟩, hslash⟩, by simp⟩
  have hnot : ¬ ascii "?location" <:+: c.generateUrl [] useSsl := by
    intro h
    have hmem : 63 ∈ ascii "?location" := by decide
    exact hmark (h.subset hmem)
  have hsub : (ascii "?location").drop 1 = ascii "location" := rfl
  unfold getUrl
  dsimp only [Option.getD_none]
  rw [if_neg (by simp), if_pos rfl, if_neg hnot,
    resourceFor_generateUrl hosted useSsl (by simp) (by simp) (.inr rfl), hsub, if_pos (.inl rfl)]
  simp only [AmazonCredentials.resource, List.append_nil, List.append_assoc]
  rfl

/-- The URLs of the requests that concern the bucket. -/
lemma resourceFor_bucket {c : AmazonCredentials} (hosted : Hosted c) (useSsl : Bool) :
    resourceFor c.bucket (c.generateUrlForBucketCreate useSsl) = some (c.resource []) ∧
      resourceFor c.bucket (c.generateUrlForObjectDelete useSsl) =
        some (c.resource (ascii "?delete")) := by
  have hhost : (47 : UInt8) ∉ ascii "s3.amazonaws.com" := by decide
  have hurl : ∀ query : Bytes, query = [] ∨ query.head? = some 63 →
      resourceFor c.bucket (scheme useSsl ++ ascii "://" ++ c.bucket ++
          ascii ".s3.amazonaws.com/" ++ query) =
        some (c.resource (if query.drop 1 = ascii "location" ∨ query.drop 1 = ascii "delete" then
          ascii "?" ++ query.drop 1 else [])) := by
    intro query hquery
    have hsame : scheme useSsl ++ ascii "://" ++ c.bucket ++ ascii ".s3.amazonaws.com/" ++ query =
        scheme useSsl ++ ascii "://" ++ c.bucket ++ ascii "." ++ ascii "s3.amazonaws.com" ++
          ascii "/" ++ [] ++ query := by
      have hjoin : ascii ".s3.amazonaws.com/" =
          ascii "." ++ ascii "s3.amazonaws.com" ++ ascii "/" := by decide
      rw [hjoin]
      simp only [List.append_assoc, List.nil_append]
    rw [hsame, resourceFor_url useSsl hosted.bucket.1 hhost (by simp) hquery,
      AmazonCredentials.resource]
    simp only [List.append_nil]
  constructor
  · have hcreate := hurl [] (.inl rfl)
    have hnot : ¬ (([] : Bytes).drop 1 = ascii "location" ∨ ([] : Bytes).drop 1 = ascii "delete") := by
      decide
    rwa [List.append_nil, if_neg hnot] at hcreate
  · have hdelete := hurl (ascii "?delete") (.inr rfl)
    have hsub : (ascii "?delete").drop 1 = ascii "delete" := rfl
    have hjoin : ascii ".s3.amazonaws.com/?delete" =
        ascii ".s3.amazonaws.com/" ++ ascii "?delete" := by decide
    have hquery : ascii "?" ++ ascii "delete" = ascii "?delete" := by decide
    rw [hsub, if_pos (.inr rfl), hquery, List.append_assoc _ (ascii ".s3.amazonaws.com/"), ← hjoin]
      at hdelete
    exact hdelete

/-- **A request that follows no redirect goes to the URL of its resource.** -/
lemma Built.addressed {r : Request} (hosted : Hosted o.uploader.amazonCredentials)
    (h : Built o none r) :
    resourceFor o.uploader.amazonCredentials.bucket r.url = some r.canonicalizedResource := by
  generalize hnone : (none : Option Bytes) = redirect at h
  cases h with
  | auth => exact resourceFor_location hosted _
  | create url region =>
      subst hnone
      exact (resourceFor_bucket hosted _).1
  | list l =>
      rw [Listing.request, ← hnone]
      exact resourceFor_getUrl hosted _ _
  | head url remotePath =>
      subst hnone
      exact resourceFor_object hosted _ _
  | copy remotePath contentType fileInfo system request h =>
      unfold Uploader.updateMetaRequest at h
      split at h
      · cases h
        exact resourceFor_object hosted _ _
      · cases h
  | put localPath remotePath url contentType fileInfo system request h =>
      subst hnone
      unfold Uploader.uploadFileRequest at h
      split at h
      · cases h
        exact resourceFor_object hosted _ _
      · cases h
  | post xml => exact (resourceFor_bucket hosted _).2

/-! ## Runs -/

variable {tree : Node} {s s' : State} {a : Action} {es : List Event} {table : Files}

/-- What an attempt sends is what was built for it. -/
lemma built_of_exchange {build : System → Option Request} {attempt : Uploader.Attempt}
    {exchanged : List (Request × Response)} (h : Uploader.exchange build attempt = some exchanged) :
    ∀ p ∈ exchanged, ∃ system, build system = some p.1 := by
  rcases attempt with _ | system | ⟨system, response⟩
  · cases h
    simp
  · obtain ⟨request, -, rfl⟩ := Option.map_eq_some_iff.mp h
    simp
  · obtain ⟨request, hrequest, rfl⟩ := Option.map_eq_some_iff.mp h
    rintro p hp
    obtain rfl := List.mem_singleton.mp hp
    exact ⟨system, hrequest⟩

/-- A thread sends the copy or the upload of its job. -/
lemma built_of_workerStep {t t' : Uploader.State} {n : ℕ} {c : Uploader.ThreadCommand}
    {w : Uploader.Worker} {wa : Uploader.WorkerAction} {fs : List Uploader.Event}
    (h : o.uploader.workerStep t n c w wa = some (t', fs)) :
    ∀ e ∈ fs, ∀ r, e.request = some r → ∃ redirect, Built o redirect r := by
  unfold Uploader.workerStep at h
  split at h
  case h_3 attempt =>
    split_ifs at h
    rcases hexchange : Uploader.exchange
      (o.uploader.updateMetaRequest c.path c.contentType c.fileInfo) attempt with _ | sent
    · simp only [hexchange, Option.some.injEq, Prod.mk.injEq] at h
      obtain ⟨-, rfl⟩ := h
      simp
    · have hfs : fs = sent.map fun p => Uploader.Event.copy c p.1 p.2 := by
        simp only [hexchange] at h
        split at h <;> cases h <;> rfl
      rw [hfs]
      intro e he r hr
      obtain ⟨p, hp, rfl⟩ := List.mem_map.mp he
      obtain rfl := Option.some.inj hr
      obtain ⟨system, hsystem⟩ := built_of_exchange hexchange p hp
      exact ⟨none, .copy _ _ _ _ _ hsystem⟩
  case h_4 r attempt =>
    split_ifs at h
    rcases hexchange : Uploader.exchange (o.uploader.uploadFileRequest c.realLocalPath c.path r.url
      c.contentType c.fileInfo) attempt with _ | sent
    · simp only [hexchange, Option.some.injEq, Prod.mk.injEq] at h
      obtain ⟨-, rfl⟩ := h
      simp
    · have hfs : fs = sent.map fun p => Uploader.Event.put c p.1 p.2 := by
        simp only [hexchange] at h
        split at h <;> cases h <;> rfl
      rw [hfs]
      intro e he request hr
      obtain ⟨p, hp, rfl⟩ := List.mem_map.mp he
      obtain rfl := Option.some.inj hr
      obtain ⟨system, hsystem⟩ := built_of_exchange hexchange p hp
      exact ⟨r.url, .put _ _ _ _ _ _ _ hsystem⟩
  case h_5 =>
    split at h <;> cases h <;> simp [Uploader.Event.request]
  all_goals
    cases h <;> simp [Uploader.Event.request]

/-- A step of `uploadFiles` is one of a thread, or sends nothing. -/
lemma built_of_upload {files : LocalFileList} {t t' : Uploader.State} {ua : Uploader.Action}
    {fs : List Uploader.Event} (h : o.uploader.step files o.source t ua = some (t', fs)) :
    ∀ e ∈ fs, ∀ r, e.request = some r → ∃ redirect, Built o redirect r := by
  unfold Uploader.step at h
  split at h
  case h_6 n wa pc =>
    split_ifs at h
    split at h
    · cases h
    · exact built_of_workerStep h
  case h_2 answer i _ =>
    dsimp only at h
    split at h
    · cases h
    · split at h
      · cases h
        simp [Uploader.Event.request]
      · split_ifs at h <;> cases h <;> simp [Uploader.Event.request]
  case h_3 =>
    split at h
    · cases h
    · split at h
      · cases h
        simp
      · split_ifs at h <;> cases h <;> simp
  case h_1 =>
    split_ifs at h <;> cases h <;> simp
  case h_4 =>
    split_ifs at h <;> cases h <;> simp
  case h_5 =>
    split_ifs at h
    cases h
    simp
  case h_7 =>
    cases h

/-- A step of `resolveMtimes` is a HEAD, or sends nothing. -/
lemma built_of_resolve {r r' : Resolve} {ra : ResolveAction} {fs : List HeadEvent}
    (h : resolveStep o.uploader.amazonCredentials o.uploader.useSsl r ra = some (r', fs)) :
    ∀ e ∈ fs, ∀ request, (Event.resolve e).request = some request →
      ∃ redirect, Built o redirect request := by
  cases resolveStep_moved h with
  | headed n pos url cUploads f response _ _ _ =>
      intro e he request hr
      obtain ⟨answer, -, rfl⟩ := Option.map_eq_some_iff.mp (Option.mem_toList.mp he)
      obtain rfl := Option.some.inj hr
      exact ⟨url, .head url f.path⟩
  | _ => simp

/-- **A step sends no other request.** -/
theorem built_of_step (hs : step o tree s a = some (s', es)) :
    ∀ e ∈ es, ∀ r, e.request = some r → ∃ redirect, Built o redirect r := by
  have hsent : ∀ {response : Option Response} {event : Response → Event} {redirect : Option Bytes}
      {request : Request}, (∀ r, (event r).request = some request) → Built o redirect request →
      ∀ e ∈ sent event response, ∀ r, e.request = some r → ∃ redirect, Built o redirect r := by
    intro response event redirect request hevent hbuilt e he r hr
    obtain ⟨answer, -, rfl⟩ := mem_sent he
    rw [hevent] at hr
    obtain rfl := Option.some.inj hr
    exact ⟨redirect, hbuilt⟩
  cases step_transition hs with
  | auth _ _ => exact hsent (fun _ => rfl) .auth
  | create _ url _ => exact hsent (fun _ => rfl) (.create url _)
  | listed _ l _ => exact hsent (fun _ => rfl) (.list l)
  | posted _ batch rest xml _ _ => exact hsent (fun _ => rfl) (.post xml)
  | resolved r r' b fs hpc hstep =>
      intro e he
      obtain ⟨e', he', rfl⟩ := List.mem_map.mp he
      exact built_of_resolve hstep e' he'
  | uploaded files t t' b fs hpc hstep =>
      intro e he
      obtain ⟨e', he', rfl⟩ := List.mem_map.mp he
      exact built_of_upload hstep e' he'
  | databaseSent attempt fileInfo r exchanged _ _ hexchange =>
      intro e he request hr
      obtain ⟨p, hp, rfl⟩ := List.mem_map.mp he
      obtain rfl := Option.some.inj hr
      obtain ⟨system, hsystem⟩ := built_of_exchange hexchange p hp
      exact ⟨r.url, .put _ _ _ _ _ _ _ hsystem⟩
  | _ => simp

/-- **Every request of a run is accepted.** -/
theorem run_accepted (hosted : Hosted o.uploader.amazonCredentials)
    (hrun : Run (step o tree) anything (start o table) () es s ()) {server : Server}
    (hserver : server.bucket = o.uploader.amazonCredentials.bucket)
    {accessKeyId secretAccessKey : Bytes} (hid : 58 ∉ accessKeyId) (hline : 10 ∉ accessKeyId)
    (hsecret : server.secretOf accessKeyId = some secretAccessKey) :
    ∀ e ∈ es, ∀ r, e.request = some r → ∃ redirect, Built o redirect r ∧
      ((∀ h ∈ r.headers, Plain h.2) →
        (redirect.isSome → resourceFor server.bucket r.url = some r.canonicalizedResource) →
          ∀ (timeinfo : Tm) (memory : Memory), ∃ headers,
            r.prepare (getIsoDate timeinfo) accessKeyId (signString memory secretAccessKey) =
                some headers ∧
              server.accepts r.method r.url (write headers) = true) := by
  have hbuilt : ∀ e ∈ es, ∀ r, e.request = some r → ∃ redirect, Built o redirect r := by
    refine hrun.invariant (I := fun es _ _ => ∀ e ∈ es, ∀ r, e.request = some r →
      ∃ redirect, Built o redirect r) (by simp) ?_
    rintro es t _ a fs t' _ hes hs -
    intro e he
    rcases List.mem_append.mp he with he | he
    · exact hes e he
    · exact built_of_step hs e he
  intro e he r hr
  obtain ⟨redirect, hredirect⟩ := hbuilt e he r hr
  refine ⟨redirect, hredirect, fun hplain hlocation timeinfo memory => ?_⟩
  refine accepts_prepared hredirect.named hplain ?_ hid hline hsecret timeinfo memory
  rcases redirect with _ | location
  · rw [hserver]
    exact hredirect.addressed hosted
  · exact hlocation rfl

/-- A server of the bucket that knows one key. -/
def sampleServer : Server where
  bucket := ascii "bucket"
  secretOf accessKeyId := if accessKeyId = ascii "AKIA" then some (ascii "secret") else none

/-- The credentials are checked, a file is uploaded, and so is the database. -/
def sampleUpload : List Action :=
  [.auth (some accepted), .openDatabase true, .walk] ++
    (Uploader.sampleActions 1).map .upload ++
    [.calculate noFaults, .stat (some (Uploader.sampleStat 2)),
      .database (.performed Uploader.sampleSystem Uploader.sampleResponse)]

theorem run_accepted_sample :
    ∃ es s, Run (step deleteOptions (.dir true (.cons (ascii "a") .reg (some 3) (.leaf .regular)
        .nil))) anything (start deleteOptions ∅) () es s () ∧ (es.filterMap Event.request).length = 3 ∧
      ∀ e ∈ es, ∀ r, e.request = some r → ∃ redirect, Built deleteOptions redirect r ∧
        ((∀ h ∈ r.headers, Plain h.2) →
          (redirect.isSome →
            resourceFor sampleServer.bucket r.url = some r.canonicalizedResource) →
          ∀ (timeinfo : Tm) (memory : Memory), ∃ headers,
            r.prepare (getIsoDate timeinfo) (ascii "AKIA") (signString memory (ascii "secret")) =
                some headers ∧
              sampleServer.accepts r.method r.url (write headers) = true) := by
  obtain ⟨es, s, hrun, hlength⟩ := run_of_exec (step deleteOptions (.dir true (.cons (ascii "a") .reg
    (some 3) (.leaf .regular) .nil))) (start deleteOptions ∅) sampleUpload (fun _ _ => True)
    (fun es _ => (es.filterMap Event.request).length = 3) (by decide)
  exact ⟨es, s, hrun, hlength, run_accepted ⟨by decide, by decide⟩ hrun rfl
    (by decide) (by decide) rfl⟩

end Main

end Clarc
