import Clarc.Http.MicroCurl
import Clarc.Storage.FileListStorage

/-!
# The listing of a bucket: `remoteListOfFiles.cc`

`downloadList` asks for the listing page by page.  What carries it from one page to the next is
`lastKey`, the last key of the page before, which `performGetOnBucket` appends to the next URL as
the marker — unless the URL already contains that key somewhere.  A redirect sets the URL of the
next request and jumps to the condition of the loop, which is the truncation flag of the page
before it.

* `Listing.next` is the body of the loop, from the response to the request of the iteration;
* `downloadList` runs it against a server, a function of its own state and the request.

A null pointer that the code hands to `strcpy` or `strcmp` loses the process (`crashed`): a `Key` or
`IsTruncated` element without text, and a 307 without a `Location`.
-/

namespace Clarc

open Bytes

/-! ## One page -/

/-- `xmlNodeListGetString`: the text among the nodes, a null pointer when there is none. -/
def xmlNodeListGetString (nodes : List Xml) : Option Bytes :=
  match nodes.filterMap (fun node => match node with
    | .text content => some content
    | .element _ _ => none) with
  | [] => none
  | texts => some texts.flatten

namespace RemoteListOfFiles

/-- `RemoteListOfFiles::extractMd5FromEtag`: what stands between the first character and the
last. -/
def extractMd5FromEtag : Option Bytes → Option Bytes
  | none => none
  | some etag => if etag.length < 3 then none else some (etag.drop 1).dropLast

/-- The variables of the loop over the children of a `Contents` element. -/
structure Contents where
  lastKey : Bytes
  keyFound : Bool := false
  md5 : Option Bytes := none

/-- The loop over the children of a `Contents` element. -/
def parseContents (c : Contents) : List Xml → Option Contents
  | [] => some c
  | .text _ :: rest => parseContents c rest
  | .element name children :: rest =>
      if name = ascii "Key" then
        match xmlNodeListGetString children with
        | none => none
        | some key => parseContents { c with lastKey := key, keyFound := true } rest
      else if name = ascii "ETag" then
        parseContents { c with md5 := extractMd5FromEtag (xmlNodeListGetString children) } rest
      else parseContents c rest

/-- The variables of the loop over the children of the root. -/
structure Parse where
  files : List RemoteFile
  lastKey : Bytes := []
  isTruncated : Bool := false

/-- What a `Contents` element leaves behind: its file is added when it has a key and an md5. -/
def Parse.addContents (p : Parse) (c : Contents) : Parse :=
  { p with
    lastKey := c.lastKey
    files := match c.md5 with
      | some md5 => if c.keyFound then p.files ++ [⟨c.lastKey, md5, 0⟩] else p.files
      | none => p.files }

/-- The loop over the children of the root. -/
def parseNodes (p : Parse) : List Xml → Option Parse
  | [] => some p
  | .text _ :: rest => parseNodes p rest
  | .element name children :: rest =>
      if name = ascii "Contents" then
        match parseContents { lastKey := p.lastKey } children with
        | none => none
        | some c => parseNodes (p.addContents c) rest
      else if name = ascii "IsTruncated" then
        match xmlNodeListGetString children with
        | none => none
        | some text => parseNodes { p with isTruncated := p.isTruncated || text == ascii "true" } rest
      else parseNodes p rest

/-- What becomes of a body. -/
inductive Parsed
  | crashed
  | rejected (errorResult : Bytes)
  | parsed (p : Parse)

/-- `RemoteListOfFiles::parseListOfFiles`, on the files collected so far. -/
def parseListOfFiles (files : List RemoteFile) : Document → Parsed
  | .unparsable => .rejected (ascii "Document not parsed successfully")
  | .rootless => .rejected (ascii "Empty document")
  | .rooted (.text _) =>
      .rejected (ascii "Document of the wrong type, root node != ListBucketResult")
  | .rooted (.element name children) =>
      if name = ascii "ListBucketResult" then
        match parseNodes { files := files } children with
        | none => .crashed
        | some p => .parsed p
      else .rejected (ascii "Document of the wrong type, root node != ListBucketResult")

/-! ## One request -/

/-- The URL of `performGetOnBucket`. -/
def getUrl (c : AmazonCredentials) (useSsl : Bool) (url : Option Bytes) (marker : Bytes)
    (setLocationHeader : Bool) : Bytes :=
  let postUrl := url.getD (c.generateUrl [] useSsl)
  if marker ≠ [] then
    if marker <:+: postUrl then postUrl else postUrl ++ ascii "?marker=" ++ escape marker
  else if setLocationHeader then
    if ascii "?location" <:+: postUrl then postUrl else postUrl ++ ascii "?location"
  else postUrl

/-- The request of `performGetOnBucket`. -/
def getRequest (c : AmazonCredentials) (useSsl : Bool) (url : Option Bytes) (marker : Bytes)
    (setLocationHeader : Bool) : Request where
  method := .get
  url := getUrl c useSsl url marker setLocationHeader
  canonicalizedResource := c.resource (if setLocationHeader then ascii "?location" else [])

/-- What `performGetOnBucket` hands back.  The `Location` of a 307 comes in `errorResult`. -/
inductive Got
  | crashed
  | failed (errorResult : Bytes)
  | redirected (location : Bytes)
  | received (statusCode : ℕ) (body : Document)

/-- `RemoteListOfFiles::performGetOnBucket`, from the response; without one `prepare` has failed. -/
def performGetOnBucket : Option Response → Got
  | none => .failed (ascii "Error in auth module")
  | some response =>
      match response.go with
      | none => .crashed
      | some t =>
          if t.res = .ok then
            if t.httpStatusCode = 307 then
              match t.getHeader (ascii "location") with
              | none => .crashed
              | some location => .redirected location
            else .received t.httpStatusCode t.body
          else .failed (ascii "Error performing request")

/-! ## The loop -/

/-- The variables of `downloadList`, and the list it fills. -/
structure Listing where
  url : Option Bytes := none
  lastKey : Bytes := []
  isTruncated : Bool := false
  files : List RemoteFile := []

/-- How `downloadList` ends. -/
inductive Outcome
  | returned (success : Bool) (files : List RemoteFile)
  | crashed
  deriving DecidableEq, Repr

/-- What an iteration leads to. -/
inductive ListStep
  | again (l : Listing)
  | done (o : Outcome)

/-- `while (isTruncated)`. -/
def Listing.loop (l : Listing) : ListStep :=
  if l.isTruncated then .again l else .done (.returned true l.files)

/-- The body of the loop. -/
def Listing.next (l : Listing) (response : Option Response) : ListStep :=
  match performGetOnBucket response with
  | .crashed => .done .crashed
  | .failed _ => .done (.returned false l.files)
  -- `continue` goes to the condition, with the flag of the page before
  | .redirected location => Listing.loop { l with url := some location }
  | .received statusCode body =>
      if statusCode ≠ 200 then .done (.returned false l.files)
      else
        match parseListOfFiles l.files body with
        | .crashed => .done .crashed
        | .rejected _ => .done (.returned false l.files)
        | .parsed p => Listing.loop
            { url := none, lastKey := p.lastKey, isTruncated := p.isTruncated, files := p.files }

/-- The request of an iteration. -/
def Listing.request (c : AmazonCredentials) (useSsl : Bool) (l : Listing) : Request :=
  getRequest c useSsl l.url l.lastKey false

/-- `RemoteListOfFiles::downloadList` against a server: its outcome and the server's last state,
`none` when `fuel` iterations do not suffice. -/
def downloadList {ω : Type} (c : AmazonCredentials) (useSsl : Bool)
    (server : ω → Request → Option Response × ω) : ℕ → ω → Listing → Option (Outcome × ω)
  | 0, _, _ => none
  | fuel + 1, w, l =>
      match l.next (server w (l.request c useSsl)).1 with
      | .done o => some (o, (server w (l.request c useSsl)).2)
      | .again l' => downloadList c useSsl server fuel (server w (l.request c useSsl)).2 l'

/-! ## The list only grows -/

lemma parseNodes_files : ∀ {nodes : List Xml} {p p' : Parse},
    parseNodes p nodes = some p' → p.files <+: p'.files
  | [], p, p', h => by
      obtain rfl := Option.some.inj h
      exact List.prefix_refl _
  | .text _ :: rest, p, p', h => @parseNodes_files rest p p' h
  | .element name children :: rest, p, p', h => by
      have hadd : ∀ c : Contents, p.files <+: (p.addContents c).files := by
        intro c
        unfold Parse.addContents
        split
        · split
          · exact List.prefix_append _ _
          · exact List.prefix_refl _
        · exact List.prefix_refl _
      unfold parseNodes at h
      split_ifs at h
      · split at h
        · cases h
        next c _ => exact (hadd c).trans (parseNodes_files h)
      · split at h
        · cases h
        · have hrest := parseNodes_files h
          exact hrest
      · exact parseNodes_files h

lemma parseListOfFiles_files {files : List RemoteFile} {document : Document} {p : Parse}
    (h : parseListOfFiles files document = .parsed p) : files <+: p.files := by
  unfold parseListOfFiles at h
  split at h
  · cases h
  · cases h
  · cases h
  · split_ifs at h
    split at h
    · cases h
    next p' hp =>
      cases h
      exact parseNodes_files hp

/-- An iteration loses the process, gives up, or comes to the condition of the loop with a list
that has only grown. -/
lemma Listing.next_cases (l : Listing) (response : Option Response) :
    l.next response = .done .crashed ∨ l.next response = .done (.returned false l.files) ∨
      ∃ l' : Listing, l.next response = l'.loop ∧ l.files <+: l'.files := by
  unfold Listing.next
  split
  · exact Or.inl rfl
  · exact Or.inr (Or.inl rfl)
  · exact Or.inr (Or.inr ⟨_, rfl, List.prefix_refl _⟩)
  · split_ifs
    · exact Or.inr (Or.inl rfl)
    · split
      · exact Or.inl rfl
      · exact Or.inr (Or.inl rfl)
      next p hp => exact Or.inr (Or.inr ⟨_, rfl, parseListOfFiles_files hp⟩)

/-! ## What a page adds -/

/-- The files collected before are left in front of those of the page. -/
lemma parseNodes_append (files : List RemoteFile) : ∀ (nodes : List Xml) (p : Parse),
    parseNodes { p with files := files ++ p.files } nodes =
      (parseNodes p nodes).map fun q => { q with files := files ++ q.files }
  | [], p => rfl
  | .text _ :: rest, p => parseNodes_append files rest p
  | .element name children :: rest, p => by
      simp only [parseNodes]
      split_ifs
      · split
        · rfl
        next c _ =>
          have hadd : Parse.addContents { p with files := files ++ p.files } c =
              { p.addContents c with files := files ++ (p.addContents c).files } := by
            simp only [Parse.addContents]
            split
            · split <;> simp
            · rfl
          rw [hadd]
          exact parseNodes_append files rest (p.addContents c)
      · split
        · rfl
        next text _ =>
          exact parseNodes_append files rest
            { p with isTruncated := p.isTruncated || text == ascii "true" }
      · exact parseNodes_append files rest p

/-- What a page adds does not depend on what was collected before. -/
lemma parseListOfFiles_append {files : List RemoteFile} {document : Document} {p : Parse}
    (h : parseListOfFiles files document = .parsed p) :
    ∃ q, parseListOfFiles [] document = .parsed q ∧ p.files = files ++ q.files := by
  rcases document with _ | _ | ⟨⟨name, children⟩ | content⟩
  · cases h
  · cases h
  · simp only [parseListOfFiles] at h ⊢
    split_ifs at h ⊢
    have happend := parseNodes_append files children { files := [] }
    rw [List.append_nil] at happend
    rw [happend] at h
    rcases hnodes : parseNodes { files := [] } children with _ | q
    · rw [hnodes] at h
      cases h
    · rw [hnodes] at h
      cases h
      exact ⟨q, rfl, rfl⟩
  · cases h

end RemoteListOfFiles

/-- A page that comes with status 200 lists keys of the set only. -/
def Response.Lists (K : Bytes → Prop) (response : Response) : Prop :=
  ∀ t p, response.go = some t → t.res = .ok → t.httpStatusCode = 200 →
    RemoteListOfFiles.parseListOfFiles [] t.body = .parsed p → ∀ f ∈ p.files, K f.path

namespace RemoteListOfFiles

/-- The list as a turn of the loop leaves it. -/
def ListStep.files : ListStep → List RemoteFile
  | .again l => l.files
  | .done (.returned _ files) => files
  | .done .crashed => []

lemma Listing.loop_files (l : Listing) : l.loop.files = l.files := by
  unfold Listing.loop
  split_ifs <;> rfl

/-- **The list has the keys it had and those of the page.** -/
lemma Listing.next_lists {K : Bytes → Prop} {l : Listing} {response : Option Response}
    (hl : ∀ f ∈ l.files, K f.path) (h : ∀ r, response = some r → r.Lists K) :
    ∀ f ∈ (l.next response).files, K f.path := by
  unfold Listing.next
  split
  · exact fun f hf => absurd hf List.not_mem_nil
  · exact hl
  · rwa [Listing.loop_files]
  next statusCode body hgot =>
    split_ifs with h200
    · exact hl
    · split
      · exact fun f hf => absurd hf List.not_mem_nil
      · exact hl
      next p hp =>
        obtain ⟨q, hq, hfiles⟩ := parseListOfFiles_append hp
        rw [Listing.loop_files]
        intro f hf
        have hf' : f ∈ p.files := hf
        rw [hfiles, List.mem_append] at hf'
        rcases hf' with hf | hf
        · exact hl f hf
        · unfold performGetOnBucket at hgot
          split at hgot
          · cases hgot
          next r =>
            split at hgot
            · cases hgot
            next t hgo =>
              split_ifs at hgot with hok h307
              · split at hgot <;> cases hgot
              · cases hgot
                exact h r rfl t q hgo hok (not_not.mp h200) hq f hf

variable {ω : Type} {c : AmazonCredentials} {useSsl : Bool} {l : Listing}
  {server : ω → Request → Option Response × ω} {w w' : ω} {fuel : ℕ} {o : Outcome}
  {success : Bool} {files : List RemoteFile}

/-- More fuel does not change the outcome. -/
lemma downloadList_add (h : downloadList c useSsl server fuel w l = some (o, w')) (k : ℕ) :
    downloadList c useSsl server (fuel + k) w l = some (o, w') := by
  induction fuel generalizing w l with
  | zero => cases h
  | succ fuel ih =>
      rw [Nat.add_right_comm, downloadList]
      rw [downloadList] at h
      revert h
      rcases l.next (server w (l.request c useSsl)).1 with l' | o'
      · exact ih
      · exact id

end RemoteListOfFiles

end Clarc
