import Clarc.Core.Keyset
import Clarc.Listing.RemoteListOfFiles

/-!
# A bucket that is listed

What a storage server does with the requests of `downloadList`: it lists the keys after the marker
that the URL carries, a page at a time, and says whether more remain.

* `Bucket.answer` is the response to a request, which depends on its URL only;
* `next_answer` — what an iteration of `downloadList` makes of a page;
* `markerOf_getUrl` — **the marker the server reads is the key the code meant**, unless that key
  occurs in the URL without it; then the server reads no marker at all.
-/

namespace Clarc

open Bytes RemoteListOfFiles

instance transUInt8 : Trans (α := UInt8) (· < ·) (· < ·) (· < ·) := ⟨UInt8.lt_trans⟩

/-- An object as a listing shows it. -/
structure RemoteObject where
  key : Bytes
  md5 : Bytes
  key_ne : key ≠ []
  md5_ne : md5 ≠ []

namespace RemoteObject

/-- The quoted ETag. -/
def etag (o : RemoteObject) : Bytes := ascii "\"" ++ o.md5 ++ ascii "\""

/-- The place of the object in the list that `downloadList` fills. -/
def toFile (o : RemoteObject) : RemoteFile := ⟨o.key, o.md5, 0⟩

/-- Its `Contents` element. -/
def contents (o : RemoteObject) : Xml :=
  .element (ascii "Contents") [.element (ascii "Key") [.text o.key],
    .element (ascii "ETag") [.text o.etag],
    .element (ascii "StorageClass") [.text (ascii "STANDARD")]]

end RemoteObject

/-- A bucket, its objects in the order of their keys, and how many of them a page has. -/
structure Bucket where
  objects : List RemoteObject
  sorted : Keyset.Sorted RemoteObject.key objects
  pageSize : ℕ
  pageSize_pos : 0 < pageSize

/-- The query of a URL: what follows its first question mark. -/
def queryOf (url : Bytes) : Bytes := (url.dropWhile (· ≠ 63)).drop 1

/-- The value of the `marker` parameter of a URL. -/
def markerOf (url : Bytes) : Option Bytes :=
  ((queryOf url).splitOn 38).findSome? fun parameter =>
    if ascii "marker=" <+: parameter then some (unescape (parameter.drop 7)) else none

namespace Bucket

variable (b : Bucket)

/-- The objects that remain after a marker. -/
def after (marker : Option Bytes) : List RemoteObject :=
  Keyset.after RemoteObject.key b.objects marker

/-- The first page of what remains. -/
def page (rest : List RemoteObject) : List RemoteObject := rest.take b.pageSize

/-- The document of that page. -/
def document (rest : List RemoteObject) : Document :=
  .rooted (.element (ascii "ListBucketResult")
    (.element (ascii "Name") [] ::
      .element (ascii "IsTruncated")
        [.text (if b.pageSize < rest.length then ascii "true" else ascii "false")] ::
      (b.page rest).map RemoteObject.contents))

/-- The response that carries it. -/
def response (rest : List RemoteObject) : Response where
  code := .ok
  responseCode := 200
  headers := ascii "HTTP/1.1 200 OK\r\nContent-Type: application/xml\r\n\r\n"
  body := b.document rest

/-- The response to a request. -/
def answer (request : Request) : Response := b.response (b.after (markerOf request.url))

/-- The last key of a page. -/
def lastKey (rest : List RemoteObject) : Bytes :=
  ((b.page rest).getLast?.map RemoteObject.key).getD []

end Bucket

/-! ## A page is parsed -/

section

variable {o : RemoteObject} {l : Listing}

lemma extractMd5FromEtag_etag : extractMd5FromEtag (some o.etag) = some o.md5 := by
  have hq : ascii "\"" = [34] := by decide
  have hlen := List.length_pos_iff.mpr o.md5_ne
  have hetag : o.etag = 34 :: (o.md5 ++ [34]) := by simp [RemoteObject.etag, hq]
  have hlong : ¬ o.etag.length < 3 := by
    rw [hetag, List.length_cons, List.length_append, List.length_singleton]
    omega
  rw [extractMd5FromEtag, if_neg hlong, hetag, List.drop_one, List.tail_cons,
    List.dropLast_concat]

lemma parseContents_object (key : Bytes) :
    parseContents { lastKey := key } [.element (ascii "Key") [.text o.key],
      .element (ascii "ETag") [.text o.etag],
      .element (ascii "StorageClass") [.text (ascii "STANDARD")]] =
      some { lastKey := o.key, keyFound := true, md5 := some o.md5 } := by
  have hkey : ascii "ETag" ≠ ascii "Key" := by decide
  have hclass : ascii "StorageClass" ≠ ascii "Key" := by decide
  have hclass' : ascii "StorageClass" ≠ ascii "ETag" := by decide
  have htext : ∀ t : Bytes, xmlNodeListGetString [.text t] = some t := by
    intro t
    simp [xmlNodeListGetString]
  simp only [parseContents, if_true, if_neg hkey, if_neg hclass, if_neg hclass', htext,
    extractMd5FromEtag_etag]

/-- The objects of a page are added one after another. -/
lemma parseNodes_objects : ∀ (objects : List RemoteObject) (p : Parse),
    parseNodes p (objects.map RemoteObject.contents) = some { p with
      files := p.files ++ objects.map RemoteObject.toFile
      lastKey := (objects.getLast?.map RemoteObject.key).getD p.lastKey }
  | [], p => by simp [parseNodes]
  | o :: rest, p => by
      rw [List.map_cons, RemoteObject.contents, parseNodes, if_pos rfl, parseContents_object]
      dsimp only
      rw [parseNodes_objects rest]
      have hlast : ((o :: rest).getLast?.map RemoteObject.key).getD p.lastKey =
          (rest.getLast?.map RemoteObject.key).getD o.key := by
        rw [List.getLast?_cons]
        cases rest.getLast? <;> rfl
      simp [Parse.addContents, hlast, RemoteObject.toFile]

variable (b : Bucket)

/-- **What an iteration makes of a page**: the loop ends with it, or goes on from its last key. -/
theorem next_response (rest : List RemoteObject) :
    l.next (some (b.response rest)) =
      if b.pageSize < rest.length then
        .again { url := none, lastKey := b.lastKey rest, isTruncated := true,
                 files := l.files ++ (b.page rest).map RemoteObject.toFile }
      else .done (.returned true (l.files ++ rest.map RemoteObject.toFile)) := by
  obtain ⟨t, hgo⟩ : ∃ t, (b.response rest).go = some t := ⟨_, rfl⟩
  have hres : t.res = .ok := go_res hgo
  have hstatus : t.httpStatusCode = 200 := by
    rw [go_status hgo]
    exact ite_self 200
  have hbody : t.body = b.document rest := go_body hgo
  have hgot : performGetOnBucket (some (b.response rest)) = .received 200 (b.document rest) := by
    simp only [performGetOnBucket, hgo, hres, hstatus, hbody, if_true]
    rfl
  have hname : ascii "Name" ≠ ascii "Contents" := by decide
  have hname' : ascii "Name" ≠ ascii "IsTruncated" := by decide
  have htrunc : ascii "IsTruncated" ≠ ascii "Contents" := by decide
  have hflag : ∀ text : Bytes, xmlNodeListGetString [.text text] = some text := by
    intro text
    simp [xmlNodeListGetString]
  have htrue : (ascii "true" == ascii "true") = true := by decide
  have hfalse : (ascii "false" == ascii "true") = false := by decide
  simp only [Listing.next, hgot, ne_eq, not_true_eq_false, if_false, parseListOfFiles,
    Bucket.document, if_true, parseNodes, if_neg hname, if_neg hname', if_neg htrunc, hflag,
    parseNodes_objects, Bool.false_or]
  split_ifs with hmore
  · rw [htrue]
    rfl
  · have hpage : b.page rest = rest := List.take_of_length_le (not_lt.mp hmore)
    rw [hfalse, hpage]
    rfl

end

/-! ## The marker -/

lemma queryOf_eq_nil {url : Bytes} (h : 63 ∉ url) : queryOf url = [] := by
  have hdrop : url.dropWhile (fun c => decide (c ≠ 63)) = [] := by
    refine List.dropWhile_eq_nil_iff.mpr fun c hc => decide_eq_true ?_
    rintro rfl
    exact h hc
  rw [queryOf, hdrop]
  rfl

lemma queryOf_append {url query : Bytes} (h : 63 ∉ url) : queryOf (url ++ 63 :: query) = query := by
  have hall : ∀ c ∈ url, decide (c ≠ 63) = true := by
    intro c hc
    refine decide_eq_true ?_
    rintro rfl
    exact h hc
  rw [queryOf, List.dropWhile_append_of_pos hall, List.dropWhile_cons_of_neg (by simp)]
  rfl

/-- A URL without a query carries no marker. -/
lemma markerOf_eq_none {url : Bytes} (h : 63 ∉ url) : markerOf url = none := by
  rw [markerOf, queryOf_eq_nil h]
  decide

/-- The marker that the code appends is the marker the server reads. -/
lemma markerOf_marker {url : Bytes} (h : 63 ∉ url) (marker : Bytes) :
    markerOf (url ++ ascii "?marker=" ++ escape marker) = some marker := by
  have hmark : ascii "?marker=" = 63 :: ascii "marker=" := by decide
  have hquery : queryOf (url ++ ascii "?marker=" ++ escape marker) =
      ascii "marker=" ++ escape marker := by
    rw [hmark, List.append_assoc, List.cons_append, queryOf_append h]
  have hsingle : (ascii "marker=" ++ escape marker).splitOn 38 =
      [ascii "marker=" ++ escape marker] := by
    refine List.splitOn_eq_singleton fun hamp => ?_
    rcases List.mem_append.mp hamp with hamp | hamp
    · exact absurd hamp (by decide)
    · exact absurd (mem_escape hamp) (by decide)
  have hdrop : (ascii "marker=" ++ escape marker).drop 7 = escape marker := by
    have hlen : (ascii "marker=").length = 7 := by decide
    exact List.drop_left' hlen
  rw [markerOf, hquery, hsingle, List.findSome?_cons, if_pos (List.prefix_append _ _), hdrop,
    unescape_escape]

/-- **The marker of a request**, below an endpoint without a query: the key the listing goes on
from, unless that key is empty or occurs in the URL. -/
theorem markerOf_getUrl (c : AmazonCredentials) (useSsl : Bool) (url : Option Bytes)
    (marker : Bytes) (h : 63 ∉ url.getD (c.generateUrl [] useSsl)) :
    markerOf (getUrl c useSsl url marker false) =
      if marker = [] ∨ marker <:+: url.getD (c.generateUrl [] useSsl) then none
      else some marker := by
  unfold getUrl
  by_cases hempty : marker = []
  · simp [hempty, markerOf_eq_none h]
  · by_cases hinfix : marker <:+: url.getD (c.generateUrl [] useSsl)
    · simp [hempty, hinfix, markerOf_eq_none h]
    · simp only [hempty, hinfix, or_false, if_false, ne_eq, not_false_eq_true, if_true]
      exact markerOf_marker h marker

end Clarc
