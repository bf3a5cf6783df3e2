import Clarc.Core.Loops
import Clarc.Delete.Document
import Clarc.Listing.Access

/-!
# The buffer of a page: `performGetOnBucket` and its callers

libcurl hands over the body of a response in chunks, and `curlResponseBodyCallback` puts them behind
one another in a buffer that it makes larger each time.  `performGetOnBucket` copies the whole into
a buffer of its caller's, without asking for its size; `downloadList` and `checkAuth` allocate it
under the comment "3mb should be enough?".

* `receivedBody_holds` — the chunks make the body, wherever libcurl cut it;
* `copied_received` — a page is copied as it was sent, with its length;
* `length_page` — the keys as they are, and what their entities add;
* `fitsBuffers_iff` — **a page fits into both buffers exactly when** its entities find room in what
  the page with its keys as they are leaves free;
* `fits_all_iff` — **what would be enough for every page**, and not a byte less.
-/

namespace Clarc

open Bytes Loops

/-! ## The body of a response -/

/-- What the callback keeps of the body: the buffer and `bodySize`. -/
structure CurlBody where
  body : Bytes
  bodySize : UInt64
  deriving DecidableEq, Repr

/-- `go` begins with an empty string. -/
def CurlBody.empty : CurlBody := { body := [0], bodySize := 0 }

/-- `curlResponseBodyCallback`: the chunk goes behind what is there, and a terminator behind the
chunk. -/
def curlResponseBodyCallback (curlResponse : CurlBody) (contents : Bytes) : CurlBody :=
  { body := curlResponse.body.take curlResponse.bodySize.toNat ++ contents ++ [0]
    bodySize := curlResponse.bodySize + UInt64.ofNat contents.length }

/-- What is there after so many chunks. -/
def receivedBody (chunks : List Bytes) : CurlBody :=
  chunks.foldl curlResponseBodyCallback CurlBody.empty

/-- `body` and `bodySize` of a `MicroCurl`. -/
structure MicroCurlBody where
  body : Bytes
  bodySize : UInt32
  deriving DecidableEq, Repr

/-- `body` and `bodySize` after `go`: the size is cut to 32 bits. -/
def goBody (chunks : List Bytes) : MicroCurlBody :=
  { body := (receivedBody chunks).body, bodySize := (receivedBody chunks).bodySize.toUInt32 }

/-- The buffer holds a text and its terminator, as long as the size does not overflow. -/
def CurlBody.Holds (text : Bytes) (curlResponse : CurlBody) : Prop :=
  text.length < 2 ^ 64 →
    curlResponse.body = text ++ [0] ∧ curlResponse.bodySize.toNat = text.length

/-- A chunk makes the text longer by itself. -/
lemma CurlBody.Holds.callback {curlResponse : CurlBody} {text : Bytes}
    (h : CurlBody.Holds text curlResponse) (contents : Bytes) :
    CurlBody.Holds (text ++ contents) (curlResponseBodyCallback curlResponse contents) := by
  intro hlength
  rw [List.length_append] at hlength
  obtain ⟨hbody, hsize⟩ := h (by omega)
  refine ⟨?_, ?_⟩
  · rw [curlResponseBodyCallback, hbody, hsize, List.take_left]
  · rw [curlResponseBodyCallback, UInt64.toNat_add, UInt64.toNat_ofNat', hsize,
      List.length_append]
    omega

/-- **The chunks make the body**, wherever it was cut. -/
theorem receivedBody_holds (chunks : List Bytes) :
    CurlBody.Holds chunks.flatten (receivedBody chunks) := by
  have h : CurlBody.Holds [] CurlBody.empty := fun _ => ⟨rfl, rfl⟩
  exact foldl_appends_flatten CurlBody.Holds (fun _ _ chunk h => h.callback chunk) h chunks

namespace RemoteListOfFiles

/-! ## The copy -/

/-- What `performGetOnBucket` copies to the front of its caller's buffer, and `*bodySize`, which is
zero before, from the response and the chunks of its body; the document in the response is what
libxml makes of them. -/
def copied (response : Option Response) (chunks : List Bytes) : MicroCurlBody :=
  match performGetOnBucket response with
  | .received _ _ =>
      { body := (goBody chunks).body.take (goBody chunks).bodySize.toNat
        bodySize := (goBody chunks).bodySize }
  | _ => { body := [], bodySize := 0 }

/-- The size of the buffer that `downloadList` allocates. -/
def downloadListBuffer : ℕ := 1024 * 1024 * 3

/-- The size of the buffer that `checkAuth` allocates. -/
def checkAuthBuffer : ℕ := 1024 * 1024 * 3

/-- What is copied is no more than what was accumulated. -/
lemma copied_le (response : Option Response) (chunks : List Bytes) :
    (copied response chunks).bodySize.toNat ≤ (receivedBody chunks).bodySize.toNat := by
  unfold copied
  split
  · exact Nat.mod_le _ _
  · exact Nat.zero_le _

/-! ## Pages -/

/-- A `Contents` element as it is sent: a key of at most 1024 bytes, and at most 512 bytes of other
markup before and behind it. -/
structure ContentsElement where
  before : Bytes
  key : Bytes
  behind : Bytes
  key_length : key.length ≤ 1024
  markup_length : before.length + behind.length ≤ 512

/-- The bytes of an element; its key is written with entities. -/
def ContentsElement.bytes (e : ContentsElement) : Bytes :=
  e.before ++ Deleter.xmlEntities.encode e.key ++ e.behind

/-- The length of an element with its key as it is. -/
def ContentsElement.plainLength (e : ContentsElement) : ℕ :=
  e.before.length + e.key.length + e.behind.length

/-- A page of a listing as it is sent: at most 1000 elements, between at most 4096 bytes. -/
structure ListingPage where
  head : Bytes
  elements : List ContentsElement
  tail : Bytes
  count : elements.length ≤ 1000
  envelope_length : head.length + tail.length ≤ 4096

namespace ListingPage

/-- The bytes of a page. -/
def bytes (page : ListingPage) : Bytes :=
  page.head ++ page.elements.flatMap ContentsElement.bytes ++ page.tail

/-- The length of a page with its keys as they are. -/
def plainLength (page : ListingPage) : ℕ :=
  page.head.length + (page.elements.map ContentsElement.plainLength).sum + page.tail.length

/-- By how much the entities make the keys of a page longer: three bytes for each `<` and `>` and
four for each `&`. -/
def growth (page : ListingPage) : ℕ := (page.elements.map fun e => Deleter.growth e.key).sum

/-- The page fits into a buffer: in whatever chunks it comes, no more than that is accumulated, and
no response makes `performGetOnBucket` copy more. -/
def Fits (page : ListingPage) (capacity : ℕ) : Prop :=
  ∀ chunks : List Bytes, chunks.flatten = page.bytes →
    (receivedBody chunks).bodySize.toNat ≤ capacity ∧
      ∀ response, (copied response chunks).bodySize.toNat ≤ capacity

end ListingPage

variable {page : ListingPage} {chunks : List Bytes} {capacity : ℕ}

/-! ## The length of a page -/

lemma length_element (e : ContentsElement) :
    e.bytes.length = e.plainLength + Deleter.growth e.key := by
  rw [ContentsElement.bytes, ContentsElement.plainLength, List.length_append, List.length_append,
    Deleter.length_encode]
  omega

/-- The keys as they are, and what the entities add. -/
lemma length_page (page : ListingPage) : page.bytes.length = page.plainLength + page.growth := by
  have hsum : (page.elements.flatMap ContentsElement.bytes).length =
      (page.elements.map ContentsElement.plainLength).sum +
        (page.elements.map fun e => Deleter.growth e.key).sum := by
    rw [List.length_flatMap, ← List.sum_map_add]
    exact congrArg List.sum (List.map_congr_left fun e _ => length_element e)
  rw [ListingPage.bytes, List.length_append, List.length_append, hsum, ListingPage.plainLength,
    ListingPage.growth]
  omega

/-- At most a thousand elements, of a bounded size each. -/
lemma sum_elements_le {f : ContentsElement → ℕ} {n : ℕ} (h : ∀ e, f e ≤ n) (page : ListingPage) :
    (page.elements.map f).sum ≤ 1000 * n := by
  have hsum : (page.elements.map f).sum ≤ (page.elements.map f).length • n := by
    refine List.sum_le_card_nsmul _ n fun x hx => ?_
    obtain ⟨e, -, rfl⟩ := List.mem_map.mp hx
    exact h e
  rw [List.length_map, smul_eq_mul] at hsum
  exact hsum.trans (Nat.mul_le_mul_right n page.count)

/-- With the keys as they are, every page fits. -/
lemma plainLength_le (page : ListingPage) : page.plainLength ≤ 1540096 := by
  have helements : (page.elements.map ContentsElement.plainLength).sum ≤ 1000 * 1536 := by
    refine sum_elements_le (fun e => ?_) page
    have hkey := e.key_length
    have hmarkup := e.markup_length
    rw [ContentsElement.plainLength]
    omega
  have henvelope := page.envelope_length
  rw [ListingPage.plainLength]
  omega

lemma growth_page_le (page : ListingPage) : page.growth ≤ 4096000 := by
  have helements : (page.elements.map fun e => Deleter.growth e.key).sum ≤ 1000 * 4096 := by
    refine sum_elements_le (fun e => ?_) page
    have hkey := e.key_length
    have hgrowth := Deleter.growth_le e.key
    omega
  rw [ListingPage.growth]
  omega

lemma length_page_le (page : ListingPage) : page.bytes.length ≤ 5636096 := by
  have hplain := plainLength_le page
  have hgrowth := growth_page_le page
  rw [length_page]
  omega

/-! ## The bound -/

/-- What is accumulated is the page. -/
lemma receivedBody_page (h : chunks.flatten = page.bytes) :
    (receivedBody chunks).body = page.bytes ++ [0] ∧
      (receivedBody chunks).bodySize.toNat = page.bytes.length := by
  have hlength := length_page_le page
  have hholds := receivedBody_holds chunks
  rw [h] at hholds
  exact hholds (by omega)

/-- **A page is copied as it was sent**, whatever the status, when it is handed on at all. -/
theorem copied_received {response : Option Response} {statusCode : ℕ} {document : Document}
    (hgot : performGetOnBucket response = .received statusCode document)
    (h : chunks.flatten = page.bytes) :
    (copied response chunks).body = page.bytes ∧
      (copied response chunks).bodySize.toNat = page.bytes.length := by
  have hlength := length_page_le page
  obtain ⟨hbody, hsize⟩ := receivedBody_page h
  have hcut : (goBody chunks).bodySize.toNat = page.bytes.length := by
    rw [goBody, UInt64.toNat_toUInt32, hsize, Nat.mod_eq_of_lt (by omega)]
  have hgo : (goBody chunks).body = page.bytes ++ [0] := hbody
  have hcopied : copied response chunks =
      { body := (goBody chunks).body.take (goBody chunks).bodySize.toNat
        bodySize := (goBody chunks).bodySize } := by
    rw [copied, hgot]
  rw [hcopied]
  refine ⟨?_, hcut⟩
  rw [hcut, hgo, List.take_left]

/-- **A page fits into a buffer exactly when its length does.** -/
theorem fits_iff_length : page.Fits capacity ↔ page.bytes.length ≤ capacity := by
  constructor
  · intro h
    have hone : [page.bytes].flatten = page.bytes := List.flatten_singleton
    rw [← (receivedBody_page hone).2]
    exact (h _ hone).1
  · intro hle chunks hchunks
    have haccumulated : (receivedBody chunks).bodySize.toNat ≤ capacity := by
      rw [(receivedBody_page hchunks).2]
      exact hle
    exact ⟨haccumulated, fun response => (copied_le response chunks).trans haccumulated⟩

/-- **A page fits into the buffers of `downloadList` and `checkAuth` exactly when** what its
entities add is no more than what the page with its keys as they are leaves free. -/
theorem fitsBuffers_iff (page : ListingPage) :
    page.Fits downloadListBuffer ∧ page.Fits checkAuthBuffer ↔
      page.growth ≤ downloadListBuffer - page.plainLength := by
  have hplain := plainLength_le page
  have hsize : downloadListBuffer = 3145728 := rfl
  have hsame : checkAuthBuffer = downloadListBuffer := rfl
  rw [hsame, and_self, fits_iff_length, length_page]
  omega

/-- The page with the most bytes: a thousand keys of 1024 ampersands, and as much markup as there
may be. -/
def widestPage : ListingPage where
  head := List.replicate 4096 32
  elements := List.replicate 1000
    { before := List.replicate 512 32
      key := List.replicate 1024 38
      behind := []
      key_length := by rw [List.length_replicate]
      markup_length := by rw [List.length_replicate, List.length_nil] }
  tail := []
  count := by rw [List.length_replicate]
  envelope_length := by rw [List.length_replicate, List.length_nil]

lemma length_widestPage : widestPage.bytes.length = 5636096 := by
  rw [length_page, ListingPage.plainLength, ListingPage.growth, widestPage]
  simp only [List.map_replicate, List.sum_replicate, ContentsElement.plainLength,
    Deleter.growth_replicate, List.length_replicate, List.length_nil, smul_eq_mul]

/-- **What would be enough for every page.** -/
theorem fits_all_iff : (∀ page : ListingPage, page.Fits capacity) ↔ 5636096 ≤ capacity := by
  constructor
  · intro h
    rw [← length_widestPage]
    exact fits_iff_length.mp (h widestPage)
  · intro h page
    exact fits_iff_length.mpr ((length_page_le page).trans h)

/-! ## A page that does not fit -/

/-- A key of 1021 ampersands and three digits. -/
def ampersandKey (i : ℕ) : Bytes :=
  List.replicate 1021 38 ++ [UInt8.ofNat (48 + i / 100), UInt8.ofNat (48 + i / 10 % 10),
    UInt8.ofNat (48 + i % 10)]

/-- The element of such a key. -/
def ampersandElement (i : ℕ) : ContentsElement where
  before := ascii "<Contents><Key>"
  key := ampersandKey i
  behind := ascii ("</Key><LastModified>2012-01-01T00:00:00.000Z</LastModified>" ++
    "<ETag>&quot;900150983cd24fb0d6963f7d28e17f72&quot;</ETag><Size>3</Size>" ++
    "<StorageClass>STANDARD</StorageClass></Contents>")
  key_length := by
    rw [ampersandKey, List.length_append, List.length_replicate]
    exact le_rfl
  markup_length := by decide +kernel

/-- A page of a thousand such keys. -/
def ampersandPage : ListingPage where
  head := ascii ("<?xml version=\"1.0\" encoding=\"UTF-8\"?>\n" ++
    "<ListBucketResult xmlns=\"http://s3.amazonaws.com/doc/2006-03-01/\"><Name>b</Name>" ++
    "<Prefix></Prefix><Marker></Marker><MaxKeys>1000</MaxKeys><IsTruncated>false</IsTruncated>")
  elements := (List.range 1000).map ampersandElement
  tail := ascii "</ListBucketResult>"
  count := by rw [List.length_map, List.length_range]
  envelope_length := by decide +kernel

lemma growth_ampersandKey (i : ℕ) : 4084 ≤ Deleter.growth (ampersandKey i) := by
  rw [ampersandKey, Deleter.growth_append, Deleter.growth_replicate]
  exact Nat.le_add_right _ _

lemma growth_ampersandPage : 4084000 ≤ ampersandPage.growth := by
  have helements : ampersandPage.elements = (List.range 1000).map ampersandElement := by
    simp only [ampersandPage]
  have hsum : ((List.range 1000).map fun i => Deleter.growth (ampersandKey i)).length • 4084 ≤
      ((List.range 1000).map fun i => Deleter.growth (ampersandKey i)).sum := by
    refine List.card_nsmul_le_sum _ 4084 fun x hx => ?_
    obtain ⟨i, -, rfl⟩ := List.mem_map.mp hx
    exact growth_ampersandKey i
  rw [List.length_map, List.length_range, smul_eq_mul] at hsum
  rw [ListingPage.growth, helements, List.map_map]
  exact hsum

/-- A response with status 200. -/
def pageResponse : Response where
  code := .ok
  responseCode := 200
  headers := ascii "HTTP/1.1 200 OK\r\nContent-Type: application/xml\r\n\r\n"

/-- **More than the buffer holds is copied into it** from a page of a thousand keys. -/
theorem ampersandPage_not_fits :
    ¬ ∀ page : ListingPage, page.Fits downloadListBuffer ∧ page.Fits checkAuthBuffer := by
  intro h
  have hgot : performGetOnBucket (some pageResponse) = .received 200 .unparsable := by
    have hparse : parseHeaders pageResponse.headers =
        some [(ascii "content-type", ascii "application/xml")] := by decide +kernel
    have hstart : startsWith200 pageResponse.headers = true := by decide +kernel
    simp only [performGetOnBucket, Response.go, hparse, hstart]
    rfl
  have hone : [ampersandPage.bytes].flatten = ampersandPage.bytes := List.flatten_singleton
  have hcopied := ((h ampersandPage).1 _ hone).2 (some pageResponse)
  have hgrowth := growth_ampersandPage
  have hsize : downloadListBuffer = 3145728 := rfl
  rw [(copied_received hgot hone).2, length_page] at hcopied
  omega

end RemoteListOfFiles

end Clarc
