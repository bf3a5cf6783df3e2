import Clarc.Listing.ParseListOfFiles

/-!
# A malformed page: `parseListOfFiles` on any body

The body of a listing is whatever the network returned.  A body that is no listing is turned down
with a message before the list is touched.  In a listing, three kinds of elements have their text
taken:  an `ETag`, whose text `extractMd5FromEtag` checks for a null pointer, and a `Key` and an
`IsTruncated`, whose text goes to `strcpy` and `strcmp` as it is.

* `parseListOfFilesCall_eq` — what a call leaves behind, by what becomes of the body;
* `parseNodes_eq_none` — a listing is lost exactly when some `Key` or `IsTruncated` has no text;
* `handled_iff` — **a body is handled exactly when** it is no listing or has no such element.
-/

namespace Clarc

open Bytes

namespace RemoteListOfFiles

/-! ## The call -/

/-- What a call of `parseListOfFiles` leaves behind: the list, what it writes through its three
pointers, and what it returns. -/
structure Called where
  files : List RemoteFile
  isTruncated : Bool
  lastKey : Bytes
  errorResult : Bytes
  result : ℕ
  deriving DecidableEq, Repr

/-- `RemoteListOfFiles::parseListOfFiles`, with all that it writes; `none` when it uses a string
that is absent. -/
def parseListOfFilesCall (files : List RemoteFile) (doc : Document) : Option Called :=
  let c : Called :=
    { files := files, isTruncated := false, lastKey := [], errorResult := [], result := 0 }
  match doc with
  | .unparsable => some { c with errorResult := ascii "Document not parsed successfully" }
  | .rootless => some { c with errorResult := ascii "Empty document" }
  | .rooted (.text _) => some { c with
      errorResult := ascii "Document of the wrong type, root node != ListBucketResult" }
  | .rooted (.element name children) =>
      if name ≠ ascii "ListBucketResult" then
        some { c with
          errorResult := ascii "Document of the wrong type, root node != ListBucketResult" }
      else
        (parseNodes { files := files } children).map fun p =>
          { c with
            files := p.files, isTruncated := p.isTruncated, lastKey := p.lastKey, result := 1 }

/-- What a call leaves behind, from what becomes of the body. -/
def Parsed.called (files : List RemoteFile) : Parsed → Option Called
  | .crashed => none
  | .rejected errorResult => some
      { files := files, isTruncated := false, lastKey := [], errorResult := errorResult,
        result := 0 }
  | .parsed p => some
      { files := p.files, isTruncated := p.isTruncated, lastKey := p.lastKey, errorResult := [],
        result := 1 }

/-- The call does with a body what `downloadList` goes by. -/
theorem parseListOfFilesCall_eq (files : List RemoteFile) (doc : Document) :
    parseListOfFilesCall files doc = (parseListOfFiles files doc).called files := by
  unfold parseListOfFilesCall parseListOfFiles
  rcases doc with _ | _ | ⟨name, children⟩ | content
  · rfl
  · rfl
  · by_cases hname : name = ascii "ListBucketResult"
    · dsimp only
      rw [if_neg (not_not.mpr hname), if_pos hname]
      cases parseNodes { files := files } children with
      | none => rfl
      | some p => rfl
    · dsimp only
      rw [if_pos hname, if_neg hname]
      rfl
  · rfl

/-- The elements of a listing; a document that is none has no elements. -/
def nodesOf : Document → List Xml
  | .rooted (.element name children) => if name = ascii "ListBucketResult" then children else []
  | _ => []

/-- What a `Contents` element may add to the list: at most one file, with the text of one of its
`Key` elements and the md5 in the text of its last `ETag`. -/
def Contributes (children : List Xml) (entry : Option RemoteFile) : Prop :=
  ∀ f ∈ entry, some f.path ∈ textsOf (ascii "Key") children ∧
    ∃ etag, (textsOf (ascii "ETag") children).getLast? = some (some etag) ∧
      f.md5 = (etag.drop 1).dropLast

/-- A body is handled: the call returns; when it returns 0 there is a message, and the list is what
it was; and whatever is added to the list comes from elements with text. -/
def Handled (files : List RemoteFile) (doc : Document) : Prop :=
  ∃ c, parseListOfFilesCall files doc = some c ∧
    (c.result = 0 → c.errorResult ≠ [] ∧ c.files = files) ∧
    ∃ entries, List.Forall₂ Contributes (contentsOf (nodesOf doc)) entries ∧
      c.files = files ++ entries.reduceOption

/-! ## Elements without text -/

/-- A `Key` without text loses the process. -/
lemma parseContents_eq_none (c : Contents) {children : List Xml}
    (h : none ∈ textsOf (ascii "Key") children) : parseContents c children = none := by
  induction children generalizing c with
  | nil => cases h
  | cons node rest ih =>
      rcases node with ⟨name, children⟩ | content
      · rw [parseContents]
        split_ifs with hkey hetag
        · subst hkey
          rw [textsOf_element_self, List.mem_cons] at h
          cases htext : xmlNodeListGetString children with
          | none => rfl
          | some key =>
              rw [htext] at h
              exact ih _ (h.resolve_left (by simp))
        · rw [textsOf_element_ne hkey] at h
          exact ih _ h
        · rw [textsOf_element_ne hkey] at h
          exact ih _ h
      · exact ih _ h

/-- A listing is lost exactly when a `Key` of a `Contents` element or an `IsTruncated` has no text.
-/
theorem parseNodes_eq_none (p : Parse) {nodes : List Xml} :
    parseNodes p nodes = none ↔ ¬ Texts nodes := by
  constructor
  · intro hnone htexts
    rw [parseNodes_eq p htexts] at hnone
    cases hnone
  · intro htexts
    induction nodes generalizing p with
    | nil => exact absurd ⟨by simp [contentsOf], by simp⟩ htexts
    | cons node rest ih =>
        rcases node with ⟨name, children⟩ | content
        · rw [parseNodes]
          split_ifs with hcontents htruncated
          · subst hcontents
            cases hparse : parseContents { lastKey := p.lastKey } children with
            | none => rfl
            | some c =>
                refine ih _ fun hrest => htexts ⟨?_, ?_⟩
                · intro children' hmem hnone
                  rw [contentsOf_contents, List.mem_cons] at hmem
                  rcases hmem with rfl | hmem
                  · rw [parseContents_eq_none _ hnone] at hparse
                    cases hparse
                  · exact hrest.keys children' hmem hnone
                · rw [textsOf_element_ne (by decide)]
                  exact hrest.isTruncated
          · subst htruncated
            cases htext : xmlNodeListGetString children with
            | none => rfl
            | some text =>
                refine ih _ fun hrest => htexts ⟨?_, ?_⟩
                · rw [contentsOf_ne (by decide)]
                  exact hrest.keys
                · rw [textsOf_element_self, htext, List.mem_cons, not_or]
                  exact ⟨by simp, hrest.isTruncated⟩
          · refine ih _ fun hrest => htexts ⟨?_, ?_⟩
            · rw [contentsOf_ne hcontents]
              exact hrest.keys
            · rw [textsOf_element_ne htruncated]
              exact hrest.isTruncated
        · exact ih _ fun hrest => htexts ⟨hrest.keys, hrest.isTruncated⟩

/-- What a `Contents` element lists comes from its texts. -/
lemma contributes_entryOf (children : List Xml) : Contributes children (entryOf children) := by
  intro f hf
  obtain ⟨etag, hkey, hetag, -, hmd5, -⟩ := entryOf_eq_some.mp hf
  refine ⟨?_, etag, hetag, hmd5⟩
  have hmem : f.path ∈ keysOf children := List.mem_of_getLast? hkey
  exact List.reduceOption_mem_iff.mp hmem

lemma texts_nil : Texts [] := ⟨by simp [contentsOf], by simp⟩

/-- A body that is turned down is handled. -/
lemma handled_of_rejected {files : List RemoteFile} {doc : Document} {errorResult : Bytes}
    (hparse : parseListOfFiles files doc = .rejected errorResult) (hnodes : nodesOf doc = [])
    (herror : errorResult ≠ []) : Handled files doc := by
  refine ⟨_, by rw [parseListOfFilesCall_eq, hparse]; rfl, fun _ => ⟨herror, rfl⟩, [], ?_, ?_⟩
  · rw [hnodes]
    exact List.Forall₂.nil
  · exact (List.append_nil files).symm

/-- **A body is handled exactly when** it is no listing, or every `Key` of its `Contents` elements
and every `IsTruncated` has text. -/
theorem handled_iff (files : List RemoteFile) (doc : Document) :
    Handled files doc ↔ Texts (nodesOf doc) := by
  constructor
  · rintro ⟨c, hcall, -, -⟩
    by_contra htexts
    rcases doc with _ | _ | ⟨name, nodes⟩ | content
    · exact htexts texts_nil
    · exact htexts texts_nil
    · by_cases hname : name = ascii "ListBucketResult"
      · rw [nodesOf, if_pos hname] at htexts
        have hnone : parseListOfFilesCall files (.rooted (.element name nodes)) = none := by
          rw [parseListOfFilesCall]
          dsimp only
          rw [if_neg (not_not.mpr hname), (parseNodes_eq_none _).mpr htexts]
          rfl
        rw [hnone] at hcall
        cases hcall
      · rw [nodesOf, if_neg hname] at htexts
        exact htexts texts_nil
    · exact htexts texts_nil
  · intro htexts
    rcases doc with _ | _ | ⟨name, nodes⟩ | content
    · exact handled_of_rejected rfl rfl (by decide)
    · exact handled_of_rejected rfl rfl (by decide)
    · by_cases hname : name = ascii "ListBucketResult"
      · subst hname
        rw [nodesOf, if_pos rfl] at htexts
        obtain ⟨p, hparse, hfiles, -⟩ := parseListOfFiles_exact files htexts
        refine ⟨_, by rw [parseListOfFilesCall_eq, hparse]; rfl, fun h => absurd h Nat.one_ne_zero,
          (contentsOf nodes).map entryOf, ?_, ?_⟩
        · rw [nodesOf, if_pos rfl, List.forall₂_map_right_iff, List.forall₂_same]
          exact fun children _ => contributes_entryOf children
        · rw [hfiles, List.reduceOption, List.filterMap_map]
          rfl
      · have hparse : parseListOfFiles files (.rooted (.element name nodes)) = .rejected
            (ascii "Document of the wrong type, root node != ListBucketResult") := by
          rw [parseListOfFiles, if_neg hname]
        exact handled_of_rejected hparse (if_neg hname) (by decide)
    · exact handled_of_rejected rfl rfl (by decide)

/-- A key without text, as a server may send it. -/
theorem key_without_text_not_handled :
    ¬ ∀ (files : List RemoteFile) (doc : Document), Handled files doc := by
  intro h
  obtain ⟨c, hcall, -, -⟩ := h [] (.rooted (.element (ascii "ListBucketResult")
    [.element (ascii "Contents") [.element (ascii "Key") []]]))
  have hnone : parseListOfFilesCall [] (.rooted (.element (ascii "ListBucketResult")
      [.element (ascii "Contents") [.element (ascii "Key") []]])) = none := by decide
  rw [hnone] at hcall
  cases hcall

end RemoteListOfFiles

end Clarc
