import Clarc.Listing.RemoteListOfFiles

/-!
# What a page lists: `parseListOfFiles`

Two nested loops go over the children of the root and over the children of each `Contents`.  The
inner one writes every `Key` it meets into one buffer, which is also the marker of the next page,
and what it remembers of the element itself is only that there was a key, and the md5 of the last
`ETag`.

Here the page is read without loops: `contentsOf` are its `Contents` elements, `keysOf` and
`textsOf` the texts in one of them, `entryOf` the file that one of them lists.

* `parseContents_eq` — what the inner loop leaves behind;
* `entryOf_eq_some` — when an element lists a file, and which;
* `parseListOfFiles_exact` — **the files of a page are the entries of its `Contents` elements**, in
  document order: each from the last key and the last `ETag` of one and the same element.
-/

namespace Clarc

open Bytes

namespace RemoteListOfFiles

/-! ## The elements of a page -/

/-- The texts of the elements of this name, an absent one for an element without text. -/
def textsOf (name : Bytes) (nodes : List Xml) : List (Option Bytes) :=
  nodes.filterMap fun node => match node with
    | .element n children => if n = name then some (xmlNodeListGetString children) else none
    | .text _ => none

/-- The keys among the children of a `Contents` element. -/
def keysOf (children : List Xml) : List Bytes := (textsOf (ascii "Key") children).reduceOption

/-- The `Contents` elements, each by its children. -/
def contentsOf (nodes : List Xml) : List (List Xml) :=
  nodes.filterMap fun node => match node with
    | .element n children => if n = ascii "Contents" then some children else none
    | .text _ => none

/-- The md5 that a `Contents` element ends with: that of its last `ETag`, if there is one. -/
def md5Of (children : List Xml) (md5 : Option Bytes) : Option Bytes :=
  match (textsOf (ascii "ETag") children).getLast? with
  | some etag => extractMd5FromEtag etag
  | none => md5

/-- The file that a `Contents` element lists. -/
def entryOf (children : List Xml) : Option RemoteFile :=
  match (keysOf children).getLast?, (textsOf (ascii "ETag") children).getLast? with
  | some key, some (some etag) =>
      if 3 ≤ etag.length then some { path := key, md5 := (etag.drop 1).dropLast } else none
  | _, _ => none

/-- No `Key` of a `Contents` element and no `IsTruncated` is without text. -/
structure Texts (nodes : List Xml) : Prop where
  keys : ∀ children ∈ contentsOf nodes, none ∉ textsOf (ascii "Key") children
  isTruncated : none ∉ textsOf (ascii "IsTruncated") nodes

variable {name : Bytes} {children rest : List Xml} {content : Bytes}

@[simp] lemma textsOf_nil : textsOf name [] = [] := rfl

@[simp] lemma textsOf_text : textsOf name (.text content :: rest) = textsOf name rest := rfl

lemma textsOf_element_self :
    textsOf name (.element name children :: rest) =
      xmlNodeListGetString children :: textsOf name rest := by
  simp [textsOf]

lemma textsOf_element_ne {n : Bytes} (h : n ≠ name) :
    textsOf name (.element n children :: rest) = textsOf name rest := by
  simp [textsOf, h]

@[simp] lemma contentsOf_text : contentsOf (.text content :: rest) = contentsOf rest := rfl

lemma contentsOf_contents :
    contentsOf (.element (ascii "Contents") children :: rest) = children :: contentsOf rest := by
  simp [contentsOf]

lemma contentsOf_ne (h : name ≠ ascii "Contents") :
    contentsOf (.element name children :: rest) = contentsOf rest := by
  simp [contentsOf, h]

/-- **When a `Contents` element lists a file**: it has a key, and its last `ETag` has three
characters or more. -/
lemma entryOf_eq_some {f : RemoteFile} :
    entryOf children = some f ↔ ∃ etag, (keysOf children).getLast? = some f.path ∧
      (textsOf (ascii "ETag") children).getLast? = some (some etag) ∧ 3 ≤ etag.length ∧
      f.md5 = (etag.drop 1).dropLast ∧ f.mtime = 0 := by
  obtain ⟨path, md5, mtime⟩ := f
  rw [entryOf]
  rcases (keysOf children).getLast? with _ | key
  · simp
  rcases (textsOf (ascii "ETag") children).getLast? with _ | _ | etag
  · simp
  · simp
  · dsimp only
    split_ifs with hlen
    · constructor
      · rintro ⟨⟩
        exact ⟨etag, rfl, rfl, hlen, rfl, rfl⟩
      · rintro ⟨_, ⟨⟩, ⟨⟩, -, rfl, rfl⟩
        rfl
    · constructor
      · rintro ⟨⟩
      · rintro ⟨_, -, ⟨⟩, hlen', -⟩
        exact absurd hlen' hlen

/-! ## One element -/

/-- What the loop over the children of a `Contents` element leaves behind. -/
lemma parseContents_eq (c : Contents) (h : none ∉ textsOf (ascii "Key") children) :
    parseContents c children = some {
      lastKey := (keysOf children).getLast?.getD c.lastKey
      keyFound := c.keyFound || (keysOf children).getLast?.isSome
      md5 := md5Of children c.md5 } := by
  induction children generalizing c with
  | nil => simp [parseContents, keysOf, md5Of]
  | cons node rest ih =>
      rcases node with ⟨name, children⟩ | content
      · rw [parseContents]
        split_ifs with hkey hetag
        · subst hkey
          rw [textsOf_element_self, List.mem_cons, not_or] at h
          obtain ⟨key, hkey⟩ := Option.ne_none_iff_exists'.mp (Ne.symm h.1)
          have hkeys : keysOf (.element (ascii "Key") children :: rest) = key :: keysOf rest := by
            rw [keysOf, textsOf_element_self, hkey, List.reduceOption_cons_of_some, keysOf]
          have hmd5 : ∀ md5, md5Of (.element (ascii "Key") children :: rest) md5 =
              md5Of rest md5 := by
            intro md5
            rw [md5Of, textsOf_element_ne (by decide), md5Of]
          rw [hkey]
          dsimp only
          rw [ih _ h.2, hkeys, hmd5, List.getLast?_cons]
          simp
        · subst hetag
          rw [textsOf_element_ne (by decide)] at h
          have hkeys : keysOf (.element (ascii "ETag") children :: rest) = keysOf rest := by
            rw [keysOf, textsOf_element_ne (by decide), keysOf]
          have hmd5 : md5Of (.element (ascii "ETag") children :: rest) c.md5 =
              md5Of rest (extractMd5FromEtag (xmlNodeListGetString children)) := by
            rw [md5Of, textsOf_element_self, List.getLast?_cons, md5Of]
            rcases (textsOf (ascii "ETag") rest).getLast? with _ | etag <;> rfl
          rw [ih _ h, hkeys, hmd5]
        · rw [textsOf_element_ne hkey] at h
          have hkeys : keysOf (.element name children :: rest) = keysOf rest := by
            rw [keysOf, textsOf_element_ne hkey, keysOf]
          have hmd5 : md5Of (.element name children :: rest) c.md5 = md5Of rest c.md5 := by
            rw [md5Of, textsOf_element_ne hetag, md5Of]
          rw [ih _ h, hkeys, hmd5]
      · exact ih _ h

/-- What a `Contents` element adds to the page. -/
lemma addContents_parseContents (p : Parse) :
    p.addContents {
      lastKey := (keysOf children).getLast?.getD p.lastKey
      keyFound := false || (keysOf children).getLast?.isSome
      md5 := md5Of children none } =
    { p with
      lastKey := (keysOf children).getLast?.getD p.lastKey
      files := p.files ++ (entryOf children).toList } := by
  rw [Parse.addContents, entryOf, md5Of]
  rcases (keysOf children).getLast? with _ | key
  · rcases (textsOf (ascii "ETag") children).getLast? with _ | etag
    · simp
    · rcases hmd5 : extractMd5FromEtag etag with _ | md5 <;> simp [hmd5]
  · rcases (textsOf (ascii "ETag") children).getLast? with _ | _ | etag
    · simp
    · simp [extractMd5FromEtag]
    · by_cases hlen : etag.length < 3
      · simp [extractMd5FromEtag, hlen]
      · simp [extractMd5FromEtag, hlen, not_lt.mp hlen]

/-! ## The page -/

lemma Texts.tail {node : Xml} (h : Texts (node :: rest)) : Texts rest := by
  rcases node with ⟨name, children⟩ | content
  · constructor
    · intro children' hmem
      refine h.keys children' ?_
      by_cases hname : name = ascii "Contents"
      · subst hname
        rw [contentsOf_contents]
        exact List.mem_cons_of_mem _ hmem
      · rwa [contentsOf_ne hname]
    · intro hmem
      refine h.isTruncated ?_
      by_cases hname : name = ascii "IsTruncated"
      · subst hname
        rw [textsOf_element_self]
        exact List.mem_cons_of_mem _ hmem
      · rwa [textsOf_element_ne hname]
  · exact ⟨h.keys, h.isTruncated⟩

/-- What the loop over the children of the root leaves behind. -/
lemma parseNodes_eq {nodes : List Xml} (p : Parse) (h : Texts nodes) :
    parseNodes p nodes = some {
      files := p.files ++ (contentsOf nodes).filterMap entryOf
      lastKey := ((contentsOf nodes).flatMap keysOf).getLast?.getD p.lastKey
      isTruncated := p.isTruncated ||
        decide (some (ascii "true") ∈ textsOf (ascii "IsTruncated") nodes) } := by
  induction nodes generalizing p with
  | nil => simp [parseNodes, contentsOf]
  | cons node rest ih =>
      rcases node with ⟨name, children⟩ | content
      · rw [parseNodes]
        split_ifs with hcontents htruncated
        · subst hcontents
          have hkeys : none ∉ textsOf (ascii "Key") children :=
            h.keys children (by rw [contentsOf_contents]; exact List.mem_cons_self)
          rw [parseContents_eq { lastKey := p.lastKey } hkeys]
          dsimp only
          rw [addContents_parseContents, ih _ h.tail, contentsOf_contents,
            textsOf_element_ne (by decide), List.flatMap_cons, List.getLast?_append]
          rcases hentry : entryOf children with _ | f <;>
            rcases ((contentsOf rest).flatMap keysOf).getLast? with _ | key <;> simp [hentry]
        · subst htruncated
          have htext := h.isTruncated
          rw [textsOf_element_self, List.mem_cons, not_or] at htext
          obtain ⟨text, htext⟩ := Option.ne_none_iff_exists'.mp (Ne.symm htext.1)
          rw [htext]
          dsimp only
          rw [ih _ h.tail, contentsOf_ne (by decide), textsOf_element_self, htext]
          simp [Bool.or_assoc, beq_eq_decide, eq_comm]
        · rw [ih _ h.tail, contentsOf_ne hcontents, textsOf_element_ne htruncated]
      · exact ih _ h.tail

/-- **The files of a page are the entries of its `Contents` elements**, in document order and behind
the files collected before.  The marker of the next page is the last key of the document, and the
page is truncated when an `IsTruncated` says exactly `true`. -/
theorem parseListOfFiles_exact (files : List RemoteFile) {nodes : List Xml} (h : Texts nodes) :
    ∃ p, parseListOfFiles files (.rooted (.element (ascii "ListBucketResult") nodes)) =
        .parsed p ∧
      p.files = files ++ (contentsOf nodes).filterMap entryOf ∧
      p.lastKey = ((contentsOf nodes).flatMap keysOf).getLast?.getD [] ∧
      (p.isTruncated = true ↔ some (ascii "true") ∈ textsOf (ascii "IsTruncated") nodes) := by
  refine ⟨{
    files := files ++ (contentsOf nodes).filterMap entryOf
    lastKey := ((contentsOf nodes).flatMap keysOf).getLast?.getD []
    isTruncated := decide (some (ascii "true") ∈ textsOf (ascii "IsTruncated") nodes) },
    ?_, rfl, rfl, decide_eq_true_iff⟩
  rw [parseListOfFiles, if_pos rfl, parseNodes_eq { files := files } h]
  simp

/-- A page that lists two files: the first element has two keys, and the one behind it has none. -/
def samplePage : List Xml :=
  [.element (ascii "Contents") [.element (ascii "ETag") [.text (ascii "\"1\"")],
      .element (ascii "Key") [.text (ascii "b")], .element (ascii "Key") [.text (ascii "a")]],
    .text (ascii "\n"),
    .element (ascii "Contents") [.element (ascii "ETag") [.text (ascii "\"2\"")]],
    .element (ascii "IsTruncated") [.text (ascii "true")],
    .element (ascii "Contents") [.element (ascii "Key") [.text (ascii "c")],
      .element (ascii "ETag") [.text (ascii "\"3\"")]]]

theorem parseListOfFiles_exact_sample :
    ∃ p, parseListOfFiles [] (.rooted (.element (ascii "ListBucketResult") samplePage)) =
        .parsed p ∧
      p.files = [⟨ascii "a", ascii "1", 0⟩, ⟨ascii "c", ascii "3", 0⟩] ∧
      p.lastKey = ascii "c" ∧ p.isTruncated = true := by
  have htexts : Texts samplePage := ⟨by decide, by decide⟩
  obtain ⟨p, hparse, hfiles, hkey, htruncated⟩ := parseListOfFiles_exact [] htexts
  refine ⟨p, hparse, ?_, ?_, htruncated.mpr (by decide)⟩
  · rw [hfiles]
    decide
  · rw [hkey]
    decide

end RemoteListOfFiles

end Clarc
