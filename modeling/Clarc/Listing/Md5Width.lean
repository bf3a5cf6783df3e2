import Clarc.Core.Run
import Clarc.Listing.RemoteListOfFiles

/-!
# How long a stored md5 can be

`lookup` copies the md5 of a row with `strcpy` into a buffer of 33 bytes.  An upload stores exactly
32 bytes.  A rebuild stores whatever stood between the first and the last character of the `ETag`
in the listing, however long that is.

The operations on the table are a process whose events are the bytes `lookup` copies, and
**no `ETag` of a stored listing is longer than 34 characters** is what bounds them:

* `parseContents_md5` — the md5 of a listed file is its last `ETag` without the first and the last
  character;
* `downloadList_collect` — the list that is stored has been collected from pages;
* `lookup_fits_run` — in every run whose listings have short `ETag`s, every md5 of the table has at
  most 32 bytes and every lookup copies at most 33;
* `multipart_etag_overflows` — the `ETag` of a multipart upload is longer, and a lookup copies it.
-/

namespace Clarc

open Bytes Sqlite Reactive

namespace RemoteListOfFiles

/-! ## The md5 of a listed file -/

/-- The texts of the `ETag` elements among the children of a `Contents` element. -/
def etags : List Xml → List (Option Bytes)
  | [] => []
  | .text _ :: rest => etags rest
  | .element name children :: rest =>
      if name = ascii "ETag" then xmlNodeListGetString children :: etags rest else etags rest

/-- There is a `Key` element among the children of a `Contents` element. -/
def hasKey : List Xml → Bool
  | [] => false
  | .text _ :: rest => hasKey rest
  | .element name _ :: rest => if name = ascii "Key" then true else hasKey rest

lemma parseContents_md5 : ∀ {contents : List Xml} {c c' : Contents},
    parseContents c contents = some c' →
      c'.md5 = ((etags contents).getLast?.map extractMd5FromEtag).getD c.md5 ∧
        c'.keyFound = (c.keyFound || hasKey contents)
  | [], c, c', h => by
      obtain rfl := Option.some.inj h
      exact ⟨rfl, by simp [hasKey]⟩
  | .text _ :: rest, c, c', h => @parseContents_md5 rest c c' h
  | .element name children :: rest, c, c', h => by
      unfold parseContents at h
      split_ifs at h with hkey hetag
      · split at h
        · cases h
        next key _ =>
          obtain ⟨hmd5, hfound⟩ := parseContents_md5 h
          subst hkey
          have hne : ascii "Key" ≠ ascii "ETag" := by decide
          exact ⟨by rw [hmd5, etags, if_neg hne], by rw [hfound, hasKey, if_pos rfl]; simp⟩
      · obtain ⟨hmd5, hfound⟩ := parseContents_md5 h
        refine ⟨?_, by rw [hfound, hasKey, if_neg hkey]⟩
        rw [hmd5, etags, if_pos hetag, List.getLast?_cons]
        cases (etags rest).getLast? <;> rfl
      · obtain ⟨hmd5, hfound⟩ := parseContents_md5 h
        exact ⟨by rw [hmd5, etags, if_neg hetag], by rw [hfound, hasKey, if_neg hkey]⟩

/-- When a `Contents` element has a key, its last `ETag` is at most 34 characters long. -/
def ShortETag (contents : List Xml) : Prop :=
  hasKey contents = true → ∀ etag ∈ (etags contents).getLast?.join, etag.length ≤ 34

instance (contents : List Xml) : Decidable (ShortETag contents) :=
  inferInstanceAs (Decidable (_ → _))

/-- A child of the root that has a short `ETag`, if it is a `Contents` element at all. -/
def ShortNode : Xml → Prop
  | .element name contents => name = ascii "Contents" → ShortETag contents
  | .text _ => True

instance : DecidablePred ShortNode
  | .element name contents =>
      inferInstanceAs (Decidable (name = ascii "Contents" → ShortETag contents))
  | .text _ => inferInstanceAs (Decidable True)

/-- The `Contents` elements of a listing have short `ETag`s. -/
def ShortETags : Document → Prop
  | .rooted (.element _ children) => ∀ node ∈ children, ShortNode node
  | .rooted (.text _) | .unparsable | .rootless => True

instance : DecidablePred ShortETags
  | .rooted (.element _ children) => inferInstanceAs (Decidable (∀ node ∈ children, ShortNode node))
  | .rooted (.text _) | .unparsable | .rootless => inferInstanceAs (Decidable True)

/-- A file of the list has an md5 of at most 32 bytes. -/
def Narrow (f : RemoteFile) : Prop := f.md5.length ≤ 32

lemma addContents_narrow {p : Parse} {c : Contents} {contents : List Xml}
    (hp : ∀ f ∈ p.files, Narrow f) (hc : parseContents { lastKey := p.lastKey } contents = some c)
    (hshort : ShortETag contents) : ∀ f ∈ (p.addContents c).files, Narrow f := by
  obtain ⟨hmd5, hfound⟩ := parseContents_md5 hc
  unfold Parse.addContents
  split
  next md5 hsome =>
    split_ifs with hkey
    · intro f hf
      rcases List.mem_append.mp hf with hf | hf
      · exact hp f hf
      · rw [List.mem_singleton] at hf
        subst hf
        rw [hfound] at hkey
        rw [hmd5] at hsome
        rcases hlast : (etags contents).getLast? with _ | (_ | etag)
        · rw [hlast] at hsome
          cases hsome
        · rw [hlast] at hsome
          cases hsome
        · have hlen := hshort (by simpa using hkey) etag (by rw [hlast]; rfl)
          rw [hlast] at hsome
          simp only [Option.map_some, Option.getD_some, extractMd5FromEtag] at hsome
          split_ifs at hsome
          obtain rfl := Option.some.inj hsome
          simp only [Narrow, List.length_dropLast, List.length_drop]
          omega
    · exact hp
  · exact hp

lemma parseNodes_narrow : ∀ {nodes : List Xml} {p p' : Parse}, (∀ f ∈ p.files, Narrow f) →
    (∀ node ∈ nodes, ShortNode node) → parseNodes p nodes = some p' → ∀ f ∈ p'.files, Narrow f
  | [], p, p', hp, _, h => by
      obtain rfl := Option.some.inj h
      exact hp
  | .text _ :: rest, p, p', hp, hshort, h =>
      @parseNodes_narrow rest p p' hp (fun c hc => hshort c (List.mem_cons_of_mem _ hc)) h
  | .element name children :: rest, p, p', hp, hshort, h => by
      have hrest := fun c hc => hshort c (List.mem_cons_of_mem _ hc)
      unfold parseNodes at h
      split_ifs at h with hcontents
      · split at h
        · cases h
        next c hc =>
          subst hcontents
          have hadd := addContents_narrow hp hc (hshort _ List.mem_cons_self rfl)
          exact parseNodes_narrow hadd hrest h
      · split at h
        · cases h
        next text _ =>
          exact parseNodes_narrow
            (p := { p with isTruncated := p.isTruncated || text == ascii "true" }) hp hrest h
      · exact parseNodes_narrow hp hrest h

/-- **The md5s of a listing with short `ETag`s are short.** -/
lemma parseListOfFiles_narrow {files : List RemoteFile} {document : Document} {p : Parse}
    (hfiles : ∀ f ∈ files, Narrow f) (hshort : ShortETags document)
    (h : parseListOfFiles files document = .parsed p) : ∀ f ∈ p.files, Narrow f := by
  unfold parseListOfFiles at h
  split at h
  · cases h
  · cases h
  · cases h
  · split_ifs at h
    split at h
    · cases h
    next p' hp =>
      cases h
      exact parseNodes_narrow hfiles hshort hp

/-! ## The list of a whole listing -/

/-- The list that pages fill which are parsed one after another. -/
def collect (files : List RemoteFile) : List Document → Option (List RemoteFile)
  | [] => some files
  | page :: rest =>
      match parseListOfFiles files page with
      | .parsed p => collect p.files rest
      | .rejected _ => none
      | .crashed => none

/-- What a turn of the loop collects comes from at most one page. -/
lemma Listing.next_collect (l : Listing) (response : Option Response) :
    l.next response = .done .crashed ∨ l.next response = .done (.returned false l.files) ∨
      ∃ (l' : Listing) (pages : List Document), l.next response = l'.loop ∧
        collect l.files pages = some l'.files := by
  unfold Listing.next
  split
  · exact Or.inl rfl
  · exact Or.inr (Or.inl rfl)
  · exact Or.inr (Or.inr ⟨_, [], rfl, rfl⟩)
  next body _ =>
    split_ifs
    · exact Or.inr (Or.inl rfl)
    · split
      · exact Or.inl rfl
      · exact Or.inr (Or.inl rfl)
      next p hp => exact Or.inr (Or.inr ⟨_, [body], rfl, by rw [collect, hp]; rfl⟩)

lemma collect_append {files files' : List RemoteFile} {pages : List Document}
    (h : collect files pages = some files') (rest : List Document) :
    collect files (pages ++ rest) = collect files' rest := by
  induction pages generalizing files with
  | nil =>
      obtain rfl := Option.some.inj h
      rfl
  | cons page pages ih =>
      rw [List.cons_append, collect]
      rw [collect] at h
      split at h
      next p hp => exact ih h
      · cases h
      · cases h

/-- **What `downloadList` returns with success has been collected from pages.** -/
theorem downloadList_collect {ω : Type} {c : AmazonCredentials} {useSsl : Bool}
    {server : ω → Request → Option Response × ω} {w w' : ω} {fuel : ℕ} {l : Listing}
    {files : List RemoteFile}
    (h : downloadList c useSsl server fuel w l = some (.returned true files, w')) :
    ∃ pages, collect l.files pages = some files := by
  induction fuel generalizing w l with
  | zero => cases h
  | succ fuel ih =>
      rw [downloadList] at h
      rcases l.next_collect (server w (l.request c useSsl)).1 with
        hn | hn | ⟨l', pages, hn, hcollect⟩
      · rw [hn] at h
        cases h
      · rw [hn] at h
        cases h
      · rw [hn, Listing.loop] at h
        split_ifs at h
        · obtain ⟨rest, hrest⟩ := ih h
          exact ⟨pages ++ rest, by rw [collect_append hcollect, hrest]⟩
        · cases h
          exact ⟨pages, hcollect⟩

lemma collect_narrow {files files' : List RemoteFile} {pages : List Document}
    (hfiles : ∀ f ∈ files, Narrow f) (hshort : ∀ page ∈ pages, ShortETags page)
    (h : collect files pages = some files') : ∀ f ∈ files', Narrow f := by
  induction pages generalizing files with
  | nil =>
      obtain rfl := Option.some.inj h
      exact hfiles
  | cons page pages ih =>
      rw [collect] at h
      split at h
      next p hp =>
        have hp' := parseListOfFiles_narrow hfiles (hshort page List.mem_cons_self) hp
        exact ih hp' (fun q hq => hshort q (List.mem_cons_of_mem _ hq)) h
      · cases h
      · cases h

end RemoteListOfFiles

/-! ## The operations on the table -/

namespace FileListStorage

/-- An operation, with the SQLite calls of it that fail. -/
inductive Operation
  | lookup (fails : Faults) (remotePath : Bytes)
  | store (fails : Faults) (remotePath md5 : Bytes) (mtime : UInt64)
  | truncate (fails : Faults)
  /-- The list comes from pages, and `resolveMtimes` has set its mtimes. -/
  | storeRemoteListOfFiles (fails : ℕ → Faults) (pages : List Document) (mtimes : ℕ → UInt32)
  | calculateListOfFilesToDelete (fails : Faults) (localFiles : LocalFileList)
  | storeDeletedBatch (fails : Faults) (batch : List Bytes)
  /-- The process ends and the next one opens the database. -/
  | reopen

/-- The bytes `lookup` writes to the buffer for the md5: the string with its terminator. -/
def copied : Option (Bytes × UInt64) → ℕ
  | some (md5, _) => (cString md5).length + 1
  | none => 1

/-- The operations one after another, on one connection. -/
def storage : Process Db Operation ℕ
  | c, .lookup fails remotePath =>
      some (((lookup fails remotePath).runOn c).2,
        [copied ((lookup fails remotePath).runOn c).1])
  | c, .store fails remotePath md5 mtime =>
      some (((store fails remotePath md5 mtime).runOn c).2, [])
  | c, .truncate fails => some (((truncate fails).runOn c).2, [])
  | c, .storeRemoteListOfFiles fails pages mtimes =>
      match RemoteListOfFiles.collect [] pages with
      | none => none
      | some files =>
          some (((storeRemoteListOfFiles fails
            (files.mapIdx fun i f => { f with mtime := mtimes i })).runOn c).2, [])
  | c, .calculateListOfFilesToDelete fails localFiles =>
      some (((calculateListOfFilesToDelete fails localFiles).runOn c).2, [])
  | c, .storeDeletedBatch fails batch => some (((storeDeletedBatch fails batch).runOn c).2, [])
  | c, .reopen => some ({ committed := c.committed }, [])

/-- The listings that are stored have short `ETag`s. -/
def Operation.Short : Operation → Prop
  | .storeRemoteListOfFiles _ pages _ => ∀ page ∈ pages, RemoteListOfFiles.ShortETags page
  | _ => True

instance : DecidablePred Operation.Short
  | .storeRemoteListOfFiles _ pages _ =>
      inferInstanceAs (Decidable (∀ page ∈ pages, RemoteListOfFiles.ShortETags page))
  | .lookup .. | .store .. | .truncate .. | .calculateListOfFilesToDelete ..
  | .storeDeletedBatch .. | .reopen => inferInstanceAs (Decidable True)

/-- Every md5 has at most 32 bytes. -/
def NarrowRows (t : Files) : Prop := ∀ key row, t.lookup key = some row → row.md5.length ≤ 32

lemma narrowRows_empty : NarrowRows ∅ := by
  intro key row h
  rw [AList.lookup_empty] at h
  cases h

lemma NarrowRows.insert {t : Files} (h : NarrowRows t) {key : Bytes} {row : Row}
    (hrow : row.md5.length ≤ 32) : NarrowRows (t.insert key row) := by
  intro key' row' h'
  by_cases hkey : key' = key
  · subst hkey
    rw [AList.lookup_insert] at h'
    exact Option.some.inj h' ▸ hrow
  · rw [AList.lookup_insert_ne hkey] at h'
    exact h key' row' h'

lemma NarrowRows.erase {t : Files} (h : NarrowRows t) (key : Bytes) : NarrowRows (t.erase key) := by
  intro key' row' h'
  by_cases hkey : key' = key
  · subst hkey
    rw [AList.lookup_erase] at h'
    cases h'
  · rw [AList.lookup_erase_ne hkey] at h'
    exact h key' row' h'

/-- A lookup in a table of short md5s stays within the buffer. -/
lemma copied_lookup {c : Db} (h : Connection.Tables NarrowRows c) (fails : Faults)
    (remotePath : Bytes) : copied ((lookup fails remotePath).runOn c).1 ≤ 33 := by
  have hcString : ∀ s : Bytes, (cString s).length ≤ s.length :=
    fun s => (List.takeWhile_prefix _).length_le
  rcases lookup_cases fails remotePath c with hrun | hrun
  · rw [hrun]
    simp [copied]
  · rw [hrun]
    rcases hrow : c.view.lookup remotePath with _ | row
    · simp [copied, cString]
    · have hlen := h.view remotePath row hrow
      have hc := hcString row.md5
      simp only [copied]
      omega

/-- **One operation** keeps the md5s short, when a listing it stores has short `ETag`s. -/
lemma storage_step {c c' : Db} {op : Operation} {es : List ℕ}
    (h : Connection.Tables NarrowRows c) (hop : op.Short) (hstep : storage c op = some (c', es)) :
    Connection.Tables NarrowRows c' ∧ ∀ n ∈ es, n ≤ 33 := by
  cases op with
  | lookup fails remotePath =>
      cases hstep
      refine ⟨?_, ?_⟩
      · rcases lookup_cases fails remotePath c with hrun | hrun
        · rw [hrun]
          exact h
        · rw [hrun]
          exact h
      · intro n hn
        rw [List.mem_singleton.mp hn]
        exact copied_lookup h fails remotePath
  | store fails remotePath md5 mtime =>
      cases hstep
      refine ⟨store_tables fails (fun t ht => ht.insert ?_) c h, fun n hn => by cases hn⟩
      exact List.length_take_le 32 md5
  | truncate fails =>
      cases hstep
      exact ⟨truncate_tables fails narrowRows_empty c h, fun n hn => by cases hn⟩
  | storeRemoteListOfFiles fails pages mtimes =>
      simp only [storage] at hstep
      split at hstep
      · cases hstep
      next files hfiles =>
        cases hstep
        have hnarrow := RemoteListOfFiles.collect_narrow (fun f hf => by cases hf) hop hfiles
        refine ⟨storeChunks_tables fails (fun f hf t ht => ht.insert ?_) _ c h,
          fun n hn => by cases hn⟩
        obtain ⟨i, hi, rfl⟩ := List.mem_mapIdx.mp hf
        exact hnarrow _ (List.getElem_mem hi)
  | calculateListOfFilesToDelete fails localFiles =>
      cases hstep
      exact ⟨calculateListOfFilesToDelete_tables fails localFiles c h, fun n hn => by cases hn⟩
  | storeDeletedBatch fails batch =>
      cases hstep
      exact ⟨storeDeletedBatch_tables fails (fun k t ht => ht.erase k) batch c h,
        fun n hn => by cases hn⟩
  | reopen =>
      cases hstep
      exact ⟨Connection.tables_of_settled rfl h.committed, fun n hn => by cases hn⟩

/-- **The buffer is never overrun**, from an empty table on, in any run whose stored listings have
`ETag`s of at most 34 characters. -/
theorem lookup_fits_run {es : List ℕ} {c : Db}
    (h : Run storage (always fun op _ => op.Short) { committed := ∅ } () es c ()) :
    Connection.Tables NarrowRows c ∧ ∀ n ∈ es, n ≤ 33 := by
  refine h.invariant (I := fun es c _ => Connection.Tables NarrowRows c ∧ ∀ n ∈ es, n ≤ 33) ?_ ?_
  · exact ⟨Connection.tables_of_settled rfl narrowRows_empty, fun n hn => by cases hn⟩
  · rintro es c _ op fs c' _ ⟨hc, hes⟩ hstep hop
    obtain ⟨hc', hfs⟩ := storage_step hc hop hstep
    refine ⟨hc', fun n hn => ?_⟩
    rcases List.mem_append.mp hn with hn | hn
    · exact hes n hn
    · exact hfs n hn

/-- A listing with one file. -/
def listingOf (key etag : String) : Document :=
  .rooted (.element (ascii "ListBucketResult") [
    .element (ascii "Contents") [
      .element (ascii "Key") [.text (ascii key)],
      .element (ascii "ETag") [.text (ascii etag)]],
    .element (ascii "IsTruncated") [.text (ascii "false")]])

/-- A rebuild, an upload over a row and lookups of both rows. -/
theorem lookup_fits_run_sample :
    ∃ es c, Run storage (always fun op _ => op.Short) { committed := ∅ } () es c () ∧
      es = [33, 33] ∧ Connection.Tables NarrowRows c ∧ ∀ n ∈ es, n ≤ 33 := by
  obtain ⟨es, c, hrun, hes⟩ := run_of_exec storage { committed := ∅ } [
      .truncate noFaults,
      .storeRemoteListOfFiles (fun _ => noFaults)
        [listingOf "a" "\"900150983cd24fb0d6963f7d28e17f72\""] (fun _ => 1000),
      .lookup noFaults (ascii "a"),
      .store noFaults (ascii "b") (ascii "d41d8cd98f00b204e9800998ecf8427e") 1000,
      .reopen,
      .lookup noFaults (ascii "b")]
    (fun op _ => op.Short) (fun es _ => es = [33, 33]) (by decide)
  exact ⟨es, c, hrun, hes, lookup_fits_run hrun⟩

/-- The `ETag` of a multipart upload is 34 characters between the quotes: `lookup` copies 35 bytes
into the buffer of 33. -/
theorem multipart_etag_overflows :
    ¬ ∀ es c, Run storage anything { committed := ∅ } () es c () →
      Connection.Tables NarrowRows c ∧ ∀ n ∈ es, n ≤ 33 := by
  intro hall
  obtain ⟨es, c, hrun, hes⟩ := run_of_exec storage { committed := ∅ } [
      .truncate noFaults,
      .storeRemoteListOfFiles (fun _ => noFaults)
        [listingOf "a" "\"900150983cd24fb0d6963f7d28e17f72-2\""] (fun _ => 1000),
      .lookup noFaults (ascii "a")]
    (fun _ _ => True) (fun es _ => es = [35]) (by decide)
  have hfits := (hall es c hrun).2 35 (by rw [hes]; exact List.mem_singleton.mpr rfl)
  omega

end FileListStorage

end Clarc
