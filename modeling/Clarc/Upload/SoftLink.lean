import Clarc.Http.HeaderLines
import Clarc.Http.ReadFunction
import Clarc.Upload.RequestHeaders

/-!
# The target of a symbolic link: `uploadFile`

The target of a link is read into 1024 bytes.  A larger buffer is tried when `readlink` is negative,
which it is for a path that is no link, and not for a target that is too long: that is cut.  The
terminator goes behind what was read, and so behind the buffer when it is full.

* `softLinkData_eq` — what is read is what the headers and the body are made of;
* `storedWhole_iff` — **a link is stored whole exactly when** its target has fewer than 1024 bytes.
-/

namespace Clarc

open Bytes

/-! ## Reading a link -/

/-- `readlink` into `n` bytes: it copies what fits, and does not say that something did not. -/
def readlink (target : Bytes) (n : ℕ) : Option Bytes := some (target.take n)

/-- `softLinkData` after the calls of `readlink`: the size of the buffer, and what was read. -/
structure SoftLinkData where
  capacity : ℕ
  read : Bytes
  deriving DecidableEq, Repr

/-- Where the terminator goes: `softLinkData[linkLength]=0`. -/
def SoftLinkData.linkLength (d : SoftLinkData) : ℕ := d.read.length

/-- The string that the code goes on with. -/
def SoftLinkData.string (d : SoftLinkData) : Bytes := cString (d.read ++ [0])

/-- The two calls of `readlink`, `none` for a negative result; without a result there is no place
for the terminator. -/
def readSoftLink (call : ℕ → Option Bytes) : Option SoftLinkData :=
  match call 1024 with
  | some read => some { capacity := 1024, read := read }
  | none => (call (1024 * 100)).map fun read => { capacity := 1024 * 100, read := read }

namespace Uploader

variable {u : Uploader} {localPath remotePath contentType target : Bytes} {url : Option Bytes}
  {fileInfo : Stat} {system : System} {request : Request}

/-- **What was read goes into the request.** -/
theorem softLinkData_eq (hlink : fileInfo.isSoftLink = true)
    (htarget : system.target = some target) :
    softLinkData fileInfo system =
      (readSoftLink (readlink target)).map fun d => some d.string := by
  rw [softLinkData, if_pos hlink, htarget]
  simp [readSoftLink, readlink, SoftLinkData.string, cString_append_nul]

/-- The link is stored whole: the terminator is written into the buffer, the body is the target, and
libcurl gets all of it through buffers of 4096 bytes or more; and the header with the target is
there once. -/
def StoredWhole (target : Bytes) (request : Request) : Prop :=
  (∃ d, readSoftLink (readlink target) = some d ∧ d.linkLength < d.capacity) ∧
    (∃ postData, request.body = .data postData ∧ postData = target ∧
      ∀ buffers : ℕ → MicroCurl.Buffer, (∀ n, 4096 ≤ (buffers n).totalBytes) →
        MicroCurl.Streamed postData buffers) ∧
    request.headers.filter (fun h => h.1 == ascii "x-amz-meta-symlink") =
      [(ascii "x-amz-meta-symlink", target)]

lemma filter_symlink {headers : List (Bytes × Bytes)}
    (h : ascii "x-amz-meta-symlink" ∉ headers.map Prod.fst) :
    headers.filter (fun h => h.1 == ascii "x-amz-meta-symlink") = [] := by
  rw [List.filter_eq_nil_iff]
  intro g hg hname
  rw [beq_iff_eq] at hname
  exact h (List.mem_map.mpr ⟨g, hg, hname⟩)

lemma symlink_notMem_acl (u : Uploader) :
    ascii "x-amz-meta-symlink" ∉ u.aclHeaders.map Prod.fst := by
  have hall : ∀ useRrs : Bool, ascii "x-amz-meta-symlink" ∉
      [ascii "x-amz-acl"] ++ if useRrs then [ascii "x-amz-storage-class"] else [] := by
    decide
  have hnames := hall u.useRrs
  rw [aclHeaders, List.map_append, apply_ite (List.map Prod.fst)]
  exact hnames

/-- The body of the request for a link, and its header. -/
lemma uploadFileRequest_link (hlink : fileInfo.isSoftLink = true)
    (htarget : system.target = some target)
    (h : u.uploadFileRequest localPath remotePath url contentType fileInfo system =
      some request) :
    request.body = .data (cString (target.take 1024)) ∧
      request.headers.filter (fun h => h.1 == ascii "x-amz-meta-symlink") =
        [(ascii "x-amz-meta-symlink", cString (target.take 1024))] := by
  have hdata : softLinkData fileInfo system = some (some (cString (target.take 1024))) := by
    rw [softLinkData, if_pos hlink, htarget]
    rfl
  obtain ⟨user, group, link, -, -, hsome, hheaders⟩ := uploadFileRequest_headers h
  obtain rfl : some (cString (target.take 1024)) = link := Option.some.inj (hdata.symm.trans hsome)
  refine ⟨?_, ?_⟩
  · unfold uploadFileRequest at h
    split at h
    next ids link hids hlink' =>
      obtain rfl : some (cString (target.take 1024)) = link :=
        Option.some.inj (hdata.symm.trans hlink')
      cases h
      rfl
    · cases h
  · have hids : ascii "x-amz-meta-symlink" ∉
        [(ascii "x-amz-meta-uid", decimal fileInfo.uid.toNat ++ ascii " " ++ user),
          (ascii "x-amz-meta-gid", decimal fileInfo.gid.toNat ++ ascii " " ++ group)].map
            Prod.fst := by
      simp only [List.map_cons, List.map_nil]
      decide
    have hstat : ascii "x-amz-meta-symlink" ∉ (statHeaders fileInfo).map Prod.fst := by
      simp only [statHeaders, List.map_cons, List.map_nil]
      decide
    have hrest : ascii "x-amz-meta-symlink" ∉
        [(ascii "Content-type", contentType), (ascii "Expect", [])].map Prod.fst := by
      simp only [List.map_cons, List.map_nil]
      decide
    have hpath : (ascii "x-amz-meta-localpath" == ascii "x-amz-meta-symlink") = false := by
      decide
    rw [hheaders]
    simp only [List.filter_append, filter_symlink hids, filter_symlink u.symlink_notMem_acl,
      filter_symlink hstat, filter_symlink hrest, linkHeaders]
    simp [hpath]

/-- **A link is stored whole exactly when its target leaves room for the terminator.** -/
theorem storedWhole_iff (hlink : fileInfo.isSoftLink = true) (htarget : system.target = some target)
    (hnul : 0 ∉ target) (hlength : 1 ≤ target.length ∧ target.length ≤ 4095)
    (hrequest : u.uploadFileRequest localPath remotePath url contentType fileInfo system =
      some request) : StoredWhole target request ↔ target.length < 1024 := by
  obtain ⟨hbody, hheader⟩ := uploadFileRequest_link hlink htarget hrequest
  constructor
  · rintro ⟨⟨d, hd, hinside⟩, -, -⟩
    obtain rfl := Option.some.inj hd
    rw [SoftLinkData.linkLength, List.length_take] at hinside
    dsimp only at hinside
    omega
  · intro hshort
    have hwhole : cString (target.take 1024) = target := by
      rw [List.take_of_length_le hshort.le, cString_eq_self hnul]
    rw [hwhole] at hbody hheader
    refine ⟨⟨_, rfl, ?_⟩, ⟨target, hbody, rfl, ?_⟩, hheader⟩
    · rw [SoftLinkData.linkLength, List.length_take]
      dsimp only
      omega
    · intro buffers hlarge
      have hpos : ∀ n, 0 < (buffers n).totalBytes := fun n => by
        have := hlarge n
        omega
      refine (MicroCurl.streamed_iff hnul hpos).mpr fun n hfull => ?_
      -- no buffer is ever filled
      have hroom : 4096 ≤ MicroCurl.room buffers (n + 1) := by
        refine (hlarge 0).trans ?_
        exact Finset.single_le_sum (f := fun i => (buffers i).totalBytes)
          (fun i _ => Nat.zero_le _) (Finset.mem_range.mpr (Nat.succ_pos n))
      omega

/-- A link to a file beside it. -/
theorem storedWhole_iff_sample :
    ∃ request, plainUploader.uploadFileRequest (ascii "/home/a") (ascii "a") none
        (guessContentType (ascii "a")) ⟨0xA1FF, 6, 1000, 0, 0⟩ (linkTo (ascii "target")) =
          some request ∧ StoredWhole (ascii "target") request := by
  obtain ⟨request, hrequest⟩ := exists_linkRequest
  exact ⟨request, hrequest,
    (storedWhole_iff (by decide) rfl (by decide) (by decide) hrequest).mpr (by decide)⟩

/-- A target of 1024 bytes fills the buffer, and the terminator goes behind it. -/
theorem long_target_not_storedWhole :
    ¬ ∀ (u : Uploader) (localPath remotePath contentType target : Bytes) (url : Option Bytes)
      (fileInfo : Stat) (system : System) (request : Request),
        fileInfo.isSoftLink = true → system.target = some target → 0 ∉ target →
          1 ≤ target.length ∧ target.length ≤ 4095 →
            u.uploadFileRequest localPath remotePath url contentType fileInfo system =
              some request → StoredWhole target request := by
  intro h
  have hlength : (List.replicate 1024 (97 : UInt8)).length = 1024 := List.length_replicate
  have hnul : (0 : UInt8) ∉ List.replicate 1024 (97 : UInt8) := by
    rw [List.mem_replicate]
    decide
  obtain ⟨request, hrequest⟩ : ∃ request, plainUploader.uploadFileRequest (ascii "/home/a")
      (ascii "a") none [] ⟨0xA1FF, 6, 1000, 0, 0⟩ (linkTo (List.replicate 1024 97)) =
        some request := ⟨_, rfl⟩
  obtain ⟨⟨d, hd, hinside⟩, -, -⟩ := h plainUploader (ascii "/home/a") (ascii "a") []
    (List.replicate 1024 97) none ⟨0xA1FF, 6, 1000, 0, 0⟩ (linkTo (List.replicate 1024 97)) request
    (by decide) rfl hnul (by rw [hlength]; decide) hrequest
  obtain rfl := Option.some.inj hd
  rw [SoftLinkData.linkLength, List.length_take, hlength] at hinside
  exact absurd hinside (by decide)

end Uploader

end Clarc
