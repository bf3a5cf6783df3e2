import Clarc.Delete.Document
import Clarc.Hash.Base64
import Clarc.Hash.Md5
import Clarc.Upload.UploadFile

/-!
# Digests as text

The program writes the md5 of a file as 32 hexadecimal digits, to compare it with the one a row has
from an `ETag`, and that of a deletion document as base64, into the header by which the server
checks the document.

* `unchanged_iff` — **a file passes for unchanged exactly when its MD5 is that of the bytes that the
  server received**, however the file is read;
* `base64Decode_contentMd5` — **the header of a POST decodes to the MD5 of its document.**
-/

namespace Clarc

open Bytes BlockHash

/-! ## Hexadecimal -/

/-- `%02x`. -/
def hexByte (b : UInt8) : Bytes :=
  let digits := ascii "0123456789abcdef"
  [digits.getD (b / 16).toNat 0, digits.getD (b % 16).toNat 0]

/-- The digest as text. -/
def hex (digest : Bytes) : Bytes := digest.flatMap hexByte

lemma hexByte_injective : Function.Injective hexByte := by
  have hread : ∀ b : UInt8, ((hexByte b).mapM hexValue).map (·.foldl (fun n d => 16 * n + d) 0) =
      some b := by
    decide +kernel
  intro a b h
  have ha := hread a
  rw [h, hread b] at ha
  exact (Option.some.inj ha).symm

lemma length_hex (digest : Bytes) : (hex digest).length = 2 * digest.length := by
  induction digest with
  | nil => rfl
  | cons b digest ih =>
      have hcons : hex (b :: digest) = hexByte b ++ hex digest := rfl
      rw [hcons, List.length_append, ih, List.length_cons, hexByte, List.length_cons,
        List.length_singleton]
      omega

lemma hex_injective : Function.Injective hex := by
  intro a
  induction a with
  | nil =>
      intro b h
      have hlength := congrArg List.length h
      rw [length_hex, length_hex, List.length_nil] at hlength
      exact (List.length_eq_zero_iff.mp (by omega)).symm
  | cons c a ih =>
      rintro (_ | ⟨d, b⟩) h
      · cases h
      · have hbytes : hexByte c ++ hex a = hexByte d ++ hex b := h
        obtain ⟨hhead, htail⟩ := List.append_inj hbytes rfl
        rw [hexByte_injective hhead, ih htail]

/-- The digits neither end a line nor the text. -/
lemma hex_plain (digest : Bytes) : 13 ∉ hex digest ∧ 10 ∉ hex digest ∧ 0 ∉ hex digest := by
  have hdigits : ∀ b : UInt8, 13 ∉ hexByte b ∧ 10 ∉ hexByte b ∧ 0 ∉ hexByte b := by
    decide +kernel
  simp only [hex, List.mem_flatMap, not_exists, not_and]
  exact ⟨fun b _ => (hdigits b).1, fun b _ => (hdigits b).2.1, fun b _ => (hdigits b).2.2⟩

/-! ## The md5 of a file -/

/-- What one `fread` of a mebibyte gives. -/
abbrev Fread := { bytes : Bytes // bytes.length ≤ 1024 * 1024 }

/-- The loop of `calculateFileMd5`, which ends with the first `fread` that gives nothing. -/
def appendFile (state : Md5State) : List Fread → Md5State
  | [] => state
  | bytesRead :: rest =>
      if bytesRead.1 = [] then state else appendFile (md5Append state bytesRead.1) rest

/-- `Uploader::calculateFileMd5`, of a file that opens or does not, with what lies in the buffer of
the state. -/
def calculateFileMd5 (buf : Buffer UInt8 64) (file : Option (List Fread)) : Option Bytes :=
  file.map fun reads => hex (md5Finish (appendFile (md5Init buf) reads))

/-- The bytes that are read. -/
def delivered (reads : List Fread) : Bytes :=
  ((reads.map Subtype.val).takeWhile (· ≠ [])).flatten

lemma appendFile_eq (state : Md5State) (reads : List Fread) :
    appendFile state reads =
      ((reads.map Subtype.val).takeWhile (· ≠ [])).foldl md5Append state := by
  induction reads generalizing state with
  | nil => rfl
  | cons bytesRead rest ih =>
      rw [appendFile, List.map_cons]
      split_ifs with hempty
      · rw [List.takeWhile_cons_of_neg (by simpa using hempty), List.foldl_nil]
      · rw [List.takeWhile_cons_of_pos (by simpa using hempty), List.foldl_cons, ih]

/-- The md5 of a file is that of its bytes. -/
lemma calculateFileMd5_eq (buf : Buffer UInt8 64) (reads : List Fread) :
    calculateFileMd5 buf (some reads) = some (hex (md5 (delivered reads))) := by
  rw [calculateFileMd5, Option.map_some, appendFile_eq, delivered, md5_of_pieces]
  intro piece hpiece
  obtain ⟨bytesRead, -, rfl⟩ := List.mem_map.mp (List.takeWhile_subset _ hpiece)
  have hle := bytesRead.2
  omega

lemma length_md5 (msg : Bytes) : (md5 msg).length = 16 := by
  have hdigest : ∀ v, (md5Hash.digest v).length = 16 := by
    intro v
    simp only [md5Hash, List.length_flatMap, length_littleEndian]
    rfl
  exact hdigest _

/-- **A file passes for unchanged exactly when its MD5 is that of the bytes that the server
received**: `runOverThread` compares the digits of the file, however it is read, with those that were
taken from the `ETag` of the upload. -/
theorem unchanged_iff (buf : Buffer UInt8 64) (reads : List Fread) (received : Bytes)
    {t : Transfer}
    (hetag : t.getHeader (ascii "etag") = some (ascii "\"" ++ hex (md5 received) ++ ascii "\"")) :
    calculateFileMd5 buf (some reads) =
        some (Uploader.extractMD5FromETagHeaders (t.getHeader (ascii "etag"))) ↔
      md5 (delivered reads) = md5 received := by
  have hlength : (hex (md5 received)).length = 32 := by
    rw [length_hex, length_md5]
  rw [hetag, Uploader.extractMD5FromETagHeaders_quoted hlength, calculateFileMd5_eq,
    Option.some.injEq, hex_injective.eq_iff]

/-- A file that is read in two pieces, and the response to its upload. -/
theorem unchanged_iff_abc :
    calculateFileMd5 ⟨List.replicate 64 0, rfl⟩
        (some [⟨ascii "ab", by decide +kernel⟩, ⟨ascii "c", by decide +kernel⟩]) =
      some (Uploader.extractMD5FromETagHeaders (Transfer.getHeader
        { res := .ok, httpStatusCode := 200, body := .unparsable, curlErrors := [],
          resultingHeaders := [(ascii "etag", ascii "\"" ++ hex (md5 (ascii "abc")) ++ ascii "\"")] }
        (ascii "etag"))) ↔
      md5 (delivered [⟨ascii "ab", by decide +kernel⟩, ⟨ascii "c", by decide +kernel⟩]) =
        md5 (ascii "abc") :=
  unchanged_iff _ _ (ascii "abc") (by decide +kernel)

/-! ## The md5 of a document -/

/-- The value of `Content-MD5` that `performPostOnBucket` computes. -/
def contentMd5 (buf : Buffer UInt8 64) (xml : Bytes) : Bytes :=
  cString (base64Encode (md5Finish (md5Append (md5Init buf) xml)) 64)

/-- A document of a batch is small enough for `md5_append`. -/
lemma length_batchXml_lt {batch : List Bytes} {xml : Bytes}
    (hcount : batch.length ≤ Deleter.BATCH_SIZE) (hkeys : ∀ key ∈ batch, key.length ≤ 1024)
    (hxml : Deleter.batchXml batch = some xml) : xml.length < 2 ^ 28 := by
  obtain rfl := Option.some.inj
    ((Deleter.batchXml_eq (Deleter.ne_nil_of_batchXml hxml)).symm.trans hxml)
  rw [Deleter.length_document]
  have hpaths := Deleter.pathsLength_le hkeys
  have hgrowth : Deleter.batchGrowth batch ≤ 4 * Deleter.pathsLength batch := by
    rw [Deleter.batchGrowth, Deleter.pathsLength, ← List.sum_map_mul_left]
    exact List.sum_le_sum fun path _ => Deleter.growth_le path
  rw [Deleter.BATCH_SIZE] at hcount
  omega

/-- **The header of a POST decodes to the MD5 of its document**, for keys of the length that S3
admits. -/
theorem base64Decode_contentMd5 (buf : Buffer UInt8 64) {batch : List Bytes} {xml : Bytes}
    (hcount : batch.length ≤ Deleter.BATCH_SIZE) (hkeys : ∀ key ∈ batch, key.length ≤ 1024)
    (hxml : Deleter.batchXml batch = some xml) :
    base64Decode (contentMd5 buf xml) 16 = (true, md5 xml) := by
  have hdigest := md5_of_pieces buf [xml] (by simpa using length_batchXml_lt hcount hkeys hxml)
  rw [List.foldl_cons, List.foldl_nil, List.flatten_singleton] at hdigest
  rw [contentMd5, hdigest, cString_base64Encode (by rw [length_md5]; decide), base64Decode_base64,
    List.take_of_length_le (length_md5 xml).le]

end Clarc
