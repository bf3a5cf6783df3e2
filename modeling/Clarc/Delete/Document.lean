import Clarc.Core.Markup
import Clarc.Delete.Deleter

/-!
# The document of a batch: `xmlEscape` and `deleteBatch`

`deleteBatch` writes the paths of a batch into an XML document, each between `<Key>` and `</Key>`
and with `<`, `>` and `&` escaped, in a buffer whose size it computes from the lengths of the paths
as they are.

* `batchXml_eq` — the document is made of texts and tags, and no text opens a tag;
* `batchXml_decode` — **the document decodes to the batch**: it has as many `<Key>` and `</Key>`
  tags as the batch has paths, and what stands between them is read back as these paths;
* `fits_iff` — **the document fits into its buffer exactly when** the computed size does not
  overflow and the paths do not grow by more than what is set aside.
-/

namespace Clarc

open Bytes Markup

namespace Deleter

/-! ## The pieces of the document -/

/-- The entities of `xmlEscape`. -/
def xmlEntities : Escaping UInt8 where
  marker := 38
  words := [(ascii "&lt;", 60), (ascii "&gt;", 62), (ascii "&amp;", 38)]
  starts := by decide
  marked := by decide
  apart := by decide

lemma xmlEscapeByte_eq (c : UInt8) : xmlEscapeByte c = xmlEntities.encodeChar c := by
  unfold xmlEscapeByte
  split_ifs with hlt hgt hamp
  · subst hlt
    rfl
  · subst hgt
    rfl
  · subst hamp
    rfl
  · have hnone : xmlEntities.words.find? (fun e => e.2 == c) = none := by
      simp [xmlEntities, Ne.symm hlt, Ne.symm hgt, Ne.symm hamp]
    rw [Escaping.encodeChar, hnone]

/-- `xmlEscape` writes the entities. -/
lemma xmlEscape_eq {path : Bytes} (h : path ≠ []) :
    xmlEscape path = some (xmlEntities.encode path) := by
  have hchar : xmlEscapeByte = xmlEntities.encodeChar := funext xmlEscapeByte_eq
  rw [xmlEscape, if_neg h, Escaping.encode, hchar]

/-- No escaped path opens a tag. -/
lemma lt_notMem_encode (path : Bytes) : 60 ∉ xmlEntities.encode path :=
  Escaping.notMem_encode (by decide) (by decide) path

/-- What stands before the first path. -/
def documentStart : List (Piece UInt8) :=
  [.tag (ascii "?xml version=\"1.0\" encoding=\"UTF-8\"?"), .text (ascii "\n"),
    .tag (ascii "Delete"), .text (ascii "\n"), .tag (ascii "Quiet"), .text (ascii "true"),
    .tag (ascii "/Quiet"), .text (ascii "\n")]

/-- What stands before a `<Key>`. -/
def objectStart : List (Piece UInt8) := [.text (ascii "\t"), .tag (ascii "Object")]

/-- What stands behind a `</Key>`. -/
def objectEnd : List (Piece UInt8) := [.tag (ascii "/Object"), .text (ascii "\n")]

/-- What stands behind the last path. -/
def documentEnd : List (Piece UInt8) := [.tag (ascii "/Delete"), .text (ascii "\n")]

/-- The paths of a batch with what stands before their `<Key>`, after `before`. -/
def items (before : List (Piece UInt8)) :
    List Bytes → List (List (Piece UInt8) × List (Piece UInt8))
  | [] => []
  | path :: rest =>
      (before ++ objectStart, [.text (xmlEntities.encode path)]) :: items objectEnd rest

/-- What stands behind the last `</Key>`, or in the whole document when there is none. -/
def trailer (before : List (Piece UInt8)) (batch : List Bytes) : List (Piece UInt8) :=
  (if batch = [] then before else objectEnd) ++ documentEnd

/-- The pieces of the document of a batch. -/
def documentPieces (batch : List Bytes) : List (Piece UInt8) :=
  enclose (ascii "Key") (ascii "/Key") (items documentStart batch) ++ trailer documentStart batch

/-- The names of the tags of a document for so many paths. -/
def documentTags (n : ℕ) : List Bytes :=
  [ascii "?xml version=\"1.0\" encoding=\"UTF-8\"?", ascii "Delete", ascii "Quiet",
      ascii "/Quiet"] ++
    (List.replicate n [ascii "Object", ascii "Key", ascii "/Key", ascii "/Object"]).flatten ++
      [ascii "/Delete"]

/-- The text of one path. -/
lemma render_items (before : List (Piece UInt8)) (batch : List Bytes) :
    render 60 62 (enclose (ascii "Key") (ascii "/Key") (items before batch) ++
        trailer before batch) =
      render 60 62 before ++
        batch.flatMap (fun path => ascii "\t<Object><Key>" ++ xmlEntities.encode path ++
          ascii "</Key></Object>\n") ++ ascii "</Delete>\n" := by
  induction batch generalizing before with
  | nil =>
      have hend : render 60 62 documentEnd = ascii "</Delete>\n" := by decide
      simp [items, trailer, enclose, hend]
  | cons path rest ih =>
      have htrailer : trailer before (path :: rest) = trailer objectEnd rest := by
        simp [trailer]
      have hstart : render 60 62 objectStart ++ tag 60 62 (ascii "Key") =
          ascii "\t<Object><Key>" := by decide
      have hend : tag 60 62 (ascii "/Key") ++ render 60 62 objectEnd =
          ascii "</Key></Object>\n" := by decide
      rw [htrailer, items, render_enclose_cons, ih, List.flatMap_cons, ← hstart, ← hend]
      simp [Piece.render, List.append_assoc]

/-- **The document is made of these pieces.** -/
theorem batchXml_eq {batch : List Bytes} (hne : ∀ path ∈ batch, path ≠ []) :
    batchXml batch = some (render 60 62 (documentPieces batch)) := by
  have hescaped : batch.mapM xmlEscape = some (batch.map xmlEntities.encode) := by
    induction batch with
    | nil => rfl
    | cons path rest ih =>
        rw [List.mapM_cons, xmlEscape_eq (hne path List.mem_cons_self),
          ih fun p hp => hne p (List.mem_cons_of_mem path hp)]
        rfl
  have hstart : render 60 62 documentStart =
      ascii "<?xml version=\"1.0\" encoding=\"UTF-8\"?>\n" ++ ascii "<Delete>\n" ++
        ascii "<Quiet>true</Quiet>\n" := by decide
  rw [batchXml, hescaped, documentPieces, render_items, hstart, Option.map_some, List.flatMap_map]

/-! ## Reading the document -/

lemma items_plain {before : List (Piece UInt8)} (batch : List Bytes)
    (hbefore : ∀ piece ∈ before, piece.Plain 60 62) :
    ∀ piece ∈ enclose (ascii "Key") (ascii "/Key") (items before batch) ++ trailer before batch,
      piece.Plain 60 62 := by
  have hend : ∀ piece ∈ documentEnd, piece.Plain 60 62 := by decide
  have hobjectStart : ∀ piece ∈ objectStart, piece.Plain 60 62 := by decide
  have hobjectEnd : ∀ piece ∈ objectEnd, piece.Plain 60 62 := by decide
  have hkey : Piece.Plain 60 62 (.tag (ascii "Key")) := by decide
  have hkeyEnd : Piece.Plain 60 62 (.tag (ascii "/Key")) := by decide
  induction batch generalizing before with
  | nil =>
      intro piece hpiece
      have htrailer : enclose (ascii "Key") (ascii "/Key") (items before []) ++
          trailer before [] = before ++ documentEnd := rfl
      rw [htrailer, List.mem_append] at hpiece
      rcases hpiece with h | h
      · exact hbefore piece h
      · exact hend piece h
  | cons path rest ih =>
      have htrailer : trailer before (path :: rest) = trailer objectEnd rest := by
        simp [trailer]
      intro piece hpiece
      rw [htrailer, items, enclose, List.flatMap_cons, List.append_assoc,
        List.mem_append] at hpiece
      rcases hpiece with hpiece | hpiece
      · simp only [List.mem_append, List.mem_cons, List.not_mem_nil, or_false] at hpiece
        rcases hpiece with (h | h) | rfl | rfl | rfl
        · exact hbefore piece h
        · exact hobjectStart piece h
        · exact hkey
        · exact lt_notMem_encode path
        · exact hkeyEnd
      · exact ih hobjectEnd piece hpiece

/-- The names of the tags. -/
lemma names_items (before : List (Piece UInt8)) (batch : List Bytes) :
    names (enclose (ascii "Key") (ascii "/Key") (items before batch) ++ trailer before batch) =
      names before ++
        (List.replicate batch.length
          [ascii "Object", ascii "Key", ascii "/Key", ascii "/Object"]).flatten ++
        [ascii "/Delete"] := by
  induction batch generalizing before with
  | nil =>
      have hend : names documentEnd = [ascii "/Delete"] := rfl
      simp [items, trailer, enclose, hend]
  | cons path rest ih =>
      have htrailer : trailer before (path :: rest) = trailer objectEnd rest := by
        simp [trailer]
      have hcons : enclose (ascii "Key") (ascii "/Key") (items before (path :: rest)) =
          before ++ (objectStart ++ [.tag (ascii "Key"), .text (xmlEntities.encode path),
            .tag (ascii "/Key")]) ++
            enclose (ascii "Key") (ascii "/Key") (items objectEnd rest) := by
        simp [items, enclose]
      have hobject : names (objectStart ++ [.tag (ascii "Key"),
          .text (xmlEntities.encode path), .tag (ascii "/Key")]) ++ names objectEnd =
            [ascii "Object", ascii "Key", ascii "/Key", ascii "/Object"] := rfl
      rw [htrailer, hcons, List.append_assoc, names_append, names_append, ih, List.length_cons,
        List.replicate_succ, List.flatten_cons, ← hobject]
      simp only [List.append_assoc]

lemma names_documentPieces (batch : List Bytes) :
    names (documentPieces batch) = documentTags batch.length := by
  have hstart : names documentStart = [ascii "?xml version=\"1.0\" encoding=\"UTF-8\"?",
      ascii "Delete", ascii "Quiet", ascii "/Quiet"] := rfl
  rw [documentPieces, names_items, documentTags, hstart]

/-- No opening tag stands before that of a path, and none closes in it. -/
lemma items_separate {before : List (Piece UInt8)} (batch : List Bytes)
    (hbefore : ∀ piece ∈ before, piece.Plain 60 62) (hnone : ascii "Key" ∉ names before) :
    Separate 60 62 (ascii "Key") (ascii "/Key") (items before batch) (trailer before batch) := by
  have hitems : ∀ {before : List (Piece UInt8)} (batch : List Bytes),
      ascii "Key" ∉ names before → ∀ item ∈ items before batch,
        ascii "Key" ∉ names item.1 ∧ names item.2 = [] := by
    intro before batch hnone item hitem
    induction batch generalizing before with
    | nil => cases hitem
    | cons path rest ih =>
        rcases List.mem_cons.mp hitem with rfl | hitem
        · refine ⟨?_, rfl⟩
          rw [names_append, List.mem_append, not_or]
          exact ⟨hnone, by decide⟩
        · exact ih (by decide) hitem
  refine ⟨items_plain batch hbefore, by decide, fun item hitem => (hitems batch hnone item hitem).1,
    ?_, ?_⟩
  · intro item hitem
    rw [(hitems batch hnone item hitem).2]
    exact List.not_mem_nil
  · rw [trailer, names_append, List.mem_append, not_or]
    refine ⟨?_, by decide⟩
    split_ifs
    · exact hnone
    · decide

lemma count_documentTags (n : ℕ) :
    (documentTags n).count (ascii "Key") = n ∧ (documentTags n).count (ascii "/Key") = n := by
  have hcount : ∀ name : Bytes, ([ascii "?xml version=\"1.0\" encoding=\"UTF-8\"?",
      ascii "Delete", ascii "Quiet", ascii "/Quiet"] : List Bytes).count name = 0 →
      ([ascii "Object", ascii "Key", ascii "/Key", ascii "/Object"] : List Bytes).count name = 1 →
      ([ascii "/Delete"] : List Bytes).count name = 0 → (documentTags n).count name = n := by
    intro name hstart hobject hend
    rw [documentTags, List.count_append, List.count_append, List.count_flatten,
      List.map_replicate, List.sum_replicate, hstart, hobject, hend, smul_eq_mul]
    omega
  exact ⟨hcount _ (by decide) (by decide) (by decide), hcount _ (by decide) (by decide) (by decide)⟩

/-- What stands between the tags is the batch, escaped. -/
lemma between_document (batch : List Bytes) :
    (between (ascii "<Key>") (ascii "</Key>") (render 60 62 (documentPieces batch))).map
      xmlEntities.decode = batch := by
  have hinner : ∀ before, (items before batch).map (fun item => render 60 62 item.2) =
      batch.map xmlEntities.encode := by
    induction batch with
    | nil => exact fun _ => rfl
    | cons path rest ih =>
        intro before
        rw [items, List.map_cons, ih objectEnd, List.map_cons]
        simp [Piece.render]
  have hopening : ascii "<Key>" = tag 60 62 (ascii "Key") := by decide
  have hclosing : ascii "</Key>" = tag 60 62 (ascii "/Key") := by decide
  rw [hopening, hclosing, documentPieces,
    between_render (by decide) (items_separate batch (by decide) (by decide)), hinner,
    List.map_map]
  refine (List.map_congr_left fun path _ => ?_).trans (List.map_id batch)
  exact Escaping.decode_encode path

/-- A batch with a document has no empty path. -/
lemma ne_nil_of_batchXml {batch : List Bytes} {xml : Bytes} (h : batchXml batch = some xml) :
    ∀ path ∈ batch, path ≠ [] := by
  rintro _ hpath rfl
  exact batchXml_isSome.mp (h ▸ rfl) hpath

/-- **The document decodes to the batch.**  It has as many `<Key>` and `</Key>` tags as the batch
has paths; what stands between them, with the entities replaced in one pass, is the batch; all its
tags are those of a document for so many paths, whatever the paths are; and no other batch has it.
-/
theorem batchXml_decode {batch : List Bytes} (hne : ∀ path ∈ batch, path ≠ []) :
    ∃ xml, batchXml batch = some xml ∧
      occurrences (ascii "<Key>") xml = batch.length ∧
      occurrences (ascii "</Key>") xml = batch.length ∧
      (between (ascii "<Key>") (ascii "</Key>") xml).map xmlEntities.decode = batch ∧
      tags 60 62 xml = documentTags batch.length ∧
      ∀ other, batchXml other = some xml → other = batch := by
  have hplain : ∀ piece ∈ documentPieces batch, piece.Plain 60 62 :=
    items_plain batch (by decide)
  have hopening : ascii "<Key>" = tag 60 62 (ascii "Key") := by decide
  have hclosing : ascii "</Key>" = tag 60 62 (ascii "/Key") := by decide
  refine ⟨_, batchXml_eq hne, ?_, ?_, between_document batch, ?_, ?_⟩
  · rw [hopening, occurrences_render (by decide) (by decide) hplain, names_documentPieces]
    exact (count_documentTags _).1
  · rw [hclosing, occurrences_render (by decide) (by decide) hplain, names_documentPieces]
    exact (count_documentTags _).2
  · exact (tags_render hplain).trans (names_documentPieces batch)
  · intro other hother
    have hxml := (batchXml_eq (ne_nil_of_batchXml hother)).symm.trans hother
    rw [← between_document other, Option.some.inj hxml, between_document]

/-- Paths with the text of a tag and of an entity in them. -/
theorem batchXml_decode_tricky :
    ∃ xml, batchXml [ascii "</Key>", ascii "&lt;"] = some xml ∧
      occurrences (ascii "</Key>") xml = 2 ∧
      (between (ascii "<Key>") (ascii "</Key>") xml).map xmlEntities.decode =
        [ascii "</Key>", ascii "&lt;"] := by
  have hne : ∀ path ∈ [ascii "</Key>", ascii "&lt;"], path ≠ [] := by decide
  obtain ⟨xml, hxml, -, hcount, hbetween, -, -⟩ := batchXml_decode hne
  exact ⟨xml, hxml, hcount, hbetween⟩

/-! ## The buffer -/

/-- The size that `deleteBatch` computes for its buffer, `len`, in 32 bits. -/
def bufferSize (batch : List Bytes) : UInt32 :=
  batch.foldl (fun len path => len + UInt32.ofNat path.length) 0 +
    (UInt32.ofNat batch.length * 64 + 128)

/-- The document and its terminator fit into the buffer. -/
def Fits (batch : List Bytes) : Prop :=
  ∃ xml, batchXml batch = some xml ∧ xml.length + 1 ≤ (bufferSize batch).toNat

/-- The characters of the paths. -/
def pathsLength (batch : List Bytes) : ℕ := (batch.map List.length).sum

lemma pathsLength_le {batch : List Bytes} {n : ℕ} (h : ∀ path ∈ batch, path.length ≤ n) :
    pathsLength batch ≤ batch.length * n := by
  have hsum := List.sum_le_card_nsmul (batch.map List.length) n (by simpa using h)
  rwa [List.length_map, smul_eq_mul] at hsum

/-- By how much `xmlEscape` makes a path longer. -/
def growth (path : Bytes) : ℕ := 3 * path.count 60 + 3 * path.count 62 + 4 * path.count 38

/-- By how much the paths grow. -/
def batchGrowth (batch : List Bytes) : ℕ := (batch.map growth).sum

lemma growth_append (a b : Bytes) : growth (a ++ b) = growth a + growth b := by
  simp only [growth, List.count_append]
  omega

lemma growth_cons (c : UInt8) (path : Bytes) : growth (c :: path) = growth [c] + growth path :=
  growth_append [c] path

/-- Ampersands grow the most. -/
lemma growth_replicate (n : ℕ) : growth (List.replicate n 38) = 4 * n := by
  induction n with
  | zero => rfl
  | succ n ih =>
      have hfour : growth [38] = 4 := rfl
      rw [List.replicate_succ, growth_cons, ih, hfour]
      omega

/-- `xmlEscape` replaces one character by four or five. -/
lemma length_xmlEscapeByte (c : UInt8) : (xmlEscapeByte c).length = 1 + growth [c] := by
  unfold xmlEscapeByte
  split_ifs with hlt hgt hamp
  · subst hlt
    rfl
  · subst hgt
    rfl
  · subst hamp
    rfl
  · simp [growth, hlt, hgt, hamp]

/-- What `xmlEscape` makes of a path is longer by that. -/
lemma length_encode (path : Bytes) :
    (xmlEntities.encode path).length = path.length + growth path := by
  induction path with
  | nil => rfl
  | cons c path ih =>
      have hcons : xmlEntities.encode (c :: path) =
          xmlEscapeByte c ++ xmlEntities.encode path := by
        rw [xmlEscapeByte_eq]
        rfl
      rw [hcons, List.length_append, length_xmlEscapeByte, ih, List.length_cons,
        growth_cons c path]
      omega

lemma growth_singleton_le (c : UInt8) : growth [c] ≤ 4 ∧ (c ≠ 38 → growth [c] ≤ 3) := by
  by_cases hamp : c = 38
  · subst hamp
    exact ⟨le_rfl, fun h => absurd rfl h⟩
  · have hle : growth [c] ≤ 3 := by
      unfold growth
      rw [List.count_singleton, List.count_singleton, List.count_singleton]
      by_cases hlt : c = 60
      · subst hlt
        decide
      · by_cases hgt : c = 62
        · subst hgt
          decide
        · simp [hlt, hgt, hamp]
    exact ⟨by omega, fun _ => hle⟩

/-- No path becomes more than five times as long. -/
lemma growth_le (path : Bytes) : growth path ≤ 4 * path.length := by
  induction path with
  | nil => exact le_rfl
  | cons c path ih =>
      have hchar := (growth_singleton_le c).1
      rw [growth_cons c path, List.length_cons]
      omega

/-- A path becomes five times as long exactly when it is made of ampersands. -/
lemma growth_lt_iff (path : Bytes) : growth path < 4 * path.length ↔ ∃ c ∈ path, c ≠ 38 := by
  induction path with
  | nil => simp [growth]
  | cons c path ih =>
      have hrest := growth_le path
      obtain ⟨hchar, hother⟩ := growth_singleton_le c
      rw [growth_cons c path, List.length_cons, List.exists_mem_cons_iff, ← ih]
      by_cases hamp : c = 38
      · subst hamp
        have hfour : growth [38] = 4 := rfl
        rw [hfour]
        simp only [ne_eq, not_true_eq_false, false_or]
        omega
      · have hthree := hother hamp
        simp only [ne_eq, hamp, not_false_eq_true, true_or, iff_true]
        omega

/-- The length of the document. -/
lemma length_document (batch : List Bytes) :
    (render 60 62 (documentPieces batch)).length =
      pathsLength batch + batchGrowth batch + 30 * batch.length + 78 := by
  have hstart : (render 60 62 documentStart).length = 68 := by decide
  have hend : (ascii "</Delete>\n").length = 10 := by decide
  have hkey : (ascii "\t<Object><Key>").length = 14 := by decide
  have hkeyEnd : (ascii "</Key></Object>\n").length = 16 := by decide
  have hpaths : (batch.flatMap fun path => ascii "\t<Object><Key>" ++ xmlEntities.encode path ++
      ascii "</Key></Object>\n").length =
        pathsLength batch + batchGrowth batch + 30 * batch.length := by
    induction batch with
    | nil => rfl
    | cons path rest ih =>
        rw [List.flatMap_cons, List.length_append, ih, List.length_append, List.length_append,
          hkey, hkeyEnd, length_encode]
        simp only [pathsLength, batchGrowth, List.map_cons, List.sum_cons, List.length_cons]
        omega
  rw [documentPieces, render_items, List.length_append, List.length_append, hstart, hpaths, hend]
  omega

/-- The size of the buffer, as a number. -/
lemma bufferSize_toNat {batch : List Bytes} (hcount : batch.length ≤ BATCH_SIZE) :
    (bufferSize batch).toNat = (pathsLength batch + 64 * batch.length + 128) % 2 ^ 32 := by
  have hsum : ∀ len : UInt32, (batch.foldl (fun len path => len + UInt32.ofNat path.length)
      len).toNat = (len.toNat + pathsLength batch) % 2 ^ 32 := by
    clear hcount
    induction batch with
    | nil =>
        intro len
        exact (Nat.mod_eq_of_lt len.toNat_lt).symm
    | cons path rest ih =>
        intro len
        have hcons : pathsLength (path :: rest) = path.length + pathsLength rest := by
          simp [pathsLength]
        rw [List.foldl_cons, ih, UInt32.toNat_add, UInt32.toNat_ofNat', hcons]
        omega
  have hbatch : (UInt32.ofNat batch.length).toNat = batch.length := by
    rw [BATCH_SIZE] at hcount
    rw [UInt32.toNat_ofNat', Nat.mod_eq_of_lt (by omega)]
  have hzero : (0 : UInt32).toNat = 0 := rfl
  have hslack : (64 : UInt32).toNat = 64 ∧ (128 : UInt32).toNat = 128 := ⟨rfl, rfl⟩
  rw [bufferSize, UInt32.toNat_add, hsum, UInt32.toNat_add, UInt32.toNat_mul, hbatch, hzero,
    hslack.1, hslack.2]
  omega

lemma fits_iff_length {batch : List Bytes} (hne : ∀ path ∈ batch, path ≠ []) :
    Fits batch ↔
      pathsLength batch + batchGrowth batch + 30 * batch.length + 79 ≤
        (bufferSize batch).toNat := by
  rw [Fits, batchXml_eq hne]
  simp only [Option.some.injEq, exists_eq_left', length_document]

/-- **The document fits into its buffer exactly when** the size does not overflow, and the paths
grow by no more than 34 characters each and 49 together. -/
theorem fits_iff {batch : List Bytes} (hcount : 1 ≤ batch.length ∧ batch.length ≤ BATCH_SIZE)
    (hne : ∀ path ∈ batch, path ≠ []) :
    Fits batch ↔ pathsLength batch + 64 * batch.length + 128 < 2 ^ 32 ∧
      batchGrowth batch ≤ 34 * batch.length + 49 := by
  rw [fits_iff_length hne, bufferSize_toNat hcount.2]
  rw [BATCH_SIZE] at hcount
  omega

/-- A path with twenty ampersands fits. -/
theorem fits_iff_twenty : Fits [List.replicate 20 38] := by
  have hne : ∀ path ∈ [List.replicate 20 (38 : UInt8)], path ≠ [] := by decide
  have hcount : 1 ≤ [List.replicate 20 (38 : UInt8)].length ∧
      [List.replicate 20 (38 : UInt8)].length ≤ BATCH_SIZE := by decide
  exact (fits_iff hcount hne).mpr (by decide)

/-- A path with one more does not. -/
theorem twentyOne_ampersands_not_fits :
    ¬ ∀ batch : List Bytes, 1 ≤ batch.length ∧ batch.length ≤ BATCH_SIZE →
      (∀ path ∈ batch, path ≠ []) → Fits batch := by
  intro h
  have hne : ∀ path ∈ [List.replicate 21 (38 : UInt8)], path ≠ [] := by decide
  obtain ⟨xml, hxml, hle⟩ := h [List.replicate 21 38] (by decide) hne
  have hlength := length_document [List.replicate 21 38]
  have hsize : (bufferSize [List.replicate 21 38]).toNat = 213 := by decide
  have hpaths : pathsLength [List.replicate 21 38] = 21 := by decide
  have hgrowth : batchGrowth [List.replicate 21 38] = 84 := by decide
  rw [batchXml_eq hne, Option.some.injEq] at hxml
  rw [hxml, hpaths, hgrowth] at hlength
  simp only [List.length_singleton] at hlength
  omega

end Deleter

end Clarc
