import Clarc.Upload.RequestHeaders

/-!
# The canonical form of the signed headers: `serializeAmzHeadersIntoStringToSign`

A signature is checked against the `x-amz` headers in the order of their names.  The code sorts
whole lines `name:value`.  The two orders agree when no name begins another: then two lines differ
within their names, and neither the colon nor a value is ever compared.

* `amzLine_lt` — a line is before another when its name is;
* `canonicalAmzHeaders` — **the lines come in the order of the names**, whatever the values are, and
  the string to sign does not depend on the order in which the headers were added.
-/

namespace Clarc

open Bytes

/-! ## Lines -/

/-- The name begins with `x-amz`. -/
def isAmz (h : Bytes × Bytes) : Bool := decide (ascii "x-amz" <+: h.1)

/-- The line of a header in the string to sign. -/
def amzLine (h : Bytes × Bytes) : Bytes := h.1 ++ ascii ":" ++ h.2 ++ ascii "\n"

/-- The first difference of two texts that do not begin one another decides their order. -/
lemma append_lt_append {a b : Bytes} (hlt : a < b) (hbegins : ¬ a <+: b) (x y : Bytes) :
    a ++ x < b ++ y := by
  induction a generalizing b with
  | nil => exact absurd (List.nil_prefix) hbegins
  | cons c a ih =>
      cases b with
      | nil => exact absurd hlt (List.not_lt_nil _)
      | cons d b =>
          rw [List.cons_append, List.cons_append, List.cons_lt_cons_iff]
          rcases List.cons_lt_cons_iff.mp hlt with h | ⟨rfl, h⟩
          · exact Or.inl h
          · refine Or.inr ⟨rfl, ih h fun hp => hbegins ?_⟩
            exact List.cons_prefix_cons.mpr ⟨rfl, hp⟩

/-- A line is before another when its name is, and is not the beginning of the other name. -/
lemma amzLine_lt {g h : Bytes × Bytes} (hlt : g.1 < h.1) (hbegins : ¬ g.1 <+: h.1) :
    amzLine g < amzLine h := by
  rw [amzLine, amzLine, List.append_assoc, List.append_assoc, List.append_assoc,
    List.append_assoc]
  exact append_lt_append hlt hbegins _ _

/-- The code's order of the lines. -/
def amzLineLe (a b : Bytes) : Bool := decide (a ≤ b)

lemma amzLineLe_trans (a b c : Bytes) (hab : amzLineLe a b = true) (hbc : amzLineLe b c = true) :
    amzLineLe a c = true :=
  decide_eq_true (List.le_trans (of_decide_eq_true hab) (of_decide_eq_true hbc))

lemma amzLineLe_total (a b : Bytes) : (amzLineLe a b || amzLineLe b a) = true := by
  rw [Bool.or_eq_true]
  exact (List.le_total a b).imp decide_eq_true decide_eq_true

lemma serialize_eq (headers : List (Bytes × Bytes)) :
    serializeAmzHeadersIntoStringToSign headers =
      (((headers.filter isAmz).map amzLine).mergeSort amzLineLe).flatten := rfl

/-- Lines that are in order are those the sort ends with. -/
lemma mergeSort_lines {lines sorted : List Bytes} (hperm : sorted.Perm lines)
    (hsorted : sorted.Pairwise (· < ·)) : lines.mergeSort amzLineLe = sorted := by
  have hle : sorted.Pairwise fun a b => amzLineLe a b = true :=
    hsorted.imp fun hlt => decide_eq_true (List.le_of_lt hlt)
  refine ((List.mergeSort_perm lines amzLineLe).trans hperm.symm).eq_of_pairwise ?_
    (List.pairwise_mergeSort amzLineLe_trans amzLineLe_total lines) hle
  intro a b _ _ hab hba
  exact List.le_antisymm (of_decide_eq_true hab) (of_decide_eq_true hba)

/-! ## The order of the names -/

/-- No name among the `x-amz` headers begins another, and none comes twice. -/
def NamesApart (headers : List (Bytes × Bytes)) : Prop :=
  (headers.filter isAmz).Pairwise fun g h => ¬ g.1 <+: h.1 ∧ ¬ h.1 <+: g.1

instance (headers : List (Bytes × Bytes)) : Decidable (NamesApart headers) :=
  inferInstanceAs (Decidable (List.Pairwise _ _))

/-- The `x-amz` headers by name. -/
def byName (headers : List (Bytes × Bytes)) : List (Bytes × Bytes) :=
  (headers.filter isAmz).mergeSort fun g h => amzLineLe g.1 h.1

lemma byName_perm (headers : List (Bytes × Bytes)) :
    (byName headers).Perm (headers.filter isAmz) := List.mergeSort_perm _ _

/-- Names that are apart are in strict order, and none begins another. -/
lemma byName_pairwise {headers : List (Bytes × Bytes)} (h : NamesApart headers) :
    (byName headers).Pairwise fun g h => g.1 < h.1 ∧ ¬ g.1 <+: h.1 := by
  have hle : (byName headers).Pairwise fun g h => amzLineLe g.1 h.1 = true :=
    List.pairwise_mergeSort (fun g h k => amzLineLe_trans g.1 h.1 k.1)
      (fun g h => amzLineLe_total g.1 h.1) _
  have hapart : (byName headers).Pairwise fun g h => ¬ g.1 <+: h.1 ∧ ¬ h.1 <+: g.1 :=
    (byName_perm headers).symm.pairwise h fun hgh => ⟨hgh.2, hgh.1⟩
  refine (hle.and hapart).imp ?_
  rintro g h ⟨hgh, hbegins, -⟩
  refine ⟨?_, hbegins⟩
  rcases List.le_iff_lt_or_eq.mp (of_decide_eq_true hgh) with hlt | heq
  · exact hlt
  · exact absurd (heq ▸ List.prefix_rfl) hbegins

/-- With any values, the lines come in the order of the names. -/
lemma serialize_values {headers : List (Bytes × Bytes)} (h : NamesApart headers)
    (value : Bytes × Bytes → Bytes) :
    serializeAmzHeadersIntoStringToSign (headers.map fun h => (h.1, value h)) =
      ((byName headers).map fun h => amzLine (h.1, value h)).flatten := by
  have hfilter : (headers.map fun h => (h.1, value h)).filter isAmz =
      (headers.filter isAmz).map fun h => (h.1, value h) := by
    rw [List.filter_map]
    rfl
  rw [serialize_eq, hfilter, List.map_map]
  congr 1
  refine mergeSort_lines ((byName_perm headers).map _) ?_
  rw [List.pairwise_map]
  exact (byName_pairwise h).imp fun hgh => amzLine_lt hgh.1 hgh.2

/-! ## The order of the calls -/

/-- `MicroCurl::getStringToSign`, of the headers added so far. -/
def stringToSign (method : Method) (headers : List (Bytes × Bytes))
    (canonicalizedResource : Bytes) : Bytes :=
  method.getMethodName ++ ascii "\n" ++
    keptHeader (ascii "content-md5") headers ++ ascii "\n" ++
    keptHeader (ascii "content-type") headers ++ ascii "\n" ++
    keptHeader (ascii "date") headers ++ ascii "\n" ++
    serializeAmzHeadersIntoStringToSign headers ++ canonicalizedResource

/-- What `prepare` signs. -/
lemma getStringToSign_eq (r : Request) (date : Bytes) : r.getStringToSign date =
    stringToSign r.method (r.signedHeaders date) r.canonicalizedResource := rfl

/-- The one header of a name is found wherever it is. -/
lemma find?_perm {headers headers' : List (Bytes × Bytes)} (hperm : headers'.Perm headers)
    (hnodup : (headers.map fun h => h.1.map tolower).Nodup) (name : Bytes) :
    headers'.find? (fun h => h.1.map tolower == name) =
      headers.find? (fun h => h.1.map tolower == name) := by
  cases hfind : headers.find? fun h => h.1.map tolower == name with
  | none =>
      rw [List.find?_eq_none] at hfind ⊢
      exact fun h hh => hfind h (hperm.subset hh)
  | some h =>
      have hmem := List.mem_of_find?_eq_some hfind
      have hname := List.find?_some hfind
      have hsome : (headers'.find? fun h => h.1.map tolower == name).isSome = true :=
        List.find?_isSome.mpr ⟨h, hperm.symm.subset hmem, hname⟩
      obtain ⟨h', hfind'⟩ := Option.isSome_iff_exists.mp hsome
      have hmem' := hperm.subset (List.mem_of_find?_eq_some hfind')
      have hname' := List.find?_some hfind'
      rw [beq_iff_eq] at hname hname'
      rw [hfind', List.inj_on_of_nodup_map hnodup hmem' hmem (hname'.trans hname.symm)]

lemma keptHeader_perm {headers headers' : List (Bytes × Bytes)} (hperm : headers'.Perm headers)
    (hnodup : (headers.map fun h => h.1.map tolower).Nodup) (name : Bytes) :
    keptHeader name headers' = keptHeader name headers := by
  have hreverse : headers'.reverse.Perm headers.reverse :=
    (List.reverse_perm headers').trans (hperm.trans (List.reverse_perm headers).symm)
  have hnodup' : (headers.reverse.map fun h => h.1.map tolower).Nodup := by
    rw [List.map_reverse]
    exact List.nodup_reverse.mpr hnodup
  rw [keptHeader, keptHeader, find?_perm hreverse hnodup']

/-- The sort forgets the order of the calls. -/
lemma serialize_perm {headers headers' : List (Bytes × Bytes)} (hperm : headers'.Perm headers) :
    serializeAmzHeadersIntoStringToSign headers' =
      serializeAmzHeadersIntoStringToSign headers := by
  rw [serialize_eq, serialize_eq]
  congr 1
  have hlines := (hperm.filter isAmz).map amzLine
  refine ((List.mergeSort_perm _ amzLineLe).trans
    (hlines.trans (List.mergeSort_perm _ amzLineLe).symm)).eq_of_pairwise ?_
    (List.pairwise_mergeSort amzLineLe_trans amzLineLe_total _)
    (List.pairwise_mergeSort amzLineLe_trans amzLineLe_total _)
  intro a b _ _ hab hba
  exact List.le_antisymm (of_decide_eq_true hab) (of_decide_eq_true hba)

/-- **The canonical form.**  When no `x-amz` name begins another, the lines of the `x-amz` headers
come in strictly increasing order of the names alone, and would with any other values; and headers
with names that differ in more than their case may be added in any order. -/
theorem canonicalAmzHeaders {headers : List (Bytes × Bytes)} (hnames : NamesApart headers) :
    (∃ order : List (Bytes × Bytes), order.Perm (headers.filter isAmz) ∧
      order.Pairwise (fun g h => g.1 < h.1) ∧
      serializeAmzHeadersIntoStringToSign headers = (order.map amzLine).flatten ∧
      ∀ value : Bytes × Bytes → Bytes,
        serializeAmzHeadersIntoStringToSign (headers.map fun h => (h.1, value h)) =
          (order.map fun h => amzLine (h.1, value h)).flatten) ∧
    ∀ (method : Method) (added added' : List (Bytes × Bytes)) (canonicalizedResource : Bytes),
      (added.map fun h => h.1.map tolower).Nodup → added'.Perm added →
        stringToSign method added' canonicalizedResource =
          stringToSign method added canonicalizedResource := by
  refine ⟨⟨byName headers, byName_perm headers, ?_, ?_, serialize_values hnames⟩, ?_⟩
  · exact (byName_pairwise hnames).imp fun h => h.1
  · have hself : headers.map (fun h => (h.1, Prod.snd h)) = headers := List.map_id headers
    have hlines := serialize_values hnames Prod.snd
    rwa [hself] at hlines
  · intro method added added' canonicalizedResource hnodup hperm
    rw [stringToSign, stringToSign, keptHeader_perm hperm hnodup, keptHeader_perm hperm hnodup,
      keptHeader_perm hperm hnodup, serialize_perm hperm]

/-- The headers of an upload, as `uploadFile` adds them. -/
theorem canonicalAmzHeaders_upload :
    ∃ order : List (Bytes × Bytes),
      serializeAmzHeadersIntoStringToSign
          [(ascii "x-amz-acl", ascii "private"), (ascii "Content-Type", ascii "text/plain"),
            (ascii "x-amz-meta-mtime", ascii "1"), (ascii "x-amz-meta-mode", ascii "420")] =
        (order.map amzLine).flatten ∧ order.Pairwise (fun g h => g.1 < h.1) := by
  have hnames : NamesApart [(ascii "x-amz-acl", ascii "private"),
      (ascii "Content-Type", ascii "text/plain"), (ascii "x-amz-meta-mtime", ascii "1"),
      (ascii "x-amz-meta-mode", ascii "420")] := by decide
  obtain ⟨⟨order, -, hsorted, hlines, -⟩, -⟩ := canonicalAmzHeaders hnames
  exact ⟨order, hlines, hsorted⟩

end Clarc
