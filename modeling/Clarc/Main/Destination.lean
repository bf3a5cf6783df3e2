import Clarc.Main.CommandLine

/-!
# The destination: what `destination.cc` makes of a text, and back

The man page has `s3://BUCKET[.ENDPOINT]/[FOLDER]`.  The parser looks for the first place at which
an end point occurs in the host, and when that is the end of the host it cuts the end point off,
with the one character before it, whatever that is.  An end point that occurs twice is therefore not
found at the end, the dot in front of one is not looked at, and in front of a host that is an end
point by itself a byte is written that belongs to nobody.

* `ofHost_of_stands`, `ofHost_of_not_stands` — the bucket and the end point of a host;
* `documented_iff` — **exactly which texts are read as documented**;
* `printed_iff` — **exactly which destinations survive being printed and parsed again**.
-/

namespace Clarc

open Bytes

namespace Destination

/-! ## Texts -/

/-- `Destination::absoluteString`. -/
def absoluteString (d : Destination) : Bytes :=
  ascii "s3://" ++ d.bucket ++ ascii "." ++ d.endPoint ++ ascii "/" ++
    if d.folder ≠ [] then d.folder ++ ascii "/" else []

/-- A text without one slash at its end. -/
def stripSlash (text : Bytes) : Bytes := if text.getLast? = some 47 then text.dropLast else text

/-- The text has the form `s3://HOST` or `s3://HOST/FOLDER`, with at most one slash at its end. -/
structure Written (s host folder : Bytes) : Prop where
  whole : 47 ∉ host
  single : 47 ∉ folder
  form : (s = ascii "s3://" ++ host ∧ folder = []) ∨
    ∃ behind, s = ascii "s3://" ++ host ++ ascii "/" ++ behind ∧ folder = stripSlash behind

/-- What is documented of a text: it is valid when it has that form, with a host that is neither
empty nor an end point behind a dot; the folder is the one that is written; and the host is a bucket
and an end point with a dot between them, or else a bucket of the default end point. -/
structure Documented (s : Bytes) : Prop where
  valid : (∃ d, parse s = .valid d) ↔
    ∃ host folder, Written s host folder ∧ host ≠ [] ∧ ∀ e ∈ endPoints, host ≠ ascii "." ++ e
  folder : ∀ d host folder, parse s = .valid d → Written s host folder → d.folder = folder
  endPoint : ∀ d host folder b e, parse s = .valid d → Written s host folder → b ≠ [] →
    e ∈ endPoints → host = b ++ ascii "." ++ e → d.bucket = b ∧ d.endPoint = e
  bucket : ∀ d host folder, parse s = .valid d → Written s host folder →
    (∀ b, b ≠ [] → ∀ e ∈ endPoints, host ≠ b ++ ascii "." ++ e) →
      d.bucket = host ∧ d.endPoint = ascii "s3.amazonaws.com"

/-- The end point is at the end of the host, and nowhere before. -/
def Stands (e host : Bytes) : Prop := e <:+ host ∧ ¬ e <:+: host.dropLast

instance (e host : Bytes) : Decidable (Stands e host) := inferInstanceAs (Decidable (_ ∧ _))

/-! ## `strstr` -/

variable {e host s folder b x : Bytes} {r : ℕ}

/-- `strstr` finds the first place. -/
lemma strstr_eq_some :
    strstr e s = some r ↔ r ≤ s.length ∧ e <+: s.drop r ∧ ∀ r' < r, ¬ e <+: s.drop r' := by
  induction s generalizing r with
  | nil =>
      rw [strstr]
      split_ifs with he
      · subst he
        constructor
        · rintro ⟨⟩
          exact ⟨le_rfl, List.nil_prefix, fun r' hr' => absurd hr' (Nat.not_lt_zero r')⟩
        · rintro ⟨hr, -, -⟩
          rw [List.length_nil, Nat.le_zero] at hr
          rw [hr]
      · simp [he]
  | cons c s ih =>
      rw [strstr]
      split_ifs with he
      · constructor
        · rintro ⟨⟩
          exact ⟨Nat.zero_le _, he, fun r' hr' => absurd hr' (Nat.not_lt_zero r')⟩
        · rintro ⟨-, -, hfirst⟩
          rcases r with _ | r
          · rfl
          · exact absurd he (hfirst 0 (Nat.succ_pos r))
      · rw [Option.map_eq_some_iff]
        constructor
        · rintro ⟨r, hr, rfl⟩
          obtain ⟨hle, hstart, hfirst⟩ := ih.mp hr
          refine ⟨Nat.succ_le_succ hle, hstart, fun r' hr' => ?_⟩
          rcases r' with _ | r'
          · exact he
          · exact hfirst r' (Nat.lt_of_succ_lt_succ hr')
        · rintro ⟨hle, hstart, hfirst⟩
          rcases r with _ | r
          · exact absurd hstart he
          · exact ⟨r, ih.mpr ⟨Nat.le_of_succ_le_succ hle, hstart, fun r' hr' =>
              hfirst (r' + 1) (Nat.succ_lt_succ hr')⟩, rfl⟩

/-- A text occurs before the end of another where it is a prefix of what follows some place, and
does not reach the end. -/
lemma infix_dropLast_iff (he : e ≠ []) :
    e <:+: s.dropLast ↔ ∃ r, r + e.length < s.length ∧ e <+: s.drop r := by
  constructor
  · rintro ⟨front, back, h⟩
    rcases List.eq_nil_or_concat s with rfl | ⟨s', c, rfl⟩
    · simp [he] at h
    · rw [List.concat_eq_append, List.dropLast_concat] at h
      subst h
      refine ⟨front.length, ?_, ?_⟩
      · simp only [List.concat_eq_append, List.length_append, List.length_singleton]
        omega
      · simp only [List.concat_eq_append, List.append_assoc, List.drop_left]
        exact List.prefix_append _ _
  · rintro ⟨r, hr, back, h⟩
    have hs : s = s.take r ++ (e ++ back) := by rw [h, List.take_append_drop]
    have hback : back ≠ [] := by
      rintro rfl
      have hlen := congrArg List.length hs
      simp only [List.length_append, List.length_take, List.append_nil] at hlen
      omega
    refine ⟨s.take r, back.dropLast, ?_⟩
    conv_rhs => rw [hs]
    rw [List.dropLast_append_of_ne_nil (by simp [hback]), List.dropLast_append_of_ne_nil hback,
      List.append_assoc]

/-- The parser finds an end point at the end of the host when it stands there. -/
lemma strstr_end_iff (he : e ≠ []) :
    (∃ r, strstr e host = some r ∧ r + e.length = host.length) ↔ Stands e host := by
  constructor
  · rintro ⟨r, hr, hlen⟩
    obtain ⟨hle, hstart, hfirst⟩ := strstr_eq_some.mp hr
    have hend : e = host.drop r :=
      hstart.eq_of_length (by rw [List.length_drop]; omega)
    refine ⟨⟨host.take r, ?_⟩, ?_⟩
    · rw [hend]
      exact List.take_append_drop r host
    · rw [infix_dropLast_iff he]
      rintro ⟨r', hr', hstart'⟩
      exact hfirst r' (by omega) hstart'
  · rintro ⟨⟨x, rfl⟩, hfirst⟩
    refine ⟨x.length, strstr_eq_some.mpr ⟨by simp, ?_, fun r' hr' hstart => hfirst ?_⟩, by simp⟩
    · rw [List.drop_left]
    · exact (infix_dropLast_iff he).mpr ⟨r', by simp; omega, hstart⟩

/-! ## End points -/

lemma endPoints_ne_nil : ∀ e ∈ endPoints, e ≠ [] := by decide

lemma slash_notMem_endPoints : ∀ e ∈ endPoints, 47 ∉ e := by decide

/-- No end point ends with another. -/
lemma endPoints_suffix : ∀ e ∈ endPoints, ∀ e' ∈ endPoints, e <:+ e' → e = e' := by decide

/-- No end point goes on with a dot and itself where it has begun. -/
lemma endPoints_overlap : ∀ e ∈ endPoints, ∀ i < e.length,
    e.drop i ≠ 46 :: e.take (e.length - i - 1) := by decide

lemma default_mem_endPoints : ascii "s3.amazonaws.com" ∈ endPoints := List.mem_cons_self

/-- A host ends with one end point only. -/
lemma endPoint_unique {e' : Bytes} (he : e ∈ endPoints) (he' : e' ∈ endPoints) (h : e <:+ host)
    (h' : e' <:+ host) : e = e' := by
  rcases List.suffix_or_suffix_of_suffix h h' with hs | hs
  · exact endPoints_suffix e he e' he' hs
  · exact (endPoints_suffix e' he' e he hs).symm

/-- An end point does not overlap with the dot and the end point that are put behind a bucket. -/
lemma stands_printed (he : e ∈ endPoints) :
    Stands e (b ++ ascii "." ++ e) ↔ ¬ e <:+: b := by
  have hne := endPoints_ne_nil e he
  have hdot : ascii "." = [46] := rfl
  have hsuffix : e <:+ b ++ ascii "." ++ e := List.suffix_append _ _
  rw [Stands, and_iff_right hsuffix, not_iff_not, infix_dropLast_iff hne]
  constructor
  · rintro ⟨r, hr, hstart⟩
    rw [hdot, List.length_append, List.length_append, List.length_singleton] at hr
    have hrb : r ≤ b.length := by omega
    rw [hdot, List.append_assoc, List.drop_append_of_le_length hrb] at hstart
    rcases Nat.lt_or_ge (b.length - r) e.length with hlong | hshort
    · -- the end point would reach over the dot
      exfalso
      have hrest : e.drop (b.length - r) <+: [46] ++ e := by
        have hdrop := hstart.drop (b.drop r).length
        rwa [List.drop_left, List.length_drop] at hdrop
      refine endPoints_overlap e he (b.length - r) hlong ?_
      have htake := List.prefix_iff_eq_take.mp hrest
      rw [List.length_drop] at htake
      obtain ⟨k, hk⟩ : ∃ k, e.length - (b.length - r) = k + 1 :=
        ⟨e.length - (b.length - r) - 1, by omega⟩
      rw [hk] at htake ⊢
      exact htake
    · have hin : e <+: b.drop r :=
        List.prefix_of_prefix_length_le hstart (List.prefix_append _ _)
          (by rw [List.length_drop]; exact hshort)
      exact hin.isInfix.trans (List.drop_suffix r b).isInfix
  · rintro ⟨front, back, rfl⟩
    refine ⟨front.length, ?_, ?_⟩
    · rw [hdot]
      simp only [List.length_append, List.length_singleton]
      omega
    · simp only [List.append_assoc, List.drop_left]
      exact List.prefix_append _ _

/-! ## The host -/

/-- The loop finds an end point that stands at the end of the host, and no other. -/
lemma findEndPoint_of_stands (he : e ∈ endPoints) (h : Stands e (x ++ e)) :
    findEndPoint (x ++ e) endPoints = some (e, x.length) := by
  have hfind : ∀ es ⊆ endPoints, e ∈ es → findEndPoint (x ++ e) es = some (e, x.length) := by
    intro es hes hmem
    induction es with
    | nil => cases hmem
    | cons e' es ih =>
        rw [findEndPoint]
        by_cases hsame : e' = e
        · subst hsame
          obtain ⟨r, hr, hlen⟩ := (strstr_end_iff (endPoints_ne_nil e' he)).mpr h
          rw [List.length_append] at hlen
          obtain rfl : r = x.length := by omega
          rw [hr]
          dsimp only
          rw [if_pos (by simp)]
        · have he' : e' ∈ endPoints := hes List.mem_cons_self
          have hrest := ih (fun y hy => hes (List.mem_cons_of_mem _ hy))
            ((List.mem_cons.mp hmem).resolve_left (Ne.symm hsame))
          split
          next r hr =>
            rw [if_neg, hrest]
            intro hlen
            have hstands := (strstr_end_iff (endPoints_ne_nil e' he')).mp ⟨r, hr, hlen⟩
            exact hsame (endPoint_unique he' he hstands.1 h.1)
          · exact hrest
  exact hfind endPoints (List.Subset.refl _) he

/-- The loop finds nothing when no end point stands at the end of the host. -/
lemma findEndPoint_of_not_stands (h : ∀ e ∈ endPoints, ¬ Stands e host) :
    findEndPoint host endPoints = none := by
  have hfind : ∀ es ⊆ endPoints, findEndPoint host es = none := by
    intro es hes
    induction es with
    | nil => rfl
    | cons e es ih =>
        have he : e ∈ endPoints := hes List.mem_cons_self
        have hrest := ih fun y hy => hes (List.mem_cons_of_mem _ hy)
        rw [findEndPoint]
        split
        next r hr =>
          rw [if_neg, hrest]
          intro hlen
          exact h e he ((strstr_end_iff (endPoints_ne_nil e he)).mp ⟨r, hr, hlen⟩)
        · exact hrest
  exact hfind endPoints (List.Subset.refl _)

/-- An end point that stands at the end of the host is cut off with the character before it. -/
lemma ofHost_of_stands (he : e ∈ endPoints) (h : Stands e (x ++ e)) :
    ofHost (x ++ e) folder = if x = [] then .corrupted
      else if x.dropLast = [] then .invalid else .valid ⟨x.dropLast, folder, e⟩ := by
  have htake : (x ++ e).take (x.length - 1) = x.dropLast := by
    rw [List.take_append_of_le_length (Nat.sub_le _ _), List.dropLast_eq_take]
  rw [ofHost, findEndPoint_of_stands he h]
  dsimp only
  simp only [htake, List.length_eq_zero_iff]

/-- Without one the host is the bucket. -/
lemma ofHost_of_not_stands (h : ∀ e ∈ endPoints, ¬ Stands e host) :
    ofHost host folder = if host = [] then .invalid
      else .valid ⟨host, folder, ascii "s3.amazonaws.com"⟩ := by
  rw [ofHost, findEndPoint_of_not_stands h]

/-! ## The form -/

/-- `parse` without its local names. -/
lemma parse_eq (s : Bytes) : parse s =
    if ascii "s3://" <+: s then
      if 47 ∈ stripSlash (((s.drop 5).dropWhile (· ≠ 47)).drop 1) then .invalid
      else ofHost ((s.drop 5).takeWhile (· ≠ 47))
        (stripSlash (((s.drop 5).dropWhile (· ≠ 47)).drop 1))
    else .invalid := rfl

/-- The parser takes a text apart as it is written. -/
lemma parse_of_written (h : Written s host folder) : parse s = ofHost host folder := by
  have hscheme : (ascii "s3://").length = 5 := rfl
  rcases h.form with ⟨rfl, hfolder⟩ | ⟨behind, rfl, hfolder⟩
  · have hall : ∀ c ∈ host, decide (c ≠ 47) = true := all_ne h.whole
    have hdrop : (ascii "s3://" ++ host).drop 5 = host := by
      rw [← hscheme, List.drop_left]
    rw [parse_eq, if_pos (List.prefix_append _ _), hdrop, List.takeWhile_eq_self_iff.mpr hall,
      List.dropWhile_eq_nil_iff.mpr hall, hfolder]
    rfl
  · have hdrop : (ascii "s3://" ++ host ++ ascii "/" ++ behind).drop 5 = host ++ 47 :: behind := by
      rw [List.append_assoc, List.append_assoc, ← hscheme, List.drop_left]
      rfl
    have hstart : ascii "s3://" <+: ascii "s3://" ++ host ++ ascii "/" ++ behind := by
      rw [List.append_assoc, List.append_assoc]
      exact List.prefix_append _ _
    have hsingle : 47 ∉ stripSlash behind := hfolder ▸ h.single
    rw [parse_eq, if_pos hstart, hdrop, takeWhile_ne h.whole, dropWhile_ne h.whole,
      List.drop_succ_cons, List.drop_zero, hfolder]
    exact if_neg hsingle

/-- A text that is not refused has the form. -/
lemma written_of_parse (h : parse s ≠ .invalid) : ∃ host folder, Written s host folder := by
  rw [parse_eq] at h
  split_ifs at h with hstart hslash
  · exact absurd rfl h
  swap
  · exact absurd rfl h
  obtain ⟨path, rfl⟩ := hstart
  have hscheme : (ascii "s3://").length = 5 := rfl
  have hdrop : (ascii "s3://" ++ path).drop 5 = path := by rw [← hscheme, List.drop_left]
  rw [hdrop] at hslash
  by_cases hmem : 47 ∈ path
  · obtain ⟨front, behind, rfl, hfront⟩ := List.eq_append_cons_of_mem hmem
    rw [dropWhile_ne hfront] at hslash
    refine ⟨front, stripSlash behind, hfront, hslash, Or.inr ⟨behind, ?_, rfl⟩⟩
    rw [List.append_assoc, List.append_assoc]
    rfl
  · exact ⟨path, [], hmem, List.not_mem_nil, Or.inl ⟨rfl, rfl⟩⟩

/-! ## As documented -/

/-- An end point at the end of the host has something in front of it, and that ends with a dot
exactly when the end point occurs nowhere before. -/
def Separated (host : Bytes) : Prop :=
  ∀ e ∈ endPoints, ∀ x, host = x ++ e → x ≠ [] ∧ (x.getLast? = some 46 ↔ Stands e host)

/-- An end point by itself stands at its end. -/
lemma stands_self (he : e ∈ endPoints) : Stands e e := by
  refine ⟨List.suffix_refl e, fun hinner => ?_⟩
  have hlen := hinner.length_le
  have hpos := List.length_pos_of_ne_nil (endPoints_ne_nil e he)
  rw [List.length_dropLast] at hlen
  omega

/-- Either some end point stands at the end of the host, or none does. -/
lemma stands_cases (host : Bytes) :
    (∃ e ∈ endPoints, ∃ x, host = x ++ e ∧ Stands e (x ++ e)) ∨
      ∀ e ∈ endPoints, ¬ Stands e host := by
  by_cases h : ∃ e ∈ endPoints, Stands e host
  · obtain ⟨e, he, hstands⟩ := h
    obtain ⟨x, rfl⟩ := hstands.1
    exact Or.inl ⟨e, he, x, rfl, hstands⟩
  · push Not at h
    exact Or.inr h

/-- The only way to write a host with a dot and an end point at its end. -/
lemma eq_of_dotted {e' : Bytes} (he : e ∈ endPoints) (he' : e' ∈ endPoints)
    (h : x ++ e = b ++ ascii "." ++ e') : e' = e ∧ x = b ++ ascii "." := by
  have hsuffix : e' <:+ x ++ e := h ▸ List.suffix_append _ _
  obtain rfl : e' = e := endPoint_unique he' he hsuffix (List.suffix_append _ _)
  exact ⟨rfl, List.append_cancel_right h⟩

lemma getLast?_dotted (b : Bytes) : (b ++ ascii ".").getLast? = some 46 := by
  rw [List.getLast?_append]
  rfl

lemma dotted_ne_nil (b : Bytes) : b ++ ascii "." ≠ [] :=
  List.append_ne_nil_of_right_ne_nil b (by decide)

lemma dropLast_dotted (b : Bytes) : (b ++ ascii ".").dropLast = b := List.dropLast_concat

/-- A separated host with an end point at its end has a dot in front of it. -/
lemma Separated.dotted (h : Separated (x ++ e)) (he : e ∈ endPoints) (hstands : Stands e (x ++ e)) :
    ∃ b, x = b ++ ascii "." := by
  obtain ⟨b, hb⟩ := List.getLast?_eq_some_iff.mp ((h e he x rfl).2.mpr hstands)
  exact ⟨b, hb⟩

/-- **What the parser makes of a separated host**: the bucket and the end point around a dot, or the
whole host. -/
lemma ofHost_of_separated (h : Separated host) :
    (∃ b, ∃ e ∈ endPoints, host = b ++ ascii "." ++ e ∧
      ofHost host folder = if b = [] then .invalid else .valid ⟨b, folder, e⟩) ∨
    ((∀ b, ∀ e ∈ endPoints, host ≠ b ++ ascii "." ++ e) ∧
      ofHost host folder = if host = [] then .invalid
        else .valid ⟨host, folder, ascii "s3.amazonaws.com"⟩) := by
  rcases stands_cases host with ⟨e, he, x, rfl, hstands⟩ | hnone
  · obtain ⟨b, rfl⟩ := h.dotted he hstands
    refine Or.inl ⟨b, e, he, rfl, ?_⟩
    rw [ofHost_of_stands he hstands, if_neg (dotted_ne_nil b), dropLast_dotted]
  · refine Or.inr ⟨?_, ofHost_of_not_stands hnone⟩
    rintro b e he rfl
    exact hnone e he ((h e he _ rfl).2.mp (getLast?_dotted b))

/-- A host that is read as documented is separated. -/
lemma Documented.separated (h : Documented s) (hwritten : Written s host folder) :
    Separated host := by
  rintro e he x rfl
  have hparse := parse_of_written hwritten
  -- a host that is no end point behind a dot is valid
  have hvalid : (∀ e' ∈ endPoints, x ++ e ≠ ascii "." ++ e') →
      ∃ d, ofHost (x ++ e) folder = .valid d := by
    intro hhost
    have hne : x ++ e ≠ [] := List.append_ne_nil_of_right_ne_nil _ (endPoints_ne_nil e he)
    rw [← hparse]
    exact h.valid.mpr ⟨x ++ e, folder, hwritten, hne, hhost⟩
  have hundotted : x.getLast? ≠ some 46 → ∀ b, ∀ e' ∈ endPoints, x ++ e ≠ b ++ ascii "." ++ e' := by
    intro hlast b e' he' heq
    obtain ⟨-, rfl⟩ := eq_of_dotted he he' heq
    exact hlast (getLast?_dotted b)
  refine ⟨?_, ?_, ?_⟩
  · rintro rfl
    obtain ⟨d, hd⟩ := hvalid fun e' he' => hundotted (by simp) [] e' he'
    have hself : Stands e ([] ++ e) := stands_self he
    rw [ofHost_of_stands he hself, if_pos rfl] at hd
    cases hd
  · intro hlast
    obtain ⟨b, hb⟩ := List.getLast?_eq_some_iff.mp hlast
    obtain rfl : x = b ++ ascii "." := hb
    rcases List.eq_nil_or_concat b with rfl | ⟨b', c, hb'⟩
    · exact (stands_printed he).mpr fun hinner => endPoints_ne_nil e he (List.infix_nil.mp hinner)
    · by_contra hstands
      have hnone : ∀ e' ∈ endPoints, ¬ Stands e' (b ++ ascii "." ++ e) := by
        intro e' he' hstands'
        obtain rfl := endPoint_unique he' he hstands'.1 (List.suffix_append _ _)
        exact hstands hstands'
      have hb : b ≠ [] := by
        rw [hb']
        simp
      rw [ofHost_of_not_stands hnone, if_neg (by simp [hb])] at hparse
      have hbucket := (h.endPoint _ _ _ b e hparse hwritten hb he rfl).1
      have hlen := congrArg List.length hbucket
      simp only [List.length_append] at hlen
      have hpos := List.length_pos_of_ne_nil (endPoints_ne_nil e he)
      omega
  · intro hstands
    by_contra hlast
    have hfree := hundotted hlast
    obtain ⟨d, hd⟩ := hvalid fun e' he' => hfree [] e' he'
    rw [hd] at hparse
    rw [ofHost_of_stands he hstands] at hd
    split_ifs at hd
    cases hd
    have hbucket := (h.bucket _ _ _ hparse hwritten fun b _ => hfree b).1
    have hlen := congrArg List.length hbucket
    simp only [List.length_append, List.length_dropLast] at hlen
    have hpos := List.length_pos_of_ne_nil (endPoints_ne_nil e he)
    omega

/-- **Exactly which texts are read as documented**: those whose host, if they have the form at all,
is separated from its end point by a dot that the parser finds. -/
theorem documented_iff (s : Bytes) :
    Documented s ↔ ∀ host folder, Written s host folder → Separated host := by
  constructor
  · exact fun h host folder hwritten => h.separated hwritten
  intro h
  refine ⟨⟨?_, ?_⟩, ?_, ?_, ?_⟩
  · rintro ⟨d, hd⟩
    obtain ⟨host, folder, hwritten⟩ := written_of_parse (by rw [hd]; simp)
    refine ⟨host, folder, hwritten, ?_⟩
    rw [parse_of_written hwritten] at hd
    rcases ofHost_of_separated (h host folder hwritten) with
      ⟨b, e, he, rfl, hofHost⟩ | ⟨hfree, hofHost⟩
    · rw [hofHost] at hd
      split_ifs at hd with hb
      refine ⟨by simp [hb], fun e' he' heq => hb ?_⟩
      have hnil := (eq_of_dotted (b := []) he he' heq).2
      exact List.append_cancel_right hnil
    · rw [hofHost] at hd
      split_ifs at hd with hne
      exact ⟨hne, fun e he => hfree [] e he⟩
  · rintro ⟨host, folder, hwritten, hne, hhost⟩
    rw [parse_of_written hwritten]
    rcases ofHost_of_separated (h host folder hwritten) with
      ⟨b, e, he, rfl, hofHost⟩ | ⟨-, hofHost⟩
    · rw [hofHost, if_neg]
      · exact ⟨_, rfl⟩
      · rintro rfl
        exact hhost e he rfl
    · rw [hofHost, if_neg hne]
      exact ⟨_, rfl⟩
  · intro d host folder hd hwritten
    rw [parse_of_written hwritten] at hd
    rcases ofHost_of_separated (h host folder hwritten) with ⟨b, e, -, -, hofHost⟩ | ⟨-, hofHost⟩
    · rw [hofHost] at hd
      split_ifs at hd
      cases hd
      rfl
    · rw [hofHost] at hd
      split_ifs at hd
      cases hd
      rfl
  · rintro d host folder b e hd hwritten hb he rfl
    rw [parse_of_written hwritten] at hd
    rcases ofHost_of_separated (h _ folder hwritten) with
      ⟨b', e', he', heq, hofHost⟩ | ⟨hfree, -⟩
    · obtain ⟨rfl, hbucket⟩ := eq_of_dotted he he' heq
      obtain rfl := List.append_cancel_right hbucket
      rw [hofHost, if_neg hb] at hd
      cases hd
      exact ⟨rfl, rfl⟩
    · exact absurd rfl (hfree b e he)
  · intro d host folder hd hwritten hfree
    rw [parse_of_written hwritten] at hd
    rcases ofHost_of_separated (h host folder hwritten) with
      ⟨b, e, he, heq, hofHost⟩ | ⟨-, hofHost⟩
    · rw [hofHost] at hd
      split_ifs at hd with hb
      exact absurd heq (hfree b hb e he)
    · rw [hofHost] at hd
      split_ifs at hd
      cases hd
      exact ⟨rfl, rfl⟩

/-- `s3://b.s3-sa-east-1.amazonaws.com/F/`. -/
example : parse (ascii "s3://b.s3-sa-east-1.amazonaws.com/F/") =
    .valid ⟨ascii "b", ascii "F", ascii "s3-sa-east-1.amazonaws.com"⟩ := by decide

/-- Without a dot in front of the end point the bucket loses its last letter. -/
theorem undotted_not_documented : ¬ Documented (ascii "s3://foos3.amazonaws.com/") := by
  intro h
  have hwritten : Written (ascii "s3://foos3.amazonaws.com/") (ascii "foos3.amazonaws.com") [] :=
    ⟨by decide, by decide, Or.inr ⟨[], by decide, rfl⟩⟩
  have hseparated := h.separated hwritten (ascii "s3.amazonaws.com") default_mem_endPoints
    (ascii "foo") (by decide)
  exact absurd (hseparated.2.mpr (by decide)) (by decide)

/-! ## Printed and parsed again -/

/-- The text is read without a write in front of it, and a destination that is valid is the same
when it is printed and parsed again. -/
def Survives (s : Bytes) : Prop :=
  parse s ≠ .corrupted ∧ ∀ d, parse s = .valid d → parse d.absoluteString = .valid d

/-- The form of a printed destination. -/
lemma written_absoluteString {d : Destination} (hbucket : 47 ∉ d.bucket)
    (hend : d.endPoint ∈ endPoints) (hfolder : 47 ∉ d.folder) :
    Written d.absoluteString (d.bucket ++ ascii "." ++ d.endPoint) d.folder where
  whole := by
    have hslash := slash_notMem_endPoints _ hend
    have hdot : ascii "." = [46] := rfl
    simp [hbucket, hslash, hdot]
  single := hfolder
  form := by
    refine Or.inr ⟨if d.folder ≠ [] then d.folder ++ ascii "/" else [], ?_, ?_⟩
    · simp [absoluteString]
    · split_ifs with hempty
      · have hlast : (d.folder ++ ascii "/").getLast? = some 47 := by
          rw [List.getLast?_append]
          rfl
        rw [stripSlash, if_pos hlast]
        exact List.dropLast_concat.symm
      · rw [not_not.mp hempty]
        rfl

/-- **A printed destination is parsed back** when its bucket does not contain its end point. -/
lemma parse_absoluteString {d : Destination} (hne : d.bucket ≠ []) (hbucket : 47 ∉ d.bucket)
    (hend : d.endPoint ∈ endPoints) (hfolder : 47 ∉ d.folder) :
    parse d.absoluteString = .valid d ↔ ¬ d.endPoint <:+: d.bucket := by
  rw [parse_of_written (written_absoluteString hbucket hend hfolder), ← stands_printed hend]
  constructor
  · intro h
    by_contra hstands
    have hnone : ∀ e ∈ endPoints, ¬ Stands e (d.bucket ++ ascii "." ++ d.endPoint) := by
      intro e he hstands'
      obtain rfl := endPoint_unique he hend hstands'.1 (List.suffix_append _ _)
      exact hstands hstands'
    rw [ofHost_of_not_stands hnone, if_neg (by simp [hne])] at h
    have hlen := congrArg (List.length ∘ bucket) (Parsed.valid.inj h)
    have hpos := List.length_pos_of_ne_nil (endPoints_ne_nil _ hend)
    simp only [Function.comp_apply, List.length_append] at hlen
    omega
  · intro hstands
    rw [ofHost_of_stands hend hstands, if_neg (dotted_ne_nil _), dropLast_dotted, if_neg hne]

/-- **Exactly which destinations survive**: the host is no end point by itself, and a host that
contains the default end point has an end point at its end which occurs nowhere before. -/
theorem printed_iff (s : Bytes) :
    Survives s ↔ ∀ host folder, Written s host folder → host ∉ endPoints ∧
      (ascii "s3.amazonaws.com" <:+: host → ∃ e ∈ endPoints, Stands e host) := by
  constructor
  · rintro ⟨hsound, hsame⟩ host folder hwritten
    have hparse := parse_of_written hwritten
    constructor
    · intro hmem
      have hself : Stands host ([] ++ host) := stands_self hmem
      have hhost : ofHost ([] ++ host) folder = _ := ofHost_of_stands hmem hself
      rw [if_pos rfl] at hhost
      exact hsound (hparse.trans hhost)
    · intro hinner
      by_contra hnone
      push Not at hnone
      have hne : host ≠ [] := by
        rintro rfl
        exact endPoints_ne_nil _ default_mem_endPoints (List.infix_nil.mp hinner)
      rw [ofHost_of_not_stands hnone, if_neg hne] at hparse
      have hagain := hsame _ hparse
      rw [parse_absoluteString hne hwritten.whole default_mem_endPoints hwritten.single] at hagain
      exact hagain hinner
  · intro h
    constructor
    · intro hcorrupted
      obtain ⟨host, folder, hwritten⟩ := written_of_parse (by rw [hcorrupted]; simp)
      rw [parse_of_written hwritten] at hcorrupted
      rcases stands_cases host with ⟨e, he, x, rfl, hstands⟩ | hnone
      · rw [ofHost_of_stands he hstands] at hcorrupted
        split_ifs at hcorrupted with hx
        subst hx
        exact (h _ _ hwritten).1 he
      · rw [ofHost_of_not_stands hnone] at hcorrupted
        split_ifs at hcorrupted
    · intro d hd
      obtain ⟨host, folder, hwritten⟩ := written_of_parse (by rw [hd]; simp)
      rw [parse_of_written hwritten] at hd
      rcases stands_cases host with ⟨e, he, x, rfl, hstands⟩ | hnone
      · rw [ofHost_of_stands he hstands] at hd
        split_ifs at hd with hx hbucket
        cases hd
        have hslash : 47 ∉ x.dropLast := fun hmem =>
          hwritten.whole (List.mem_append_left e (List.dropLast_subset x hmem))
        rw [parse_absoluteString hbucket hslash he hwritten.single]
        -- an end point in the bucket would come before the one at the end
        intro hinner
        refine hstands.2 (hinner.trans ?_)
        rw [List.dropLast_append_of_ne_nil (endPoints_ne_nil e he)]
        exact ((List.dropLast_prefix x).trans (List.prefix_append x _)).isInfix
      · rw [ofHost_of_not_stands hnone] at hd
        split_ifs at hd with hne
        cases hd
        rw [parse_absoluteString hne hwritten.whole default_mem_endPoints hwritten.single]
        intro hinner
        obtain ⟨e, he, hstands⟩ := (h _ _ hwritten).2 hinner
        exact hnone e he hstands

/-- A bucket that is named like the default end point, and the end point behind it: printed once
more it has the end point three times. -/
theorem twice_not_survives :
    ¬ Survives (ascii "s3://s3.amazonaws.com.s3.amazonaws.com/") := by
  rintro ⟨-, h⟩
  have hparse : parse (ascii "s3://s3.amazonaws.com.s3.amazonaws.com/") =
      .valid ⟨ascii "s3.amazonaws.com.s3.amazonaws.com", [], ascii "s3.amazonaws.com"⟩ := by
    decide
  have hagain : parse (absoluteString
      ⟨ascii "s3.amazonaws.com.s3.amazonaws.com", [], ascii "s3.amazonaws.com"⟩) ≠
      .valid ⟨ascii "s3.amazonaws.com.s3.amazonaws.com", [], ascii "s3.amazonaws.com"⟩ := by
    decide
  exact hagain (h _ hparse)

end Destination

end Clarc
