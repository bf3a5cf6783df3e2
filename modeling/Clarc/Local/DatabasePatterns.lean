import Clarc.Core.Regex
import Clarc.Core.Runes
import Clarc.Local.LocalFileList

/-!
# What the patterns of the database exclude

`FilePattern::addDatabase` pastes the name of the database between `^\/` and `$`, and between `^\/`
and `-journal$`, without quoting it.  So the two patterns exclude the database and its journal, and
nothing else, when RE2 reads each character of the name as itself (`exact_of_literal`).  A special
character in the name makes the first pattern shorter than the path it is meant for: either it
matches nothing, and then the second one does not match the path of the database either, or it
matches some shorter path (`special_not_exact`).  A dot matches every other character in its
place (`dot_not_exact`).

RE2 is outside the repository.  `Re2.Implements` says what it is documented to do: it reads a
pattern in UTF-8 from left to right, and matches a text in full when the expression does.  Counted
repetition, `(?`, escapes other than those of punctuation, and named classes are not described; the
content of a class is read by a parameter.
-/

namespace Clarc

open Bytes

/-! ## How RE2 reads a pattern -/

/-- What a character is in a pattern. -/
def re2Token (c : Rune) : Token :=
  match c.bytes with
  | [46] => .dot
  | [94] => .caret
  | [36] => .dollar
  | [42] => .star
  | [43] => .plus
  | [63] => .question
  | [124] => .bar
  | [40] => .leftParen
  | [41] => .rightParen
  | [92] => .backslash
  | [91] => .leftBracket
  | [93] => .rightBracket
  | [123] => .leftBrace
  | [125] => .rightBrace
  | [44] => .comma
  | [58] => .colon
  | [48] => .zero
  | [b] => if 49 ≤ b ∧ b ≤ 57 then .digit else .plain
  | _ => .plain

/-- Letters, digits and the underscore. -/
def isWordByte (b : UInt8) : Bool :=
  (48 ≤ b && b ≤ 57) || (65 ≤ b && b ≤ 90) || b == 95 || (97 ≤ b && b ≤ 122)

/-- A backslash makes other characters below 128 stand for themselves. -/
def re2Escapable (c : Rune) : Bool :=
  match c.bytes with
  | [b] => !isWordByte b
  | _ => false

/-- The syntax of RE2, as it is by default.  A dot accepts all but a newline. -/
def re2Syntax (ofClass : List Rune → Option (Rune → Bool)) : RegexSyntax Rune where
  token := re2Token
  escapable := re2Escapable
  any c := decide (c.bytes ≠ [10])
  ofClass := ofClass

/-- RE2 compiles the patterns that are expressions in UTF-8, and matches what they match. -/
structure Re2.Implements (re : Re2) (ofClass : List Rune → Option (Rune → Bool)) : Prop where
  valid : ∀ cs r, (re2Syntax ofClass).parse cs = .valid r →
    re.ok (Rune.text cs) = true ∧
      ∀ path, re.fullMatch (Rune.text cs) path = true ↔
        ∃ w, Rune.text w = path ∧ r.Matches [] w []
  invalid : ∀ cs, (re2Syntax ofClass).parse cs = .invalid → re.ok (Rune.text cs) = false
  malformed : ∀ pattern, (∀ cs, Rune.text cs ≠ pattern) → re.ok pattern = false

/-! ## What a name is meant to exclude -/

/-- Adding the database excludes its own path and that of its journal, and nothing else. -/
def OnlyDatabase (re : Re2) (name : Bytes) : Prop :=
  ∀ (patterns : FilePattern) (path : Bytes),
    (patterns.addDatabase re name).matches re path = true ↔
      patterns.matches re path = true ∨ path = ascii "/" ++ name ∨
        path = ascii "/" ++ name ++ ascii "-journal"

/-- Every character of the name stands for itself, and no counted repetition ends in it. -/
def ReadAsItself (name : Bytes) : Prop :=
  ∃ cs, Rune.text cs = name ∧ (∀ c ∈ cs, (re2Token c).isLiteral = true) ∧
    Brace.none.completes (cs.map re2Token) = false

/-- `^\/` -/
def lead : List Rune := Rune.ofBytes (ascii "^\\/")

/-- The slash. -/
def slash : Rune := Rune.ofAscii 47 (by decide)

/-- The name uses nothing that is not described here. -/
def Described (ofClass : List Rune → Option (Rune → Bool)) (name : Bytes) : Prop :=
  ∀ cs, Rune.text cs = name → (re2Syntax ofClass).feedAll .start (lead ++ cs) ≠ .outside

/-- A pattern that compiles and matches a path. -/
def Excludes (re : Re2) (pattern path : Bytes) : Prop :=
  re.ok pattern = true ∧ re.fullMatch pattern path = true

lemma FilePattern.matches_add {re : Re2} {patterns : FilePattern} {pattern path : Bytes} :
    (patterns.add re pattern).matches re path = true ↔
      patterns.matches re path = true ∨ Excludes re pattern path := by
  unfold FilePattern.add FilePattern.matches Excludes
  split_ifs with hok <;> simp [hok]

/-- What is excluded after `addDatabase`. -/
lemma FilePattern.matches_addDatabase {re : Re2} {patterns : FilePattern} {name path : Bytes} :
    (patterns.addDatabase re name).matches re path = true ↔
      patterns.matches re path = true ∨ Excludes re (ascii "^\\/" ++ name ++ ascii "$") path ∨
        Excludes re (ascii "^\\/" ++ name ++ ascii "-journal$") path := by
  rw [addDatabase, matches_add, matches_add, or_assoc]

/-! ## Names of characters and dots -/

/-- `$` -/
def dollar : Rune := Rune.ofAscii 36 (by decide)

/-- `-journal` -/
def journal : List Rune := Rune.ofBytes (ascii "-journal")

/-- No character of the two endings is part of anything longer. -/
lemma isUnbraced_dollar : ∀ c ∈ [dollar], (re2Token c).isUnbraced = true := by
  decide

lemma plain_journal : ∀ c ∈ journal, re2Token c = .plain := by
  decide

lemma isUnbraced_journal : ∀ c ∈ journal, (re2Token c).isUnbraced = true := by
  intro c hc
  rw [plain_journal c hc]
  rfl

variable {ofClass : List Rune → Option (Rune → Bool)}

/-- The group after `^\/`. -/
def leadFrame : Frame Rune := (Frame.start.push .bol).push (.one fun x => decide (x = slash))

/-- The reader after `^\/`. -/
def leadReader : Reader Rune := ⟨leadFrame, [], .items, .none, .none⟩

lemma feedAll_lead : (re2Syntax ofClass).feedAll .start lead = .valid leadReader := by
  rfl

/-- It matches a slash at the beginning. -/
lemma matches_leadFrame {pre w post : List Rune} :
    leadFrame.current.Matches pre w post ↔ pre = [] ∧ w = [slash] := by
  rw [leadFrame, Frame.matches_push_one]
  constructor
  · rintro ⟨_, x, rfl, hx, u, v, rfl, rfl, rfl, hpre⟩
    rw [List.append_nil] at hpre
    exact ⟨hpre, by simpa using hx⟩
  · rintro ⟨rfl, rfl⟩
    exact ⟨[], slash, rfl, by simp, [], [], rfl, rfl, rfl, rfl⟩

/-- What is read after `^\/`. -/
lemma parse_lead (cs tail : List Rune) :
    (re2Syntax ofClass).parse (lead ++ cs ++ tail) =
      ((re2Syntax ofClass).feedAll leadReader cs).bind fun s =>
        ((re2Syntax ofClass).feedAll s tail).bind Reader.finish := by
  rw [RegexSyntax.parse, List.append_assoc, RegexSyntax.feedAll_append, feedAll_lead,
    Reading.bind_assoc]
  show ((re2Syntax ofClass).feedAll leadReader (cs ++ tail)).bind Reader.finish = _
  rw [RegexSyntax.feedAll_append, Reading.bind_assoc]

/-- **A name of characters and dots matches the words of its length that have its characters in
their places.** -/
theorem parse_single (ofClass : List Rune → Option (Rune → Bool)) {cs : List Rune}
    (hcs : ∀ c ∈ cs, (re2Token c).isSingle = true)
    (hcount : Brace.none.completes (cs.map re2Token) = false) :
    ∃ r, (re2Syntax ofClass).parse (lead ++ cs ++ [dollar]) = .valid r ∧
      ∀ w, r.Matches [] w [] ↔
        ∃ v, w = slash :: v ∧
          List.Forall₂ (fun c x => (re2Syntax ofClass).accepts c x = true) cs v := by
  have hatomic : ∀ c ∈ cs ++ [dollar], (re2Token c).isAtomic = true := by
    intro c hc
    rcases List.mem_append.mp hc with hc | hc
    · exact Token.isAtomic_of_isSingle (hcs c hc)
    · exact Token.isAtomic_of_isUnbraced (isUnbraced_dollar c hc)
  have hcount' : Brace.none.completes ((cs ++ [dollar]).map re2Token) = false := by
    rw [List.map_append, Brace.completes_append (List.forall_mem_map.mpr isUnbraced_dollar), hcount]
  obtain ⟨s, hread, hframe, houter, hmode⟩ :=
    RegexSyntax.feedAll_atomic (re2Syntax ofClass) hatomic leadReader rfl hcount'
  refine ⟨s.frame.whole, ?_, ?_⟩
  · rw [List.append_assoc, ← List.append_nil (cs ++ [dollar]), ← List.append_assoc, parse_lead,
      hread]
    exact Reader.finish_items hmode houter
  · intro w
    have hpush : s.frame = (leadFrame.pushAll (cs.map (re2Syntax ofClass).atom)).push .eol := by
      rw [hframe, List.map_append, Frame.pushAll_append]
      rfl
    have halts : s.frame.alts = none := by
      rw [hframe, Frame.pushAll_alts]
      rfl
    rw [Frame.matches_whole, halts, hpush, Frame.matches_push_eol, RegexSyntax.matches_pushAll hcs]
    constructor
    · rintro (⟨a, ha, -⟩ | ⟨⟨u, v, rfl, hv, hu⟩, -⟩)
      · cases ha
      · obtain ⟨-, rfl⟩ := matches_leadFrame.mp hu
        exact ⟨v, rfl, hv⟩
    · rintro ⟨v, rfl, hv⟩
      exact Or.inr ⟨⟨[slash], v, rfl, hv, matches_leadFrame.mpr ⟨rfl, rfl⟩⟩, rfl⟩

/-- The same for the pattern of the journal. -/
lemma parse_single_journal (ofClass : List Rune → Option (Rune → Bool)) {cs : List Rune}
    (hcs : ∀ c ∈ cs, (re2Token c).isSingle = true)
    (hcount : Brace.none.completes (cs.map re2Token) = false) :
    ∃ r, (re2Syntax ofClass).parse (lead ++ cs ++ (journal ++ [dollar])) = .valid r ∧
      ∀ w, r.Matches [] w [] ↔
        ∃ v, w = slash :: v ∧
          List.Forall₂ (fun c x => (re2Syntax ofClass).accepts c x = true) (cs ++ journal) v := by
  have hsingle : ∀ c ∈ cs ++ journal, (re2Token c).isSingle = true := by
    intro c hc
    rcases List.mem_append.mp hc with hc | hc
    · exact hcs c hc
    · rw [plain_journal c hc]
      rfl
  have hcount' : Brace.none.completes ((cs ++ journal).map re2Token) = false := by
    rw [List.map_append, Brace.completes_append (List.forall_mem_map.mpr isUnbraced_journal),
      hcount]
  obtain ⟨r, hparse, hr⟩ := parse_single ofClass hsingle hcount'
  rw [← List.append_assoc lead, List.append_assoc _ journal] at hparse
  exact ⟨r, hparse, hr⟩

/-! ## Paths and words -/

/-- A described pattern excludes the words that its expression matches. -/
lemma excludes_iff {re : Re2} (hre : re.Implements ofClass) {cs : List Rune}
    (hdescribed : (re2Syntax ofClass).parse cs ≠ .outside) {path : Bytes} :
    Excludes re (Rune.text cs) path ↔
      ∃ w, Rune.text w = path ∧ (re2Syntax ofClass).Accepts cs w := by
  cases hparse : (re2Syntax ofClass).parse cs with
  | valid r =>
      obtain ⟨hok, hmatch⟩ := hre.valid cs r hparse
      simp only [Excludes, hok, hmatch path, RegexSyntax.accepts_of_valid hparse, true_and]
  | invalid =>
      simp [Excludes, hre.invalid cs hparse, RegexSyntax.not_accepts_of_invalid hparse]
  | outside => exact absurd hparse hdescribed

/-- The two patterns match the name after a slash and the name of its journal, and nothing else. -/
def Exact (ofClass : List Rune → Option (Rune → Bool)) (cs : List Rune) : Prop :=
  ∀ w, (re2Syntax ofClass).Accepts (lead ++ cs ++ [dollar]) w ∨
      (re2Syntax ofClass).Accepts (lead ++ cs ++ (journal ++ [dollar])) w ↔
    w = slash :: cs ∨ w = slash :: cs ++ journal

lemma text_pattern (cs : List Rune) :
    Rune.text (lead ++ cs ++ [dollar]) = ascii "^\\/" ++ Rune.text cs ++ ascii "$" := by
  rw [Rune.text_append, Rune.text_append]
  rfl

lemma text_journalPattern (cs : List Rune) :
    Rune.text (lead ++ cs ++ (journal ++ [dollar])) =
      ascii "^\\/" ++ Rune.text cs ++ ascii "-journal$" := by
  rw [Rune.text_append, Rune.text_append]
  rfl

lemma text_path (cs : List Rune) : Rune.text (slash :: cs) = ascii "/" ++ Rune.text cs := rfl

lemma text_journalPath (cs : List Rune) :
    Rune.text (slash :: cs ++ journal) = ascii "/" ++ Rune.text cs ++ ascii "-journal" := by
  rw [Rune.text_append]
  rfl

/-- **For described names this is a question about words.** -/
theorem onlyDatabase_iff_exact {re : Re2} (hre : re.Implements ofClass) {cs : List Rune}
    (hfirst : (re2Syntax ofClass).parse (lead ++ cs ++ [dollar]) ≠ .outside)
    (hsecond : (re2Syntax ofClass).parse (lead ++ cs ++ (journal ++ [dollar])) ≠ .outside) :
    OnlyDatabase re (Rune.text cs) ↔ Exact ofClass cs := by
  have hexcluded : ∀ path, Excludes re (ascii "^\\/" ++ Rune.text cs ++ ascii "$") path ∨
      Excludes re (ascii "^\\/" ++ Rune.text cs ++ ascii "-journal$") path ↔
        ∃ w, Rune.text w = path ∧ ((re2Syntax ofClass).Accepts (lead ++ cs ++ [dollar]) w ∨
          (re2Syntax ofClass).Accepts (lead ++ cs ++ (journal ++ [dollar])) w) := by
    intro path
    rw [← text_pattern, ← text_journalPattern, excludes_iff hre hfirst, excludes_iff hre hsecond,
      ← exists_or]
    simp only [and_or_left]
  have hpaths : ∀ w, Rune.text w = ascii "/" ++ Rune.text cs ∨
      Rune.text w = ascii "/" ++ Rune.text cs ++ ascii "-journal" ↔
        w = slash :: cs ∨ w = slash :: cs ++ journal := by
    intro w
    rw [← text_journalPath, ← text_path, Rune.text_injective.eq_iff, Rune.text_injective.eq_iff]
  constructor
  · intro honly w
    rw [← hpaths w]
    have hpath := honly [] (Rune.text w)
    rw [FilePattern.matches_addDatabase, hexcluded] at hpath
    simp only [FilePattern.matches, List.any_nil, Bool.false_eq_true, false_or] at hpath
    rw [← hpath]
    constructor
    · intro haccepts
      exact ⟨w, rfl, haccepts⟩
    · rintro ⟨w', hw', haccepts⟩
      rwa [← Rune.text_injective hw']
  · intro hexact patterns path
    rw [FilePattern.matches_addDatabase, hexcluded]
    refine or_congr_right ?_
    constructor
    · rintro ⟨w, rfl, haccepts⟩
      exact (hpaths w).mpr ((hexact w).mp haccepts)
    · rintro (rfl | rfl)
      · exact ⟨slash :: cs, text_path cs, (hexact _).mpr (Or.inl rfl)⟩
      · exact ⟨slash :: cs ++ journal, text_journalPath cs, (hexact _).mpr (Or.inr rfl)⟩

/-! ## Names that read as themselves -/

lemma accepts_literal {c : Rune} (hc : (re2Token c).isLiteral = true) (x : Rune) :
    (re2Syntax ofClass).accepts c x = true ↔ c = x := by
  have hdot : (re2Syntax ofClass).token c ≠ .dot := by
    intro hdot
    rw [show re2Token c = .dot from hdot] at hc
    cases hc
  rw [RegexSyntax.accepts_of_ne_dot _ hdot, decide_eq_true_eq, eq_comm]

lemma forall₂_accepts_literal {cs : List Rune} (hcs : ∀ c ∈ cs, (re2Token c).isLiteral = true)
    (v : List Rune) :
    List.Forall₂ (fun c x => (re2Syntax ofClass).accepts c x = true) cs v ↔ cs = v := by
  induction cs generalizing v with
  | nil => cases v <;> simp
  | cons c cs ih =>
      obtain ⟨hc, hrest⟩ := List.forall_mem_cons.mp hcs
      cases v with
      | nil => simp
      | cons x v => rw [List.forall₂_cons, accepts_literal hc, List.cons_eq_cons, ih hrest]

lemma isSingle_of_isLiteral {cs : List Rune} (hcs : ∀ c ∈ cs, (re2Token c).isLiteral = true) :
    ∀ c ∈ cs, (re2Token c).isSingle = true := by
  intro c hc
  rw [Token.isSingle, hcs c hc, Bool.true_or]

/-- **A name that reads as itself is matched alone.** -/
theorem exact_of_literal {cs : List Rune} (hcs : ∀ c ∈ cs, (re2Token c).isLiteral = true)
    (hcount : Brace.none.completes (cs.map re2Token) = false) : Exact ofClass cs := by
  obtain ⟨r, hparse, hr⟩ := parse_single ofClass (isSingle_of_isLiteral hcs) hcount
  obtain ⟨r', hparse', hr'⟩ :=
    parse_single_journal ofClass (isSingle_of_isLiteral hcs) hcount
  have hjournal : ∀ c ∈ cs ++ journal, (re2Token c).isLiteral = true := by
    intro c hc
    rcases List.mem_append.mp hc with hc | hc
    · exact hcs c hc
    · rw [plain_journal c hc]
      rfl
  intro w
  simp only [RegexSyntax.accepts_of_valid hparse, RegexSyntax.accepts_of_valid hparse', hr, hr',
    forall₂_accepts_literal hcs, forall₂_accepts_literal hjournal]
  simp

/-- Some other character. -/
def letterX : Rune := Rune.ofAscii 120 (by decide)

/-- **A dot in the name matches another character in its place.** -/
theorem dot_not_exact {cs : List Rune} (hcs : ∀ c ∈ cs, (re2Token c).isSingle = true)
    (hcount : Brace.none.completes (cs.map re2Token) = false) {d : Rune} (hd : d ∈ cs)
    (hdot : re2Token d = .dot) : ¬ Exact ofClass cs := by
  intro hexact
  let other : Rune → Rune := fun c => if re2Token c = .dot then letterX else c
  obtain ⟨r, hparse, hr⟩ := parse_single ofClass hcs hcount
  have haccepts : (re2Syntax ofClass).Accepts (lead ++ cs ++ [dollar]) (slash :: cs.map other) := by
    rw [RegexSyntax.accepts_of_valid hparse, hr]
    refine ⟨_, rfl, ?_⟩
    rw [List.forall₂_map_right_iff, List.forall₂_same]
    intro c _
    by_cases hc : re2Token c = .dot
    · have hother : other c = letterX := if_pos hc
      rw [hother]
      exact (RegexSyntax.accepts_dot (re2Syntax ofClass) hc letterX).trans rfl
    · have hother : other c = c := if_neg hc
      rw [hother]
      exact (RegexSyntax.accepts_of_ne_dot (re2Syntax ofClass) hc c).trans (by simp)
  rcases (hexact _).mp (Or.inl haccepts) with heq | heq
  · have hmap : cs.map other = cs.map id := by simpa using (List.cons_eq_cons.mp heq).2
    have hfix : other d = d := List.map_inj_left.mp hmap d hd
    have hother : other d = letterX := if_pos hdot
    rw [← hfix, hother] at hdot
    revert hdot
    decide
  · have hlen := congrArg List.length heq
    rw [List.length_append, List.length_cons, List.length_cons, List.length_map,
      show journal.length = 8 from rfl] at hlen
    omega

/-- For names of characters and dots it is a question about words. -/
lemma onlyDatabase_iff_exact_of_single {re : Re2} (hre : re.Implements ofClass) {cs : List Rune}
    (hcs : ∀ c ∈ cs, (re2Token c).isSingle = true)
    (hcount : Brace.none.completes (cs.map re2Token) = false) :
    OnlyDatabase re (Rune.text cs) ↔ Exact ofClass cs := by
  obtain ⟨r, hparse, -⟩ := parse_single ofClass hcs hcount
  obtain ⟨r', hparse', -⟩ := parse_single_journal ofClass hcs hcount
  exact onlyDatabase_iff_exact hre (by rw [hparse]; simp) (by rw [hparse']; simp)

/-! ## Names with special characters -/

/-- Patterns that are no expressions match nothing. -/
lemma not_exact_of_invalid {cs : List Rune}
    (hfirst : (re2Syntax ofClass).parse (lead ++ cs ++ [dollar]) = .invalid)
    (hsecond : (re2Syntax ofClass).parse (lead ++ cs ++ (journal ++ [dollar])) = .invalid) :
    (re2Syntax ofClass).parse (lead ++ cs ++ [dollar]) ≠ .outside ∧
      (re2Syntax ofClass).parse (lead ++ cs ++ (journal ++ [dollar])) ≠ .outside ∧
      ¬ Exact ofClass cs := by
  refine ⟨by rw [hfirst]; simp, by rw [hsecond]; simp, fun hexact => ?_⟩
  rcases (hexact (slash :: cs)).mpr (Or.inl rfl) with haccepts | haccepts
  · exact RegexSyntax.not_accepts_of_invalid hfirst _ haccepts
  · exact RegexSyntax.not_accepts_of_invalid hsecond _ haccepts

/-- What the first pattern matches is the path of the database, or longer. -/
lemma Exact.length_le {cs : List Rune} (hexact : Exact ofClass cs) {w : List Rune}
    (haccepts : (re2Syntax ofClass).Accepts (lead ++ cs ++ [dollar]) w) :
    w = slash :: cs ∨ cs.length + 1 < w.length := by
  rcases (hexact w).mp (Or.inl haccepts) with heq | heq
  · exact Or.inl heq
  · right
    rw [heq, List.length_append, List.length_cons, show journal.length = 8 from rfl]
    omega

/-- The first pattern is a group with fewer characters than its text, and its `$`: that is the
anchor, or stands for itself after a backslash at the end of the name. -/
structure ReadsShort (ofClass : List Rune → Option (Rune → Bool)) (cs : List Rune) (f : Frame Rune)
    (ending : Regex Rune) : Prop where
  leaves : f.leaves ≤ cs.length
  ends : ending = .eol ∨ (ending = .one fun y => decide (y = dollar)) ∧
    ∃ ds c, cs = ds ++ [c] ∧ c ≠ dollar
  first : (re2Syntax ofClass).parse (lead ++ cs ++ [dollar]) = .valid (f.push ending).whole

section Short

variable {cs : List Rune} {f : Frame Rune} {ending : Regex Rune}
  (h : ReadsShort ofClass cs f ending) (hexact : Exact ofClass cs)

include h hexact

/-- The first pattern matches nothing that is too short. -/
lemma ReadsShort.lt_length {w : List Rune} (hw : (f.push ending).whole.Matches [] w []) :
    cs.length < w.length := by
  rcases hexact.length_le ((RegexSyntax.accepts_of_valid h.first).mpr hw) with rfl | hlong
  · simp
  · omega

/-- The alternatives before the last bar match nothing. -/
lemma ReadsShort.not_alts {a : Regex Rune} (ha : f.alts = some a) (w : List Rune) :
    ¬ a.Matches [] w [] := by
  intro hw
  obtain ⟨w', hlen, hw'⟩ := Regex.Matches.exists_short a [] [] w hw
  have hlong := h.lt_length hexact (Frame.matches_whole.mpr (Or.inl ⟨a, ha, hw'⟩))
  have hleaves := (Frame.leaves_alts_le ha).trans h.leaves
  omega

/-- What stands after the last bar matches nothing before the anchor. -/
lemma ReadsShort.not_current (hend : ending = .eol) (w : List Rune) :
    ¬ f.current.Matches [] w [] := by
  intro hw
  obtain ⟨w', hlen, hw'⟩ := Regex.Matches.exists_short f.current [] [] w hw
  have hmatch : (f.push ending).whole.Matches [] w' [] := by
    rw [hend]
    exact Frame.matches_whole.mpr (Or.inr (Frame.matches_push_eol.mpr ⟨hw', rfl⟩))
  have hlong := h.lt_length hexact hmatch
  have hleaves := (Frame.leaves_current_le f).trans h.leaves
  omega

/-- It matches nothing that something follows either. -/
lemma ReadsShort.not_followed {w post : List Rune} (hpost : post ≠ []) :
    ¬ f.current.Matches [] w post := by
  intro hw
  rcases h.ends with hend | ⟨hend, ds, c, hcs, hc⟩
  · have hlast := Regex.Matches.mono _ _ _ _ [] [] ⟨id, fun h => absurd h hpost⟩ hw
    exact h.not_current hexact hend w hlast
  · have hdollar := Regex.Matches.mono _ _ _ _ [] [dollar] ⟨id, fun h => absurd h hpost⟩ hw
    obtain ⟨u, hlen, hu⟩ := Regex.Matches.exists_short f.current [] [dollar] w hdollar
    have hmatch : (f.push ending).whole.Matches [] (u ++ [dollar]) [] := by
      rw [hend]
      exact Frame.matches_whole.mpr
        (Or.inr (Frame.matches_push_one.mpr ⟨u, dollar, rfl, by simp, hu⟩))
    have hleaves := (Frame.leaves_current_le f).trans h.leaves
    rcases hexact.length_le ((RegexSyntax.accepts_of_valid h.first).mpr hmatch) with heq | hlong
    · rw [hcs, ← List.cons_append] at heq
      exact hc (List.cons_eq_cons.mp (List.append_inj' heq rfl).2).1.symm
    · rw [List.length_append, List.length_singleton] at hlong
      omega

/-- So the first pattern matches nothing. -/
lemma ReadsShort.not_first (w : List Rune) : ¬ (f.push ending).whole.Matches [] w [] := by
  intro hw
  rcases Frame.matches_whole.mp hw with ⟨a, ha, hw⟩ | hw
  · exact h.not_alts hexact ha w hw
  · rcases h.ends with rfl | ⟨rfl, -⟩
    · exact h.not_current hexact rfl w (Frame.matches_push_eol.mp hw).1
    · obtain ⟨u, x, -, -, hu⟩ := Frame.matches_push_one.mp hw
      exact h.not_followed hexact (by simp) hu

end Short

/-- **An expression with fewer characters than its text cannot match the path of the database
alone.**  The first pattern then matches nothing, for what it matches would be too short; and the
second pattern, which only adds characters to it, does not match the path of the database either. -/
theorem not_exact_of_short {cs : List Rune} {f : Frame Rune} {ending : Regex Rune}
    (h : ReadsShort ofClass cs f ending)
    (hsecond : (re2Syntax ofClass).parse (lead ++ cs ++ (journal ++ [dollar])) =
      .valid ((f.pushAll (journal.map (re2Syntax ofClass).atom)).push .eol).whole) :
    ¬ Exact ofClass cs := by
  intro hexact
  rcases (hexact (slash :: cs)).mpr (Or.inl rfl) with haccepts | haccepts
  · exact h.not_first hexact _ ((RegexSyntax.accepts_of_valid h.first).mp haccepts)
  · rw [RegexSyntax.accepts_of_valid hsecond, Frame.matches_whole] at haccepts
    rcases haccepts with ⟨a, ha, hw⟩ | hw
    · exact h.not_alts hexact (by simpa [Frame.push] using ha) _ hw
    · have hjournal : ∀ c ∈ journal, ((re2Syntax ofClass).token c).isSingle = true := by
        intro c hc
        rw [show (re2Syntax ofClass).token c = .plain from plain_journal c hc]
        rfl
      obtain ⟨u, v, -, hv, hu⟩ :=
        (RegexSyntax.matches_pushAll hjournal f [] _ []).mp (Frame.matches_push_eol.mp hw).1
      have hlen : v.length = 8 := hv.length_eq.symm
      refine h.not_followed hexact ?_ hu
      rw [List.append_nil]
      exact List.ne_nil_of_length_pos (by omega)

/-- How the name ends: the `$` after it is an anchor, or after a backslash a character. -/
lemma feedAll_dollar {cs : List Rune} {s : Reader Rune}
    (hread : (re2Syntax ofClass).feedAll leadReader cs = .valid s)
    (hmode : s.mode = .items ∨ s.mode = .escaped) :
    ∃ s' ending, (re2Syntax ofClass).feedAll s [dollar] = .valid s' ∧
      s'.frame = s.frame.push ending ∧ s'.outer = s.outer ∧ s'.mode = .items ∧
      (ending = .eol ∨ (ending = .one fun y => decide (y = dollar)) ∧
        ∃ ds c, cs = ds ++ [c] ∧ c ≠ dollar) := by
  rcases hmode with hmode | hmode
  · have hatomic : ∀ c ∈ [dollar], (re2Token c).isAtomic = true :=
      fun c hc => Token.isAtomic_of_isUnbraced (isUnbraced_dollar c hc)
    obtain ⟨s', htail, hframe, houter, hmode'⟩ :=
      RegexSyntax.feedAll_atomic (re2Syntax ofClass) hatomic s hmode
        (Brace.completes_unbraced (List.forall_mem_map.mpr isUnbraced_dollar) s.brace)
    exact ⟨s', .eol, htail, hframe, houter, hmode', Or.inl rfl⟩
  · refine ⟨s.next (s.frame.push (.one fun y => decide (y = dollar))), _, ?_, rfl, rfl, rfl,
      Or.inr ⟨rfl, ?_⟩⟩
    · rw [RegexSyntax.feedAll, RegexSyntax.feed_escaped hmode rfl]
      rfl
    · rcases List.eq_nil_or_concat cs with rfl | ⟨ds, c, rfl⟩
      · cases hread
        cases hmode
      · rw [List.concat_eq_append] at hread ⊢
        refine ⟨ds, c, rfl, ?_⟩
        rintro rfl
        rw [RegexSyntax.feedAll_append] at hread
        obtain ⟨s₀, -, hlast⟩ := Reading.bind_eq_valid.mp hread
        obtain ⟨s₁, hfeed, hnil⟩ := Reading.bind_eq_valid.mp hlast
        cases hnil
        have hbackslash : re2Token dollar = .backslash := RegexSyntax.token_of_escaped hfeed hmode
        revert hbackslash
        decide

lemma isUnbraced_ending : ∀ c ∈ journal ++ [dollar], (re2Token c).isUnbraced = true := by
  intro c hc
  rcases List.mem_append.mp hc with hc | hc
  · exact isUnbraced_journal c hc
  · exact isUnbraced_dollar c hc

lemma feedAll_journal (ofClass : List Rune → Option (Rune → Bool)) {s : Reader Rune}
    (hmode : s.mode = .items ∨ s.mode = .escaped) :
    ∃ s', (re2Syntax ofClass).feedAll s (journal ++ [dollar]) = .valid s' ∧
      s'.frame = (s.frame.pushAll (journal.map (re2Syntax ofClass).atom)).push .eol ∧
      s'.outer = s.outer ∧ s'.mode = .items := by
  let hyphen : Rune := Rune.ofAscii 45 (by decide)
  have hplain : (re2Syntax ofClass).token hyphen = .plain := rfl
  have htail : ∀ c ∈ journal.tail ++ [dollar], ((re2Syntax ofClass).token c).isUnbraced = true :=
    fun c hc => isUnbraced_ending c (List.mem_of_mem_tail hc)
  obtain ⟨s', hread, hframe, houter, hmode'⟩ := RegexSyntax.feedAll_after hmode hplain rfl htail
  refine ⟨s', hread, ?_, houter, hmode'⟩
  rw [hframe]
  rfl

/-- **A name with a special character is not what its patterns match alone.** -/
theorem special_not_exact (ofClass : List Rune → Option (Rune → Bool)) {cs : List Rune}
    (hspecial : ∃ c ∈ cs, (re2Token c).isSingle = false)
    (hdescribed : (re2Syntax ofClass).feedAll leadReader cs ≠ .outside) :
    (re2Syntax ofClass).parse (lead ++ cs ++ [dollar]) ≠ .outside ∧
      (re2Syntax ofClass).parse (lead ++ cs ++ (journal ++ [dollar])) ≠ .outside ∧
      ¬ Exact ofClass cs := by
  cases hread : (re2Syntax ofClass).feedAll leadReader cs with
  | outside => exact absurd hread hdescribed
  | invalid =>
      exact not_exact_of_invalid (by rw [parse_lead, hread]; rfl) (by rw [parse_lead, hread]; rfl)
  | valid s =>
      have hfew := RegexSyntax.leaves_feedAll_special hspecial rfl hread
      have hleaves : s.frame.leaves ≤ cs.length := by
        have hone : leadReader.leaves = 1 := rfl
        have hframe : s.frame.leaves ≤ s.leaves := Nat.le_add_right _ _
        omega
      have hfirst : (re2Syntax ofClass).parse (lead ++ cs ++ [dollar]) =
          ((re2Syntax ofClass).feedAll s [dollar]).bind Reader.finish := by
        rw [parse_lead, hread]
        rfl
      have hsecond : (re2Syntax ofClass).parse (lead ++ cs ++ (journal ++ [dollar])) =
          ((re2Syntax ofClass).feedAll s (journal ++ [dollar])).bind Reader.finish := by
        rw [parse_lead, hread]
        rfl
      by_cases hmode : s.mode = .items ∨ s.mode = .escaped
      · obtain ⟨s₁, ending, hread₁, hframe₁, houter₁, hmode₁, hending⟩ := feedAll_dollar hread hmode
        obtain ⟨s₂, hread₂, hframe₂, houter₂, hmode₂⟩ := feedAll_journal ofClass hmode
        rw [hread₁] at hfirst
        rw [hread₂] at hsecond
        by_cases houter : s.outer = []
        · have hvalid₁ := hfirst.trans (Reader.finish_items hmode₁ (houter₁.trans houter))
          have hvalid₂ := hsecond.trans (Reader.finish_items hmode₂ (houter₂.trans houter))
          rw [hframe₁] at hvalid₁
          rw [hframe₂] at hvalid₂
          exact ⟨by rw [hvalid₁]; simp, by rw [hvalid₂]; simp,
            not_exact_of_short ⟨hleaves, hending, hvalid₁⟩ hvalid₂⟩
        · exact not_exact_of_invalid (hfirst.trans (Reader.finish_open (houter₁ ▸ houter)))
            (hsecond.trans (Reader.finish_open (houter₂ ▸ houter)))
      · obtain ⟨content, escaped, hclass⟩ :
            ∃ content escaped, s.mode = .inClass content escaped := by
          cases hcases : s.mode with
          | items => exact absurd (Or.inl hcases) hmode
          | escaped => exact absurd (Or.inr hcases) hmode
          | inClass content escaped => exact ⟨content, escaped, rfl⟩
        exact not_exact_of_invalid
          (hfirst.trans (RegexSyntax.feedAll_inClass isUnbraced_dollar s content escaped hclass))
          (hsecond.trans (RegexSyntax.feedAll_inClass isUnbraced_ending s content escaped hclass))

/-! ## Which names are excluded alone -/

/-- A name that is no text makes no pattern. -/
lemma not_onlyDatabase_of_malformed {re : Re2} (hre : re.Implements ofClass) {name : Bytes}
    (hname : ∀ cs, Rune.text cs ≠ name) : ¬ OnlyDatabase re name := by
  have hrejected : ∀ {back : Bytes}, (∀ b ∈ back, b < 128) →
      ∀ path, ¬ Excludes re (ascii "^\\/" ++ name ++ back) path := by
    rintro back hback path ⟨hok, -⟩
    rw [hre.malformed _ ?_] at hok
    · cases hok
    · intro cs hcs
      obtain ⟨ds, -, hds⟩ := Rune.text_eq_append (by decide +kernel) hback hcs
      exact hname ds hds
  intro honly
  have hpath := (honly [] (ascii "/" ++ name)).mpr (Or.inr (Or.inl rfl))
  rw [FilePattern.matches_addDatabase] at hpath
  rcases hpath with hpath | hpath | hpath
  · cases hpath
  · exact hrejected (by decide +kernel) _ hpath
  · exact hrejected (by decide +kernel) _ hpath

/-- **The database alone is excluded when its name reads as itself, and among the names that are
described here only then.** -/
theorem onlyDatabase_iff {re : Re2} (hre : re.Implements ofClass) (name : Bytes) :
    (ReadAsItself name → OnlyDatabase re name) ∧
      (Described ofClass name → OnlyDatabase re name → ReadAsItself name) := by
  constructor
  · rintro ⟨cs, rfl, hcs, hcount⟩
    exact (onlyDatabase_iff_exact_of_single hre (isSingle_of_isLiteral hcs) hcount).mpr
      (exact_of_literal hcs hcount)
  · intro hdescribed honly
    by_cases htext : ∀ cs, Rune.text cs ≠ name
    · exact absurd honly (not_onlyDatabase_of_malformed hre htext)
    obtain ⟨cs, rfl⟩ : ∃ cs, Rune.text cs = name := by simpa using htext
    have hread : (re2Syntax ofClass).feedAll leadReader cs ≠ .outside := by
      have hlead := hdescribed cs rfl
      rwa [RegexSyntax.feedAll_append, feedAll_lead] at hlead
    by_cases hsingle : ∀ c ∈ cs, (re2Token c).isSingle = true
    · have hcount : Brace.none.completes (cs.map re2Token) = false := by
        by_contra hcount
        exact hread (RegexSyntax.feedAll_counts (re2Syntax ofClass)
          (fun c hc => Token.isAtomic_of_isSingle (hsingle c hc)) leadReader rfl
          (Bool.eq_true_of_not_eq_false hcount))
      have hexact := (onlyDatabase_iff_exact_of_single hre hsingle hcount).mp honly
      refine ⟨cs, rfl, ?_, hcount⟩
      intro c hc
      have hc' := hsingle c hc
      rw [Token.isSingle, Bool.or_eq_true, decide_eq_true_eq] at hc'
      exact hc'.resolve_right fun hdot => dot_not_exact hsingle hcount hc hdot hexact
    · obtain ⟨hfirst, hsecond, hnot⟩ :=
        special_not_exact ofClass (by simpa using hsingle) hread
      exact absurd ((onlyDatabase_iff_exact hre hfirst hsecond).mp honly) hnot

open Classical in
/-- RE2 as its documentation describes it; it compiles nothing else. -/
noncomputable def documentedRe2 (ofClass : List Rune → Option (Rune → Bool)) : Re2 where
  ok pattern := decide (∃ cs r, Rune.text cs = pattern ∧ (re2Syntax ofClass).parse cs = .valid r)
  fullMatch pattern path := decide (∃ cs w, Rune.text cs = pattern ∧ Rune.text w = path ∧
    (re2Syntax ofClass).Accepts cs w)

lemma documentedRe2_implements : (documentedRe2 ofClass).Implements ofClass where
  valid cs r hparse := by
    constructor
    · simp only [documentedRe2, decide_eq_true_eq]
      exact ⟨cs, r, rfl, hparse⟩
    · intro path
      simp only [documentedRe2, decide_eq_true_eq]
      constructor
      · rintro ⟨cs', w, hcs, hw, haccepts⟩
        rw [Rune.text_injective hcs, RegexSyntax.accepts_of_valid hparse] at haccepts
        exact ⟨w, hw, haccepts⟩
      · rintro ⟨w, hw, hr⟩
        exact ⟨cs, w, rfl, hw, (RegexSyntax.accepts_of_valid hparse).mpr hr⟩
  invalid cs hparse := by
    simp only [documentedRe2, decide_eq_false_iff_not]
    rintro ⟨cs', r, hcs, hparse'⟩
    rw [Rune.text_injective hcs, hparse] at hparse'
    cases hparse'
  malformed pattern hpattern := by
    simp only [documentedRe2, decide_eq_false_iff_not]
    rintro ⟨cs, r, hcs, -⟩
    exact hpattern cs hcs

/-- A name with an underscore reads as itself; one with parentheses does not. -/
theorem onlyDatabase_iff_underscore :
    OnlyDatabase (documentedRe2 fun _ => none) (ascii "backup_db") ∧
      ¬ OnlyDatabase (documentedRe2 fun _ => none) (ascii "db(1)") := by
  constructor
  · exact (onlyDatabase_iff documentedRe2_implements _).1
      ⟨Rune.ofBytes (ascii "backup_db"), by decide, by decide, by decide⟩
  · intro honly
    have hcs : ∀ cs, Rune.text cs = ascii "db(1)" → cs = Rune.ofBytes (ascii "db(1)") := by
      intro cs hcs
      exact Rune.text_injective (hcs.trans (Rune.text_ofBytes (by decide +kernel)).symm)
    obtain ⟨cs, htext, hliteral, -⟩ :=
      (onlyDatabase_iff documentedRe2_implements _).2
        (by
          intro cs htext
          rw [hcs cs htext]
          intro h
          cases h) honly
    rw [hcs cs htext] at hliteral
    revert hliteral
    decide

/-- **The default name excludes another file**: its dots match any character. -/
theorem default_name_excludes_another :
    (documentedRe2 fun _ => none).Implements (fun _ => none) ∧
      FilePattern.matches (documentedRe2 fun _ => none)
        (FilePattern.addDatabase (documentedRe2 fun _ => none) [] (ascii ".clarc.sqlite3"))
        (ascii "/xclarc.sqlite3") = true ∧
      ¬ OnlyDatabase (documentedRe2 fun _ => none) (ascii ".clarc.sqlite3") := by
  have hmatches : FilePattern.matches (documentedRe2 fun _ => none)
      (FilePattern.addDatabase (documentedRe2 fun _ => none) [] (ascii ".clarc.sqlite3"))
      (ascii "/xclarc.sqlite3") = true := by
    let cs := Rune.ofBytes (ascii ".clarc.sqlite3")
    let v := Rune.ofBytes (ascii "xclarc.sqlite3")
    have hname : Rune.text cs = ascii ".clarc.sqlite3" := Rune.text_ofBytes (by decide +kernel)
    have hpath : Rune.text (slash :: v) = ascii "/xclarc.sqlite3" := by
      rw [text_path, Rune.text_ofBytes (by decide +kernel)]
      rfl
    have hsingle : ∀ c ∈ cs, (re2Token c).isSingle = true := by decide
    have hcount : Brace.none.completes (cs.map re2Token) = false := by decide
    obtain ⟨r, hparse, hr⟩ := parse_single (fun _ => none) hsingle hcount
    have hforall : List.Forall₂ (fun c x => (re2Syntax fun _ => none).accepts c x = true) cs v := by
      decide
    have hexcludes := (excludes_iff documentedRe2_implements (by rw [hparse]; simp)).mpr
      ⟨slash :: v, hpath, (RegexSyntax.accepts_of_valid hparse).mpr ((hr _).mpr ⟨v, rfl, hforall⟩)⟩
    rw [text_pattern, hname] at hexcludes
    exact FilePattern.matches_addDatabase.mpr (Or.inr (Or.inl hexcludes))
  refine ⟨documentedRe2_implements, hmatches, fun honly => ?_⟩
  rcases (honly [] (ascii "/xclarc.sqlite3")).mp hmatches with hnone | hdatabase | hjournal
  · cases hnone
  · revert hdatabase
    decide +kernel
  · revert hjournal
    decide +kernel

end Clarc
