import Mathlib

/-!
# Regular expressions, and the text that is read as one

A word is matched by a regular expression between what stands before it and what stands after it, so
that the two anchors, which Mathlib's `RegularExpression` does not have, are expressions like any
other.  An expression that matches a word longer than its number of characters also matches a
shorter one there (`Regex.Matches.shrink`): of a repetition a round can be left out.

The text of an expression is read from left to right by a state with the group that is open and the
groups around it.  Every character adds at most one to the characters of the expression
(`RegexSyntax.leaves_feedAll`), and a special one adds none (`RegexSyntax.leaves_feedAll_special`);
so what is matched by a text with a special character is, for some word, shorter than the text.
Text without special characters matches itself (`RegexSyntax.feedAll_atomic`).
-/

/-! ## Expressions -/

/-- Regular expressions over a type of characters.  `rep` stands for `?`, `+` and `*`, by whether a
round is required and whether several are allowed. -/
inductive Regex (α : Type*)
  | empty
  | one (accepts : α → Bool)
  | bol
  | eol
  | cat (a b : Regex α)
  | alt (a b : Regex α)
  | rep (atLeastOne many : Bool) (r : Regex α)

namespace Regex

variable {α : Type*}

/-- So many rounds, one after the other. -/
def Rounds (M : List α → List α → List α → Prop) : ℕ → List α → List α → List α → Prop
  | 0, _, w, _ => w = []
  | n + 1, pre, w, post =>
      ∃ u v, w = u ++ v ∧ M pre u (v ++ post) ∧ Rounds M n (pre ++ u) v post

/-- A word is matched after `pre` and before `post`. -/
def Matches : Regex α → List α → List α → List α → Prop
  | empty, _, w, _ => w = []
  | one accepts, _, w, _ => ∃ x, w = [x] ∧ accepts x = true
  | bol, pre, w, _ => w = [] ∧ pre = []
  | eol, _, w, post => w = [] ∧ post = []
  | cat a b, pre, w, post =>
      ∃ u v, w = u ++ v ∧ a.Matches pre u (v ++ post) ∧ b.Matches (pre ++ u) v post
  | alt a b, pre, w, post => a.Matches pre w post ∨ b.Matches pre w post
  | rep atLeastOne many r, pre, w, post =>
      ∃ n, (atLeastOne = true → 1 ≤ n) ∧ (many = false → n ≤ 1) ∧ Rounds r.Matches n pre w post

/-- How many characters the expression has. -/
def leaves : Regex α → ℕ
  | empty => 0
  | one _ => 1
  | bol => 0
  | eol => 0
  | cat a b => a.leaves + b.leaves
  | alt a b => a.leaves + b.leaves
  | rep _ _ r => r.leaves

/-! ## What stands around a word

An anchor asks only whether there is anything before or after the word. -/

/-- Nothing new stands before the word, and nothing new after it, where nothing stood. -/
def NoNarrower (pre post pre' post' : List α) : Prop :=
  (pre = [] → pre' = []) ∧ (post = [] → post' = [])

lemma Rounds.mono {M : List α → List α → List α → Prop}
    (hM : ∀ pre w post pre' post', NoNarrower pre post pre' post' → M pre w post →
      M pre' w post') :
    ∀ (n : ℕ) (pre w post pre' post' : List α), NoNarrower pre post pre' post' →
      Rounds M n pre w post → Rounds M n pre' w post' := by
  intro n
  induction n with
  | zero => intro pre w post pre' post' _ h; exact h
  | succ n ih =>
      rintro pre w post pre' post' ⟨hpre, hpost⟩ ⟨u, v, rfl, hfirst, hrest⟩
      refine ⟨u, v, rfl, hM _ _ _ _ _ ⟨hpre, ?_⟩ hfirst, ih _ _ _ _ _ ⟨?_, hpost⟩ hrest⟩
      · simp only [List.append_eq_nil_iff]
        exact fun h => ⟨h.1, hpost h.2⟩
      · simp only [List.append_eq_nil_iff]
        exact fun h => ⟨hpre h.1, h.2⟩

/-- A match stays one when what stands around it changes, unless something new comes up. -/
lemma Matches.mono : ∀ (r : Regex α) (pre w post pre' post' : List α),
    NoNarrower pre post pre' post' → r.Matches pre w post → r.Matches pre' w post' := by
  intro r
  induction r with
  | empty => intro pre w post pre' post' _ h; exact h
  | one accepts => intro pre w post pre' post' _ h; exact h
  | bol => intro pre w post pre' post' hctx h; exact ⟨h.1, hctx.1 h.2⟩
  | eol => intro pre w post pre' post' hctx h; exact ⟨h.1, hctx.2 h.2⟩
  | cat a b iha ihb =>
      rintro pre w post pre' post' ⟨hpre, hpost⟩ ⟨u, v, rfl, ha, hb⟩
      refine ⟨u, v, rfl, iha _ _ _ _ _ ⟨hpre, ?_⟩ ha, ihb _ _ _ _ _ ⟨?_, hpost⟩ hb⟩
      · simp only [List.append_eq_nil_iff]
        exact fun h => ⟨h.1, hpost h.2⟩
      · simp only [List.append_eq_nil_iff]
        exact fun h => ⟨hpre h.1, h.2⟩
  | alt a b iha ihb =>
      intro pre w post pre' post' hctx h
      rcases h with h | h
      · exact Or.inl (iha _ _ _ _ _ hctx h)
      · exact Or.inr (ihb _ _ _ _ _ hctx h)
  | rep atLeastOne many r ih =>
      rintro pre w post pre' post' hctx ⟨n, hleast, hmost, hrounds⟩
      exact ⟨n, hleast, hmost, Rounds.mono ih n _ _ _ _ _ hctx hrounds⟩

/-! ## Long words can be shortened -/

/-- Of a long run of rounds, one is shortened or left out. -/
lemma Rounds.shrink {r : Regex α}
    (hr : ∀ pre w post, r.Matches pre w post → r.leaves < w.length →
      ∃ w', w'.length < w.length ∧ r.Matches pre w' post) :
    ∀ (n : ℕ) (pre w post : List α), Rounds r.Matches n pre w post → r.leaves < w.length →
      ∃ m w', m ≤ n ∧ 1 ≤ m ∧ w'.length < w.length ∧ Rounds r.Matches m pre w' post := by
  intro n
  induction n with
  | zero =>
      rintro pre w post rfl hlong
      simp at hlong
  | succ n ih =>
      rintro pre w post ⟨u, v, rfl, hfirst, hrest⟩ hlong
      rw [List.length_append] at hlong
      by_cases hu : r.leaves < u.length
      · obtain ⟨u', hshort, hfirst'⟩ := hr _ _ _ hfirst hu
        have hne : u ≠ [] := List.ne_nil_of_length_pos (by omega)
        refine ⟨n + 1, u' ++ v, le_rfl, by omega, by simpa using hshort, u', v, rfl, hfirst', ?_⟩
        exact Rounds.mono (Matches.mono r) n _ _ _ _ _ ⟨by simp [hne], id⟩ hrest
      · have hv : v ≠ [] := List.ne_nil_of_length_pos (by omega)
        cases u with
        | nil =>
            -- an empty round: one of the others is too long
            obtain ⟨m, v', hm, -, hshort, hrest'⟩ := ih _ _ _ hrest (by simpa using hlong)
            refine ⟨m + 1, v', by omega, by omega, by simpa using hshort, [], v', rfl, ?_, hrest'⟩
            exact Matches.mono r _ _ _ _ _ ⟨id, by simp [hv]⟩ hfirst
        | cons x u =>
            -- the round can be left out: others are left
            cases n with
            | zero => exact absurd hrest hv
            | succ n =>
                refine ⟨n + 1, v, by omega, by omega, by simp, ?_⟩
                exact Rounds.mono (Matches.mono r) _ _ _ _ _ _ ⟨by simp, id⟩ hrest

/-- **A word longer than the expression has characters can be shortened.** -/
theorem Matches.shrink : ∀ (r : Regex α) (pre w post : List α), r.Matches pre w post →
    r.leaves < w.length → ∃ w', w'.length < w.length ∧ r.Matches pre w' post := by
  intro r
  induction r with
  | empty => rintro pre w post rfl hlong; simp at hlong
  | one accepts => rintro pre w post ⟨x, rfl, _⟩ hlong; simp [leaves] at hlong
  | bol => rintro pre w post ⟨rfl, _⟩ hlong; simp at hlong
  | eol => rintro pre w post ⟨rfl, _⟩ hlong; simp at hlong
  | cat a b iha ihb =>
      rintro pre w post ⟨u, v, rfl, ha, hb⟩ hlong
      rw [List.length_append, leaves] at hlong
      by_cases hu : a.leaves < u.length
      · obtain ⟨u', hshort, ha'⟩ := iha _ _ _ ha hu
        have hne : u ≠ [] := List.ne_nil_of_length_pos (by omega)
        refine ⟨u' ++ v, by simpa using hshort, u', v, rfl, ha', ?_⟩
        exact Matches.mono b _ _ _ _ _ ⟨by simp [hne], id⟩ hb
      · obtain ⟨v', hshort, hb'⟩ := ihb _ _ _ hb (by omega)
        have hne : v ≠ [] := List.ne_nil_of_length_pos (by omega)
        refine ⟨u ++ v', by simpa using hshort, u, v', rfl, ?_, hb'⟩
        exact Matches.mono a _ _ _ _ _ ⟨id, by simp [hne]⟩ ha
  | alt a b iha ihb =>
      intro pre w post h hlong
      rw [leaves] at hlong
      rcases h with h | h
      · obtain ⟨w', hshort, h'⟩ := iha _ _ _ h (by omega)
        exact ⟨w', hshort, Or.inl h'⟩
      · obtain ⟨w', hshort, h'⟩ := ihb _ _ _ h (by omega)
        exact ⟨w', hshort, Or.inr h'⟩
  | rep atLeastOne many r ih =>
      rintro pre w post ⟨n, hleast, hmost, hrounds⟩ hlong
      obtain ⟨m, w', hm, hone, hshort, hrounds'⟩ := Rounds.shrink ih n _ _ _ hrounds hlong
      exact ⟨w', hshort, m, fun _ => hone, fun hmany => hm.trans (hmost hmany), hrounds'⟩

/-- Where anything is matched, so is a word no longer than the expression has characters. -/
lemma Matches.exists_short (r : Regex α) (pre post : List α) :
    ∀ w, r.Matches pre w post → ∃ w', w'.length ≤ r.leaves ∧ r.Matches pre w' post := by
  intro w
  induction hlen : w.length using Nat.strong_induction_on generalizing w with
  | _ len ih =>
      intro h
      by_cases hlong : r.leaves < w.length
      · obtain ⟨w', hshort, h'⟩ := Matches.shrink r pre w post h hlong
        exact ih w'.length (hlen ▸ hshort) w' rfl h'
      · exact ⟨w, not_lt.mp hlong, h⟩

end Regex

/-! ## Text that is read as an expression -/

/-- What a character is to a reader of expressions; a digit other than zero is a `digit`. -/
inductive Token
  | plain | zero | digit | comma | leftBrace | rightBrace | rightBracket | colon
  | dot | caret | dollar
  | star | plus | question | bar | leftParen | rightParen | backslash | leftBracket
  deriving DecidableEq

namespace Token

/-- The character stands for itself. -/
def isLiteral : Token → Bool
  | plain | zero | digit | comma | leftBrace | rightBrace | rightBracket | colon => true
  | _ => false

/-- The character stands for one character. -/
def isSingle (t : Token) : Bool := t.isLiteral || decide (t = dot)

/-- The character is an expression by itself. -/
def isAtomic (t : Token) : Bool := t.isSingle || decide (t = caret) || decide (t = dollar)

/-- The character is an expression by itself, and no part of a counted repetition or of a class. -/
def isUnbraced (t : Token) : Bool := decide (t = plain) || decide (t = dollar)

lemma eq_of_isUnbraced {t : Token} (h : t.isUnbraced = true) : t = plain ∨ t = dollar := by
  simpa [isUnbraced] using h

lemma isAtomic_of_isSingle {t : Token} (h : t.isSingle = true) : t.isAtomic = true := by
  simp [isAtomic, h]

lemma isAtomic_of_isUnbraced {t : Token} (h : t.isUnbraced = true) : t.isAtomic = true := by
  rcases eq_of_isUnbraced h with rfl | rfl <;> rfl

end Token

/-- How characters read: what each is, which may follow a backslash to stand for themselves, which
a dot accepts, and which ones a class in brackets accepts, if it is one. -/
structure RegexSyntax (α : Type*) where
  token : α → Token
  escapable : α → Bool
  any : α → Bool
  ofClass : List α → Option (α → Bool)

/-- What has been read; or the text is no expression; or it uses what is not described here. -/
inductive Reading (σ : Type*)
  | valid (s : σ)
  | invalid
  | outside

namespace Reading

variable {σ τ υ : Type*}

/-- Reading on. -/
def bind : Reading σ → (σ → Reading τ) → Reading τ
  | valid s, f => f s
  | invalid, _ => invalid
  | outside, _ => outside

lemma bind_assoc (x : Reading σ) (f : σ → Reading τ) (g : τ → Reading υ) :
    (x.bind f).bind g = x.bind fun s => (f s).bind g := by
  cases x <;> rfl

/-- Reading on succeeds when both parts do. -/
lemma bind_eq_valid {x : Reading σ} {f : σ → Reading τ} {t : τ} :
    x.bind f = valid t ↔ ∃ s, x = valid s ∧ f s = valid t := by
  cases x with
  | valid s => simp [bind]
  | invalid => simp [bind]
  | outside => simp [bind]

end Reading

/-- A group that is being read: the alternatives before the last bar, the expression since then, and
the last item of it, to which a repetition would apply. -/
structure Frame (α : Type*) where
  alts : Option (Regex α)
  before : Regex α
  last : Option (Regex α)

namespace Frame

variable {α : Type*}

/-- A group that has just begun. -/
def start : Frame α := ⟨none, .empty, none⟩

/-- The expression since the last bar. -/
def current (f : Frame α) : Regex α :=
  match f.last with
  | none => f.before
  | some r => .cat f.before r

/-- The expression of the group. -/
def whole (f : Frame α) : Regex α :=
  match f.alts with
  | none => f.current
  | some a => .alt a f.current

/-- Another item. -/
def push (f : Frame α) (r : Regex α) : Frame α := ⟨f.alts, f.current, some r⟩

/-- A bar. -/
def bar (f : Frame α) : Frame α := ⟨some f.whole, .empty, none⟩

end Frame

/-- Where the reader stands: between items, after a backslash, or in a class, whose content so far
may end with a backslash. -/
inductive Mode (α : Type*)
  | items
  | escaped
  | inClass (content : List α) (escaped : Bool)

/-- Whether an operator of repetition has just been read, and made reluctant by a question mark. -/
inductive Unary
  | none | greedy | reluctant
  deriving DecidableEq

/-- How much of a counted repetition, as `{2}`, `{2,}` or `{2,5}`, has just been read.  The numbers
have no leading zeros. -/
inductive Brace
  | none | opened | zero | digits | comma | upperZero | upperDigits | complete
  deriving DecidableEq

/-- One more character. -/
def Brace.next : Brace → Token → Brace
  | _, .leftBrace => .opened
  | .opened, .zero => .zero
  | .opened, .digit => .digits
  | .digits, .zero => .digits
  | .digits, .digit => .digits
  | .zero, .comma => .comma
  | .digits, .comma => .comma
  | .comma, .zero => .upperZero
  | .comma, .digit => .upperDigits
  | .upperDigits, .zero => .upperDigits
  | .upperDigits, .digit => .upperDigits
  | .zero, .rightBrace => .complete
  | .digits, .rightBrace => .complete
  | .comma, .rightBrace => .complete
  | .upperZero, .rightBrace => .complete
  | .upperDigits, .rightBrace => .complete
  | _, _ => .none

/-- A counted repetition ends somewhere in a text of these characters. -/
def Brace.completes : Brace → List Token → Bool
  | _, [] => false
  | brace, t :: ts => decide (brace.next t = .complete) || (brace.next t).completes ts

lemma Brace.completes_unbraced {ts : List Token} (hts : ∀ t ∈ ts, t.isUnbraced = true) :
    ∀ brace : Brace, brace.completes ts = false := by
  induction ts with
  | nil => intro brace; rfl
  | cons t ts ih =>
      intro brace
      obtain ⟨ht, hrest⟩ := List.forall_mem_cons.mp hts
      have hnext : brace.next t = .none := by
        rcases Token.eq_of_isUnbraced ht with rfl | rfl <;> cases brace <;> rfl
      rw [completes, hnext]
      simpa using ih hrest .none

/-- Such characters at the end complete nothing. -/
lemma Brace.completes_append {ts tail : List Token} (htail : ∀ t ∈ tail, t.isUnbraced = true) :
    ∀ brace : Brace, brace.completes (ts ++ tail) = brace.completes ts := by
  induction ts with
  | nil => intro brace; exact completes_unbraced htail brace
  | cons t ts ih => intro brace; rw [List.cons_append, completes, completes, ih]

/-- The reader: the group that is open and those around it, the innermost first. -/
structure Reader (α : Type*) where
  frame : Frame α
  outer : List (Frame α)
  mode : Mode α
  unary : Unary
  brace : Brace

namespace Reader

variable {α : Type*}

/-- Nothing has been read. -/
def start : Reader α := ⟨.start, [], .items, .none, .none⟩

/-- Between items, with another group. -/
def next (s : Reader α) (frame : Frame α) : Reader α := ⟨frame, s.outer, .items, .none, .none⟩

/-- An operator applies to the last item, and to no other operator. -/
def repeated (s : Reader α) (atLeastOne many : Bool) : Reading (Reader α) :=
  match s.unary, s.frame.last with
  | .none, some r =>
      .valid { s.next { s.frame with last := some (.rep atLeastOne many r) } with unary := .greedy }
  | _, _ => .invalid

/-- A question mark makes an operator reluctant, or is one; after a parenthesis it begins flags or
the name of a group. -/
def question (s : Reader α) : Reading (Reader α) :=
  match s.unary with
  | .greedy => .valid { s with unary := .reluctant }
  | _ =>
      if s.outer ≠ [] ∧ s.frame.alts.isNone ∧ s.frame.last.isNone then .outside
      else s.repeated false false

/-- A closing parenthesis. -/
def close (s : Reader α) : Reading (Reader α) :=
  match s.outer with
  | [] => .invalid
  | f :: outer => .valid ⟨f.push s.frame.whole, outer, .items, .none, .none⟩

/-- The end of the text. -/
def finish (s : Reader α) : Reading (Regex α) :=
  match s.mode, s.outer with
  | .items, [] => .valid s.frame.whole
  | _, _ => .invalid

lemma finish_items {s : Reader α} (hmode : s.mode = .items) (houter : s.outer = []) :
    s.finish = .valid s.frame.whole := by
  rw [finish, hmode, houter]

/-- A group that stays open makes the text no expression. -/
lemma finish_open {s : Reader α} (houter : s.outer ≠ []) : s.finish = .invalid := by
  unfold finish
  split
  next heq => exact absurd heq houter
  next => rfl

end Reader

namespace RegexSyntax

variable {α : Type*} [DecidableEq α] (syn : RegexSyntax α)

/-- A character that is an expression by itself. -/
def atom (c : α) : Regex α :=
  match syn.token c with
  | .dot => .one syn.any
  | .caret => .bol
  | .dollar => .eol
  | _ => .one fun x => decide (x = c)

/-- A character between items.  A closing brace may end a counted repetition. -/
def feedItem (s : Reader α) (c : α) : Reading (Reader α) :=
  match syn.token c with
  | .star => s.repeated false true
  | .plus => s.repeated true true
  | .question => s.question
  | .bar => .valid (s.next s.frame.bar)
  | .leftParen => .valid ⟨.start, s.frame :: s.outer, .items, .none, .none⟩
  | .rightParen => s.close
  | .backslash => .valid { s with mode := .escaped, unary := .none, brace := .none }
  | .leftBracket => .valid { s with mode := .inClass [] false, unary := .none, brace := .none }
  | t =>
      if s.brace.next t = .complete then .outside
      else .valid { s.next (s.frame.push (syn.atom c)) with brace := s.brace.next t }

/-- A closing bracket that begins the class stands for itself. -/
def atFront (content : List α) : Bool :=
  match content.map syn.token with
  | [] => true
  | [.caret] => true
  | _ => false

/-- A character of a class; `[:` would begin the name of another class. -/
def feedClass (s : Reader α) (content : List α) (c : α) : Reading (Reader α) :=
  match syn.token c with
  | .backslash => .valid { s with mode := .inClass (content ++ [c]) true }
  | .rightBracket =>
      if syn.atFront content then .valid { s with mode := .inClass (content ++ [c]) false }
      else
        match syn.ofClass content with
        | some accepts => .valid (s.next (s.frame.push (.one accepts)))
        | none => .invalid
  | .colon =>
      if (content.getLast?.map syn.token) = some .leftBracket then .outside
      else .valid { s with mode := .inClass (content ++ [c]) false }
  | _ => .valid { s with mode := .inClass (content ++ [c]) false }

/-- One character. -/
def feed (s : Reader α) (c : α) : Reading (Reader α) :=
  match s.mode with
  | .items => syn.feedItem s c
  | .escaped =>
      if syn.escapable c then .valid (s.next (s.frame.push (.one fun x => decide (x = c))))
      else .outside
  | .inClass content true => .valid { s with mode := .inClass (content ++ [c]) false }
  | .inClass content false => syn.feedClass s content c

/-- A text, from left to right. -/
def feedAll : Reader α → List α → Reading (Reader α)
  | s, [] => .valid s
  | s, c :: cs => (syn.feed s c).bind fun s => feedAll s cs

/-- The expression a text is read as. -/
def parse (cs : List α) : Reading (Regex α) := (syn.feedAll .start cs).bind Reader.finish

variable {syn}

lemma feed_items {s : Reader α} (hmode : s.mode = .items) (c : α) :
    syn.feed s c = syn.feedItem s c := by
  rw [feed, hmode]

lemma feedAll_append (s : Reader α) (a b : List α) :
    syn.feedAll s (a ++ b) = (syn.feedAll s a).bind fun s => syn.feedAll s b := by
  induction a generalizing s with
  | nil => rfl
  | cons c a ih =>
      rw [List.cons_append, feedAll, feedAll, Reading.bind_assoc]
      congr 1
      funext s'
      exact ih s'

end RegexSyntax

/-! ## How many characters an expression gets from its text -/

namespace Frame

variable {α : Type*}

/-- How many characters the group has. -/
def leaves (f : Frame α) : ℕ :=
  f.alts.elim 0 Regex.leaves + f.before.leaves + f.last.elim 0 Regex.leaves

lemma leaves_current (f : Frame α) :
    f.current.leaves = f.before.leaves + f.last.elim 0 Regex.leaves := by
  obtain ⟨alts, before, last⟩ := f
  cases last <;> rfl

lemma leaves_current_le (f : Frame α) : f.current.leaves ≤ f.leaves := by
  rw [leaves_current, leaves]
  omega

lemma leaves_alts_le {f : Frame α} {a : Regex α} (h : f.alts = some a) : a.leaves ≤ f.leaves := by
  rw [leaves, h, Option.elim_some]
  omega

lemma leaves_whole (f : Frame α) : f.whole.leaves = f.leaves := by
  obtain ⟨alts, before, last⟩ := f
  cases alts with
  | none => simp [whole, leaves, leaves_current]
  | some a => simp [whole, leaves, leaves_current, Regex.leaves, Nat.add_assoc]

lemma leaves_push (f : Frame α) (r : Regex α) : (f.push r).leaves = f.leaves + r.leaves := by
  simp [push, leaves, leaves_current, Nat.add_assoc]

lemma leaves_bar (f : Frame α) : f.bar.leaves = f.leaves := by
  show f.whole.leaves + 0 + 0 = f.leaves
  exact leaves_whole f

end Frame

namespace Reader

variable {α : Type*}

/-- How many characters the groups have together. -/
def leaves (s : Reader α) : ℕ := s.frame.leaves + (s.outer.map Frame.leaves).sum

lemma leaves_repeated {s s' : Reader α} {atLeastOne many : Bool}
    (h : s.repeated atLeastOne many = .valid s') : s'.leaves = s.leaves := by
  unfold repeated at h
  split at h
  next r _ hlast =>
    cases h
    simp [leaves, Frame.leaves, next, hlast, Regex.leaves]
  next => cases h

lemma leaves_question {s s' : Reader α} (h : s.question = .valid s') : s'.leaves = s.leaves := by
  unfold question at h
  split at h
  next => cases h; rfl
  next =>
    split_ifs at h
    exact leaves_repeated h

lemma leaves_close {s s' : Reader α} (h : s.close = .valid s') : s'.leaves = s.leaves := by
  unfold close at h
  split at h
  next => cases h
  next f outer houter =>
    cases h
    simp only [leaves, houter, Frame.leaves_push, Frame.leaves_whole, List.map_cons, List.sum_cons]
    omega

end Reader

namespace RegexSyntax

variable {α : Type*} [DecidableEq α] {syn : RegexSyntax α}

lemma leaves_atom (c : α) : (syn.atom c).leaves ≤ 1 := by
  unfold atom
  split <;> simp [Regex.leaves]

/-- An anchor has no character. -/
lemma leaves_atom_anchor {c : α} (hatomic : (syn.token c).isAtomic = true)
    (hc : (syn.token c).isSingle = false) : (syn.atom c).leaves = 0 := by
  have htok : syn.token c = .caret ∨ syn.token c = .dollar := by
    simpa [Token.isAtomic, hc] using hatomic
  rcases htok with htok | htok <;> simp [atom, htok, Regex.leaves]

/-- A character that is an expression by itself is added as one. -/
lemma feedItem_atomic (s : Reader α) {c : α} (hc : (syn.token c).isAtomic = true) :
    syn.feedItem s c =
      if s.brace.next (syn.token c) = .complete then .outside
      else .valid
        { s.next (s.frame.push (syn.atom c)) with brace := s.brace.next (syn.token c) } := by
  unfold feedItem
  cases htok : syn.token c with
  | star | plus | question | bar | leftParen | rightParen | backslash | leftBracket =>
      rw [htok] at hc
      exact absurd hc (by decide)
  | _ => rfl

/-- An operator, a bar, a parenthesis, a backslash, a bracket or an anchor adds no character. -/
lemma leaves_feedItem_special {s s' : Reader α} {c : α} (hc : (syn.token c).isSingle = false)
    (h : syn.feedItem s c = .valid s') : s'.leaves = s.leaves := by
  by_cases hatomic : (syn.token c).isAtomic = true
  · rw [feedItem_atomic s hatomic] at h
    split_ifs at h
    cases h
    simp [Reader.leaves, Reader.next, Frame.leaves_push, leaves_atom_anchor hatomic hc]
  unfold feedItem at h
  cases htok : syn.token c with
  | star => rw [htok] at h; exact Reader.leaves_repeated h
  | plus => rw [htok] at h; exact Reader.leaves_repeated h
  | question => rw [htok] at h; exact Reader.leaves_question h
  | bar =>
      rw [htok] at h
      cases h
      simp [Reader.leaves, Reader.next, Frame.leaves_bar]
  | leftParen =>
      rw [htok] at h
      cases h
      simp [Reader.leaves, Frame.start, Frame.leaves, Regex.leaves]
  | rightParen => rw [htok] at h; exact Reader.leaves_close h
  | backslash => rw [htok] at h; cases h; rfl
  | leftBracket => rw [htok] at h; cases h; rfl
  | _ => exact absurd (by rw [htok]; rfl) hatomic

lemma leaves_feedItem {s s' : Reader α} {c : α} (h : syn.feedItem s c = .valid s') :
    s'.leaves ≤ s.leaves + 1 := by
  cases hc : (syn.token c).isSingle with
  | false => exact (leaves_feedItem_special hc h).le.trans (Nat.le_succ _)
  | true =>
      rw [feedItem_atomic s (Token.isAtomic_of_isSingle hc)] at h
      split_ifs at h
      cases h
      have hatom : (syn.atom c).leaves ≤ 1 := leaves_atom c
      simp only [Reader.leaves, Reader.next, Frame.leaves_push]
      omega

omit [DecidableEq α] in
lemma leaves_feedClass {s s' : Reader α} {content : List α} {c : α}
    (h : syn.feedClass s content c = .valid s') : s'.leaves ≤ s.leaves + 1 := by
  unfold feedClass at h
  split at h
  next => cases h; exact Nat.le_succ _
  next =>
    split_ifs at h
    · cases h; exact Nat.le_succ _
    · split at h
      · cases h
        simp only [Reader.leaves, Reader.next, Frame.leaves_push, Regex.leaves]
        omega
      · cases h
  next =>
    split_ifs at h
    cases h
    exact Nat.le_succ _
  next => cases h; exact Nat.le_succ _

/-- A character of the text adds at most one to the expression. -/
lemma leaves_feed {s s' : Reader α} {c : α} (h : syn.feed s c = .valid s') :
    s'.leaves ≤ s.leaves + 1 := by
  unfold feed at h
  split at h
  next => exact leaves_feedItem h
  next =>
    split_ifs at h
    cases h
    simp only [Reader.leaves, Reader.next, Frame.leaves_push, Regex.leaves]
    omega
  next => cases h; exact Nat.le_succ _
  next => exact leaves_feedClass h

/-- A text adds at most as many as it has. -/
lemma leaves_feedAll {s s' : Reader α} {cs : List α} (h : syn.feedAll s cs = .valid s') :
    s'.leaves ≤ s.leaves + cs.length := by
  induction cs generalizing s with
  | nil => cases h; simp
  | cons c cs ih =>
      obtain ⟨s₁, hfeed, hrest⟩ := Reading.bind_eq_valid.mp h
      have hone := leaves_feed hfeed
      have hmore := ih hrest
      rw [List.length_cons]
      omega

end RegexSyntax

/-! ## Text without operators -/

namespace Frame

variable {α : Type*}

/-- Items, one after the other. -/
def pushAll (f : Frame α) (rs : List (Regex α)) : Frame α := rs.foldl push f

@[simp] lemma pushAll_cons (f : Frame α) (r : Regex α) (rs : List (Regex α)) :
    f.pushAll (r :: rs) = (f.push r).pushAll rs := rfl

@[simp] lemma pushAll_alts (f : Frame α) (rs : List (Regex α)) : (f.pushAll rs).alts = f.alts := by
  induction rs generalizing f with
  | nil => rfl
  | cons r rs ih => exact ih (f.push r)

lemma pushAll_append (f : Frame α) (rs rs' : List (Regex α)) :
    f.pushAll (rs ++ rs') = (f.pushAll rs).pushAll rs' := List.foldl_append

/-- A group matches what one of its alternatives matches. -/
lemma matches_whole {f : Frame α} {pre w post : List α} :
    f.whole.Matches pre w post ↔
      (∃ a, f.alts = some a ∧ a.Matches pre w post) ∨ f.current.Matches pre w post := by
  obtain ⟨alts, before, last⟩ := f
  cases alts with
  | none => simp [whole]
  | some a => simp [whole, Regex.Matches]

/-- An anchor for the end allows nothing after it. -/
lemma matches_push_eol {f : Frame α} {pre w post : List α} :
    (f.push .eol).current.Matches pre w post ↔ f.current.Matches pre w post ∧ post = [] := by
  show (Regex.cat f.current .eol).Matches pre w post ↔ _
  constructor
  · rintro ⟨u, v, rfl, hu, rfl, rfl⟩
    simpa using hu
  · rintro ⟨hw, rfl⟩
    exact ⟨w, [], by simp, by simpa using hw, rfl, rfl⟩

/-- A character matches one character. -/
lemma matches_push_one {f : Frame α} {accepts : α → Bool} {pre w post : List α} :
    (f.push (.one accepts)).current.Matches pre w post ↔
      ∃ u x, w = u ++ [x] ∧ accepts x = true ∧ f.current.Matches pre u (x :: post) := by
  constructor
  · rintro ⟨u, v, rfl, hu, x, rfl, hx⟩
    exact ⟨u, x, rfl, hx, hu⟩
  · rintro ⟨u, x, rfl, hx, hu⟩
    exact ⟨u, [x], rfl, hu, x, rfl, hx⟩

end Frame

namespace Reader

variable {α : Type*}

lemma mode_repeated {s s' : Reader α} {atLeastOne many : Bool}
    (h : s.repeated atLeastOne many = .valid s') : s'.mode = .items := by
  unfold repeated at h
  split at h
  · cases h; rfl
  · cases h

lemma mode_question {s s' : Reader α} (h : s.question = .valid s') :
    s'.mode = .items ∨ s'.mode = s.mode := by
  unfold question at h
  split at h
  · cases h; exact Or.inr rfl
  · split_ifs at h
    exact Or.inl (mode_repeated h)

lemma mode_close {s s' : Reader α} (h : s.close = .valid s') : s'.mode = .items := by
  unfold close at h
  split at h
  · cases h
  · cases h; rfl

end Reader

namespace RegexSyntax

variable {α : Type*} [DecidableEq α] {syn : RegexSyntax α}

/-- The characters that a character stands for outside a class. -/
def accepts (syn : RegexSyntax α) (c x : α) : Bool :=
  if syn.token c = .dot then syn.any x else decide (x = c)

lemma accepts_dot (syn : RegexSyntax α) {c : α} (hc : syn.token c = .dot) (x : α) :
    syn.accepts c x = syn.any x :=
  if_pos hc

lemma accepts_of_ne_dot (syn : RegexSyntax α) {c : α} (hc : syn.token c ≠ .dot) (x : α) :
    syn.accepts c x = decide (x = c) :=
  if_neg hc

lemma atom_single {c : α} (hc : (syn.token c).isSingle = true) :
    syn.atom c = .one (syn.accepts c) := by
  have haccepts : syn.accepts c =
      fun x => if syn.token c = .dot then syn.any x else decide (x = c) := rfl
  rw [atom, haccepts]
  cases htok : syn.token c with
  | star | plus | question | bar | leftParen | rightParen | backslash | leftBracket | caret
  | dollar =>
      rw [htok] at hc
      exact absurd hc (by decide)
  | dot => simp
  | _ => simp

/-- Characters match word for word. -/
lemma matches_pushAll {cs : List α} (hcs : ∀ c ∈ cs, (syn.token c).isSingle = true) :
    ∀ (f : Frame α) (pre w post : List α),
      (f.pushAll (cs.map syn.atom)).current.Matches pre w post ↔
        ∃ u v, w = u ++ v ∧ List.Forall₂ (fun c x => syn.accepts c x = true) cs v ∧
          f.current.Matches pre u (v ++ post) := by
  induction cs with
  | nil =>
      intro f pre w post
      constructor
      · intro hw
        exact ⟨w, [], by simp, .nil, hw⟩
      · rintro ⟨u, v, rfl, hv, hu⟩
        cases hv
        rw [List.append_nil]
        exact hu
  | cons c cs ih =>
      intro f pre w post
      obtain ⟨hc, hrest⟩ := List.forall_mem_cons.mp hcs
      rw [List.map_cons, Frame.pushAll_cons, atom_single hc, ih hrest]
      constructor
      · rintro ⟨u, v, rfl, hv, hu⟩
        obtain ⟨t, x, rfl, hx, ht⟩ := Frame.matches_push_one.mp hu
        exact ⟨t, x :: v, by simp, .cons hx hv, ht⟩
      · rintro ⟨t, v, rfl, hv, ht⟩
        cases hv with
        | cons hx hv =>
            exact ⟨_, _, by simp, hv, Frame.matches_push_one.mpr ⟨t, _, rfl, hx, ht⟩⟩

/-- **Text whose characters are expressions by themselves becomes the list of these.** -/
theorem feedAll_atomic (syn : RegexSyntax α) {cs : List α}
    (hcs : ∀ c ∈ cs, (syn.token c).isAtomic = true) :
    ∀ (s : Reader α), s.mode = .items → s.brace.completes (cs.map syn.token) = false →
      ∃ s', syn.feedAll s cs = .valid s' ∧ s'.frame = s.frame.pushAll (cs.map syn.atom) ∧
        s'.outer = s.outer ∧ s'.mode = .items := by
  induction cs with
  | nil => intro s hmode _; exact ⟨s, rfl, rfl, rfl, hmode⟩
  | cons c cs ih =>
      intro s hmode hcount
      obtain ⟨hc, hrest⟩ := List.forall_mem_cons.mp hcs
      rw [List.map_cons, Brace.completes, Bool.or_eq_false_iff, decide_eq_false_iff_not] at hcount
      let s₁ : Reader α :=
        { s.next (s.frame.push (syn.atom c)) with brace := s.brace.next (syn.token c) }
      have hfeed : syn.feed s c = .valid s₁ := by
        rw [feed_items hmode, feedItem_atomic s hc, if_neg hcount.1]
      obtain ⟨s', hread, hframe, houter, hmode'⟩ := ih hrest s₁ rfl hcount.2
      refine ⟨s', ?_, hframe, houter, hmode'⟩
      rw [feedAll, hfeed]
      exact hread

/-- With a counted repetition it is not described here what the text becomes. -/
lemma feedAll_counts (syn : RegexSyntax α) {cs : List α}
    (hcs : ∀ c ∈ cs, (syn.token c).isAtomic = true) :
    ∀ (s : Reader α), s.mode = .items → s.brace.completes (cs.map syn.token) = true →
      syn.feedAll s cs = .outside := by
  induction cs with
  | nil => intro s _ hcount; cases hcount
  | cons c cs ih =>
      intro s hmode hcount
      obtain ⟨hc, hrest⟩ := List.forall_mem_cons.mp hcs
      rw [feedAll, feed_items hmode, feedItem_atomic s hc]
      split_ifs with hcomplete
      · rfl
      · rw [List.map_cons, Brace.completes, decide_eq_false hcomplete, Bool.false_or] at hcount
        exact ih hrest _ rfl hcount

/-! ## Text that ends too early -/

/-- A class that stays open makes the text no expression. -/
lemma feedAll_inClass {cs : List α} (hcs : ∀ c ∈ cs, (syn.token c).isUnbraced = true) :
    ∀ (s : Reader α) (content : List α) (escaped : Bool), s.mode = .inClass content escaped →
      (syn.feedAll s cs).bind Reader.finish = .invalid := by
  induction cs with
  | nil =>
      intro s content escaped hmode
      rw [feedAll, Reading.bind, Reader.finish, hmode]
  | cons c cs ih =>
      intro s content escaped hmode
      obtain ⟨hc, hrest⟩ := List.forall_mem_cons.mp hcs
      have hfeed : syn.feed s c = .valid { s with mode := .inClass (content ++ [c]) false } := by
        rw [feed, hmode]
        cases escaped with
        | true => rfl
        | false =>
            rcases Token.eq_of_isUnbraced hc with htok | htok <;> simp only [feedClass, htok]
      rw [feedAll, hfeed]
      exact ih hrest _ _ _ rfl

/-- After a backslash a character may stand for itself. -/
lemma feed_escaped {s : Reader α} {c : α} (hmode : s.mode = .escaped)
    (hc : syn.escapable c = true) :
    syn.feed s c = .valid (s.next (s.frame.push (.one fun x => decide (x = c)))) := by
  rw [feed, hmode]
  simp [hc]

lemma token_of_escaped_item {s s' : Reader α} {c : α} (hitems : s.mode = .items)
    (h : syn.feedItem s c = .valid s') (hmode : s'.mode = .escaped) : syn.token c = .backslash := by
  by_contra hne
  by_cases hatomic : (syn.token c).isAtomic = true
  · rw [feedItem_atomic s hatomic] at h
    split_ifs at h
    cases h
    cases hmode
  have hitems' : s'.mode = .items := by
    unfold feedItem at h
    cases htok : syn.token c with
    | star => rw [htok] at h; exact Reader.mode_repeated h
    | plus => rw [htok] at h; exact Reader.mode_repeated h
    | question => rw [htok] at h; exact (Reader.mode_question h).elim id (·.trans hitems)
    | bar => rw [htok] at h; cases h; rfl
    | leftParen => rw [htok] at h; cases h; rfl
    | rightParen => rw [htok] at h; exact Reader.mode_close h
    | backslash => exact absurd htok hne
    | leftBracket => rw [htok] at h; cases h; cases hmode
    | _ => exact absurd (by rw [htok]; rfl) hatomic
  rw [hitems'] at hmode
  cases hmode

omit [DecidableEq α] in
lemma mode_feedClass {s s' : Reader α} {content : List α} {c : α}
    (h : syn.feedClass s content c = .valid s') : s'.mode ≠ .escaped := by
  unfold feedClass at h
  split at h
  next => cases h; simp
  next =>
    split_ifs at h
    · cases h; simp
    · split at h
      · cases h; simp [Reader.next]
      · cases h
  next =>
    split_ifs at h
    cases h
    simp
  next => cases h; simp

/-- Only a backslash between items lets the next character stand for itself. -/
lemma token_of_escaped {s s' : Reader α} {c : α} (h : syn.feed s c = .valid s')
    (hmode : s'.mode = .escaped) : syn.token c = .backslash := by
  unfold feed at h
  split at h
  next hitems => exact token_of_escaped_item hitems h hmode
  next =>
    split_ifs at h
    cases h
    cases hmode
  next => cases h; cases hmode
  next => exact absurd hmode (mode_feedClass h)

/-- **A special character in a text adds nothing**: the expression has fewer characters than its
text. -/
theorem leaves_feedAll_special {cs : List α} (hspecial : ∃ c ∈ cs, (syn.token c).isSingle = false) :
    ∀ {s s' : Reader α}, s.mode = .items → syn.feedAll s cs = .valid s' →
      s'.leaves + 1 ≤ s.leaves + cs.length := by
  induction cs with
  | nil => simp at hspecial
  | cons c cs ih =>
      intro s s' hmode h
      rw [List.length_cons]
      obtain ⟨s₁, hfeed, hrest⟩ := Reading.bind_eq_valid.mp h
      rw [feed_items hmode] at hfeed
      cases hc : (syn.token c).isSingle with
      | false =>
          have hsame := leaves_feedItem_special hc hfeed
          have hmore := leaves_feedAll hrest
          omega
      | true =>
          have hspecial' : ∃ d ∈ cs, (syn.token d).isSingle = false := by
            obtain ⟨d, hd, hdc⟩ := hspecial
            rcases List.mem_cons.mp hd with rfl | hd
            · rw [hc] at hdc
              cases hdc
            · exact ⟨d, hd, hdc⟩
          have hone := leaves_feedItem hfeed
          rw [feedItem_atomic s (Token.isAtomic_of_isSingle hc)] at hfeed
          split_ifs at hfeed
          have hitems : s₁.mode = .items := by
            cases hfeed
            rfl
          have hmore := ih hspecial' hitems hrest
          omega

/-- After items or a backslash, text that is no part of anything longer is added as it stands, when
its first character may follow a backslash. -/
lemma feedAll_after {s : Reader α} {c : α} {cs : List α}
    (hmode : s.mode = .items ∨ s.mode = .escaped) (hplain : syn.token c = .plain)
    (hc : syn.escapable c = true) (hcs : ∀ c ∈ cs, (syn.token c).isUnbraced = true) :
    ∃ s', syn.feedAll s (c :: cs) = .valid s' ∧
      s'.frame = s.frame.pushAll ((c :: cs).map syn.atom) ∧ s'.outer = s.outer ∧
      s'.mode = .items := by
  have hatomic : ∀ d ∈ c :: cs, (syn.token d).isUnbraced = true := by
    intro d hd
    rcases List.mem_cons.mp hd with rfl | hd
    · rw [hplain]
      rfl
    · exact hcs d hd
  rcases hmode with hmode | hmode
  · refine feedAll_atomic syn (fun d hd => Token.isAtomic_of_isUnbraced (hatomic d hd)) s hmode ?_
    refine Brace.completes_unbraced ?_ s.brace
    simpa using hatomic
  · have hatom : syn.atom c = .one fun x => decide (x = c) := by rw [atom, hplain]
    obtain ⟨s', hrest, hframe, houter, hmode'⟩ := feedAll_atomic syn
      (fun d hd => Token.isAtomic_of_isUnbraced (hcs d hd)) (s.next (s.frame.push (syn.atom c))) rfl
      (Brace.completes_unbraced (by simpa using hcs) _)
    refine ⟨s', ?_, hframe, houter, hmode'⟩
    rw [feedAll, feed_escaped hmode hc, ← hatom]
    exact hrest

/-- The words a text matches when it is read as an expression. -/
def Accepts (syn : RegexSyntax α) (cs w : List α) : Prop :=
  ∃ r, syn.parse cs = .valid r ∧ r.Matches [] w []

lemma accepts_of_valid {cs : List α} {r : Regex α} (h : syn.parse cs = .valid r) {w : List α} :
    syn.Accepts cs w ↔ r.Matches [] w [] := by
  constructor
  · rintro ⟨r', h', hr⟩
    rw [h] at h'
    cases h'
    exact hr
  · intro hr
    exact ⟨r, h, hr⟩

lemma not_accepts_of_invalid {cs : List α} (h : syn.parse cs = .invalid) (w : List α) :
    ¬ syn.Accepts cs w := by
  rintro ⟨r, h', -⟩
  rw [h] at h'
  cases h'

end RegexSyntax
