import Mathlib

/-!
# A database connection with one keyed table

What a program that keeps one table behind one connection can observe of an SQL engine:

* a table with a primary key, as an association list without repeated keys (`AList`);
* at most one open transaction.  Inside it the connection sees a working copy, and the committed
  table — the one the next process finds — changes only when the transaction ends (`commit`).
  Outside a transaction every statement commits by itself;
* at most one temporary table of keys, which belongs to the connection.

A statement that fails undoes itself and nothing else (`Undoing.statement`), or makes the engine
undo the whole transaction and close it (`Undoing.transaction`): after a full disk, an I/O error or
a lack of memory an SQL engine does the latter by itself.

A `Script` is a sequence of statements that stops at the first one that fails, without undoing the
ones before it: that is what a C function does that returns early.  `Script.wp` is its weakest
precondition, with one rule for each way a script is built, so that the effect of a script on the
connection is computed by `simp` from the effects of its statements.  `Script.StopsBy` says besides
which failure a script stops by, and its rules put that together in the order of the statements.
-/

namespace Sqlite

variable {κ ν α β : Type}

/-- A table: rows by primary key. -/
abbrev Table (κ ν : Type) := AList fun _ : κ => ν

/-- What a failure undoes: the statement that fails, or all of the open transaction. -/
inductive Undoing
  | statement
  | transaction
  deriving DecidableEq, Repr

/-- A failure where there is nothing to undo but the statement. -/
def alone (fails : Option Undoing) : Option Undoing := fails.map fun _ => .statement

@[simp] lemma alone_eq_none {fails : Option Undoing} : alone fails = none ↔ fails = none :=
  Option.map_eq_none_iff

/-- An open transaction: its copy of the table, and the temporary table that its `BEGIN` found. -/
structure Transaction (κ ν : Type) where
  table : Table κ ν
  temporary : Option (List κ)

/-- A connection.  `committed` is what is on disk, `working` the open transaction, `temporary` the
temporary table of keys. -/
structure Connection (κ ν : Type) where
  committed : Table κ ν
  working : Option (Transaction κ ν) := none
  temporary : Option (List κ) := none

namespace Connection

/-- The table as a statement on this connection sees it. -/
def view (c : Connection κ ν) : Table κ ν :=
  match c.working with
  | some t => t.table
  | none => c.committed

/-- No transaction is open. -/
def Settled (c : Connection κ ν) : Prop := c.working = none

/-- Change the table: the working copy inside a transaction, the committed table outside. -/
def update (f : Table κ ν → Table κ ν) (c : Connection κ ν) : Connection κ ν :=
  match c.working with
  | some t => { c with working := some { t with table := f t.table } }
  | none => { c with committed := f c.committed }

/-- `BEGIN TRANSACTION`, refused inside a transaction. -/
def begin (c : Connection κ ν) : Option (Connection κ ν) :=
  match c.working with
  | some _ => none
  | none => some { c with working := some ⟨c.committed, c.temporary⟩ }

/-- `END TRANSACTION`, refused outside a transaction. -/
def commit (c : Connection κ ν) : Option (Connection κ ν) :=
  match c.working with
  | some t => some { c with committed := t.table, working := none }
  | none => none

/-- The open transaction is undone, if there is one. -/
def rollback (c : Connection κ ν) : Connection κ ν :=
  match c.working with
  | some t => { c with working := none, temporary := t.temporary }
  | none => c

/-- What the engine undoes besides the statement that fails. -/
def undo (c : Connection κ ν) : Undoing → Connection κ ν
  | .statement => c
  | .transaction => c.rollback

/-- `INSERT`, refused when the key is there already. -/
def insert [DecidableEq κ] (k : κ) (v : ν) (c : Connection κ ν) : Option (Connection κ ν) :=
  if k ∈ c.view then none else some (c.update (AList.insert k v))

/-- `REPLACE`: the row of the key, whether or not there was one. -/
def replace [DecidableEq κ] (k : κ) (v : ν) (c : Connection κ ν) : Option (Connection κ ν) :=
  some (c.update (AList.insert k v))

/-- `DELETE … WHERE key = k`. -/
def erase [DecidableEq κ] (k : κ) (c : Connection κ ν) : Option (Connection κ ν) :=
  some (c.update (AList.erase k))

/-- `DELETE` without a condition. -/
def clear (c : Connection κ ν) : Option (Connection κ ν) := some (c.update fun _ => ∅)

/-- `CREATE TEMPORARY TABLE`, refused when it exists. -/
def createTemporary (c : Connection κ ν) : Option (Connection κ ν) :=
  match c.temporary with
  | some _ => none
  | none => some { c with temporary := some [] }

/-- `INSERT` into the temporary table, whose only column is its primary key. -/
def insertTemporary [DecidableEq κ] (k : κ) (c : Connection κ ν) : Option (Connection κ ν) :=
  match c.temporary with
  | none => none
  | some ks => if k ∈ ks then none else some { c with temporary := some (ks ++ [k]) }

/-- `DROP TABLE` of the temporary table. -/
def dropTemporary (c : Connection κ ν) : Option (Connection κ ν) :=
  match c.temporary with
  | none => none
  | some _ => some { c with temporary := none }

variable (f : Table κ ν → Table κ ν) (c : Connection κ ν)

@[simp] lemma view_update : (c.update f).view = f c.view := by
  unfold update view
  cases c.working <;> rfl

@[simp] lemma temporary_update : (c.update f).temporary = c.temporary := by
  unfold update
  split <;> rfl

lemma view_of_settled {c : Connection κ ν} (h : c.Settled) : c.view = c.committed := by
  simp [view, show c.working = none from h]

lemma Settled.isSome {c : Connection κ ν} (h : c.Settled) : c.working.isSome = false := by
  rw [show c.working = none from h]
  rfl

@[simp] lemma settled_update : (c.update f).Settled ↔ c.Settled := by
  unfold Settled update
  split <;> simp_all

/-- What `BEGIN` does. -/
lemma begin_eq_some {c c' : Connection κ ν} : c.begin = some c' ↔
    c.Settled ∧ c' = { c with working := some ⟨c.committed, c.temporary⟩ } := by
  unfold begin Settled
  rcases c.working with _ | t <;> simp [eq_comm]

/-- When it is refused. -/
lemma begin_eq_none {c : Connection κ ν} : c.begin = none ↔ c.working.isSome = true := by
  unfold begin
  rcases c.working with _ | t <;> simp

@[simp] lemma undo_statement : c.undo .statement = c := rfl

@[simp] lemma undo_transaction : c.undo .transaction = c.rollback := rfl

@[simp] lemma committed_rollback : c.rollback.committed = c.committed := by
  unfold rollback
  split <;> rfl

@[simp] lemma working_rollback : c.rollback.working = none := by
  unfold rollback
  split
  · rfl
  · assumption

@[simp] lemma committed_undo (failure : Undoing) : (c.undo failure).committed = c.committed := by
  cases failure <;> simp

/-- Outside a transaction there is nothing to undo. -/
lemma undo_of_settled {c : Connection κ ν} (h : c.Settled) (failure : Undoing) :
    c.undo failure = c := by
  cases failure
  · rfl
  · rw [undo_transaction, rollback, show c.working = none from h]

/-! ### Inside a transaction -/

/-- Both connections are inside the transaction that `c` is in. -/
structure Inside (c c' : Connection κ ν) : Prop where
  committed : c'.committed = c.committed
  working : ∃ t t', c.working = some t ∧ c'.working = some t' ∧ t'.temporary = t.temporary

variable {c} {c' : Connection κ ν}

lemma inside_self {t : Transaction κ ν} (h : c.working = some t) : c.Inside c :=
  ⟨rfl, t, t, h, h, rfl⟩

lemma Inside.isSome (h : c.Inside c') : c'.working.isSome = true := by
  obtain ⟨-, -, t', -, ht', -⟩ := h
  rw [ht']
  rfl

lemma Inside.update (h : c.Inside c') : c.Inside (c'.update f) := by
  obtain ⟨hcommitted, t, t', ht, ht', htemporary⟩ := h
  rw [Connection.update, ht']
  exact ⟨hcommitted, t, _, ht, rfl, htemporary⟩

/-- Whatever a transaction has done, undoing it leads to the same connection. -/
lemma Inside.rollback (h : c.Inside c') : c'.rollback = c.rollback := by
  obtain ⟨hcommitted, t, t', ht, ht', htemporary⟩ := h
  rcases c with ⟨committed, _, temporary⟩
  rcases c' with ⟨committed', _, temporary'⟩
  obtain rfl := ht
  obtain rfl := ht'
  obtain rfl := hcommitted
  simp only [Connection.rollback, htemporary]

lemma inside_begin (h : c.begin = some c') : c'.Inside c' := by
  obtain ⟨-, rfl⟩ := begin_eq_some.mp h
  exact inside_self rfl

lemma committed_begin (h : c.begin = some c') : c'.committed = c.committed := by
  obtain ⟨-, rfl⟩ := begin_eq_some.mp h
  rfl

/-- What can be undone of a transaction that has begun is all of it. -/
lemma rollback_begin (h : c.begin = some c') : c'.rollback = c := by
  obtain ⟨hsettled, rfl⟩ := begin_eq_some.mp h
  rcases c with ⟨committed, working, temporary⟩
  obtain rfl : working = none := hsettled
  rfl

/-- What a failure leaves of the transaction that `c` is in. -/
def Broken (c : Connection κ ν) : Undoing → Connection κ ν → Prop
  | .statement, c' => c.Inside c'
  | .transaction, c' => c' = c.rollback

lemma Inside.broken (h : c.Inside c') (failure : Undoing) : c.Broken failure (c'.undo failure) := by
  cases failure
  · exact h
  · exact h.rollback

lemma Broken.committed {failure : Undoing} (h : c.Broken failure c') :
    c'.committed = c.committed := by
  cases failure
  · exact Inside.committed h
  · rw [show c' = _ from h, committed_rollback]

/-- The transaction is open still unless the failure undoes it. -/
lemma Broken.working {failure : Undoing} (h : c.Broken failure c') :
    c'.working.isSome = decide (failure = .statement) := by
  cases failure
  · exact Inside.isSome h
  · rw [show c' = _ from h, working_rollback]
    rfl

end Connection

/-! ## Scripts -/

/-- Statements in sequence: the first that fails ends the script where it stands. -/
abbrev Script (κ ν α : Type) := OptionT (StateM (Connection κ ν)) α

namespace Script

/-- The result of a script, `none` when it failed, and the connection it leaves. -/
def runOn (x : Script κ ν α) (c : Connection κ ν) : Option α × Connection κ ν := x.run.run c

/-- One statement.  It fails when the engine says so (`fails`), and then more than the statement
may be undone; or when the connection's state does not allow it, and then nothing has changed. -/
def perform (fails : Option Undoing) (statement : Connection κ ν → Option (Connection κ ν)) :
    Script κ ν Unit :=
  OptionT.mk fun c =>
    match fails with
    | some failure => (none, c.undo failure)
    | none =>
        match statement c with
        | none => (none, c)
        | some c' => (some (), c')

/-- One statement of a program that is in no transaction there: whichever way it fails, only the
statement is undone (`performAlone_eq`). -/
def performAlone (fails : Option Undoing)
    (statement : Connection κ ν → Option (Connection κ ν)) : Script κ ν Unit :=
  perform (alone fails) statement

/-- A call that prepares or binds a statement, or reads: it may fail, and it changes nothing. -/
def call (fails : Option Undoing) : Script κ ν Unit := performAlone fails some

/-- Read the connection. -/
def ask (f : Connection κ ν → α) : Script κ ν α := OptionT.mk fun c => (some (f c), c)

/-- End the script here, as a failure. -/
def stop : Script κ ν α := OptionT.mk fun c => (none, c)

/-- Perform a statement and go on whatever it returned. -/
def attempt (fails : Option Undoing) (statement : Connection κ ν → Option (Connection κ ν)) :
    Script κ ν Unit :=
  OptionT.mk fun c => (some (), ((perform fails statement).runOn c).2)

/-- The weakest precondition: the script's result and final connection satisfy `Q`. -/
def wp (x : Script κ ν α) (Q : Option α → Connection κ ν → Prop) (c : Connection κ ν) : Prop :=
  Q (x.runOn c).1 (x.runOn c).2

variable {Q R : Option α → Connection κ ν → Prop} {c : Connection κ ν}

@[simp] lemma wp_pure (a : α) : wp (pure a : Script κ ν α) Q c ↔ Q (some a) c := Iff.rfl

@[simp] lemma wp_bind (x : Script κ ν β) (f : β → Script κ ν α) :
    wp (x >>= f) Q c ↔ wp x (fun r c' => match r with
      | none => Q none c'
      | some b => wp (f b) Q c') c := by
  unfold wp runOn
  simp only [bind, OptionT.bind, OptionT.run, OptionT.mk, StateT.bind, StateT.run]
  rcases h : (x : StateM (Connection κ ν) (Option β)) c with ⟨r, c'⟩
  cases r <;> rfl

@[simp] lemma wp_perform {Q : Option Unit → Connection κ ν → Prop} (fails : Option Undoing)
    (statement : Connection κ ν → Option (Connection κ ν)) :
    wp (perform fails statement) Q c ↔
      match fails with
      | some failure => Q none (c.undo failure)
      | none =>
          match statement c with
          | none => Q none c
          | some c' => Q (some ()) c' := by
  unfold wp runOn perform
  simp only [OptionT.run, OptionT.mk, StateT.run]
  split
  · rfl
  · split <;> rfl

@[simp] lemma wp_performAlone {Q : Option Unit → Connection κ ν → Prop} (fails : Option Undoing)
    (statement : Connection κ ν → Option (Connection κ ν)) :
    wp (performAlone fails statement) Q c ↔
      match fails with
      | some _ => Q none c
      | none =>
          match statement c with
          | none => Q none c
          | some c' => Q (some ()) c' := by
  rw [performAlone, wp_perform]
  cases fails <;> rfl

@[simp] lemma wp_call {Q : Option Unit → Connection κ ν → Prop} (fails : Option Undoing) :
    wp (call fails) Q c ↔
      match fails with
      | some _ => Q none c
      | none => Q (some ()) c := by
  rw [call, wp_performAlone]

@[simp] lemma wp_ask (f : Connection κ ν → α) : wp (ask f) Q c ↔ Q (some (f c)) c := Iff.rfl

@[simp] lemma wp_attempt {Q : Option Unit → Connection κ ν → Prop} (fails : Option Undoing)
    (statement : Connection κ ν → Option (Connection κ ν)) :
    wp (attempt fails statement) Q c ↔ wp (perform fails statement) (fun _ => Q (some ())) c :=
  Iff.rfl

/-- A weaker postcondition has a weaker precondition. -/
lemma wp_mono (x : Script κ ν α) (h : wp x Q c) (hQ : ∀ r c', Q r c' → R r c') : wp x R c :=
  hQ _ _ h

/-- A last statement, without asking when it fails. -/
lemma wp_perform_last {Q : Option Unit → Connection κ ν → Prop} {fails : Option Undoing}
    {statement : Connection κ ν → Option (Connection κ ν)}
    (hfail : ∀ failure, Q none (c.undo failure))
    (hok : ∀ c', statement c = some c' → Q (some ()) c') : wp (perform fails statement) Q c := by
  rw [wp_perform]
  split
  next failure => exact hfail failure
  · split
    · exact hfail .statement
    next c' hc' => exact hok c' hc'

/-- A statement and what follows it, without asking when the statement fails. -/
lemma wp_perform_then {fails : Option Undoing}
    {statement : Connection κ ν → Option (Connection κ ν)} {next : Unit → Script κ ν α}
    (hfail : ∀ failure, Q none (c.undo failure))
    (hok : ∀ c', statement c = some c' → wp (next ()) Q c') :
    wp (perform fails statement >>= next) Q c := by
  rw [wp_bind]
  exact wp_perform_last hfail hok

/-- What the precondition says of a run. -/
lemma wp_run {x : Script κ ν α} (h : wp x Q c) {r : Option α} {c' : Connection κ ν}
    (hr : x.runOn c = (r, c')) : Q r c' := by
  simpa [wp, hr] using h

/-- Outside a transaction a statement fails alone. -/
lemma performAlone_eq (h : c.Settled) (fails : Option Undoing)
    (statement : Connection κ ν → Option (Connection κ ν)) :
    (performAlone fails statement).runOn c = (perform fails statement).runOn c := by
  rcases fails with _ | failure
  · rfl
  · exact congrArg (Prod.mk none) (Connection.undo_of_settled h failure).symm

/-! ### What a script stops by -/

/-- The script stops by the failure and leaves `bad`, or gets to its end when there is none and
leaves `good`. -/
def StopsBy (failure : Option Undoing) (good : α → Connection κ ν → Prop)
    (bad : Undoing → Connection κ ν → Prop) (x : Script κ ν α) (c : Connection κ ν) : Prop :=
  x.wp (fun r c' => match failure, r with
    | none, some a => good a c'
    | some failure, none => bad failure c'
    | _, _ => False) c

variable {good : α → Connection κ ν → Prop} {bad : Undoing → Connection κ ν → Prop}

lemma stopsBy_pure {a : α} (h : good a c) : StopsBy none good bad (pure a : Script κ ν α) c := h

/-- The first failure is the one that counts. -/
lemma StopsBy.bind {x : Script κ ν β} {f : β → Script κ ν α} {first rest : Option Undoing}
    {between : β → Connection κ ν → Prop} (hx : StopsBy first between bad x c)
    (hf : ∀ b c', between b c' → StopsBy rest good bad (f b) c') :
    StopsBy (first.or rest) good bad (x >>= f) c := by
  rw [StopsBy, wp_bind]
  refine wp_mono _ hx ?_
  rcases first with _ | failure
  · rintro (_ | b) c' h
    · exact h.elim
    · exact hf b c' h
  · rintro (_ | b) c' h
    · exact h
    · exact h.elim

/-- A statement that the connection refuses on a condition. -/
lemma stopsBy_perform_of_ite {p : Prop} [Decidable p] {good : Unit → Connection κ ν → Prop}
    {fails : Option Undoing} {statement : Connection κ ν → Option (Connection κ ν)}
    {c₁ : Connection κ ν} (hbad : ∀ failure, bad failure (c.undo failure))
    (hstatement : statement c = if p then none else some c₁) (hgood : ¬ p → good () c₁) :
    StopsBy (fails.or (if p then some .statement else none)) good bad
      (perform fails statement) c := by
  rw [StopsBy, wp_perform]
  rcases fails with _ | failure
  · rw [hstatement]
    split_ifs with hp
    · exact hbad .statement
    · exact hgood hp
  · exact hbad failure

/-- A statement that the connection allows. -/
lemma stopsBy_perform_of_some {good : Unit → Connection κ ν → Prop} {fails : Option Undoing}
    {statement : Connection κ ν → Option (Connection κ ν)} {c₁ : Connection κ ν}
    (hbad : ∀ failure, bad failure (c.undo failure)) (hstatement : statement c = some c₁)
    (hgood : good () c₁) : StopsBy fails good bad (perform fails statement) c := by
  rw [StopsBy, wp_perform, hstatement]
  rcases fails with _ | failure
  · exact hgood
  · exact hbad failure

/-- What follows a statement that fails is not performed. -/
lemma stopsBy_perform_failed {fails : Option Undoing} {failure : Undoing}
    {statement : Connection κ ν → Option (Connection κ ν)} {next : Unit → Script κ ν α}
    (hfails : fails = some failure) (hbad : bad failure (c.undo failure)) :
    StopsBy (some failure) good bad (perform fails statement >>= next) c := by
  rwa [StopsBy, wp_bind, wp_perform, hfails]

/-- What follows a statement that succeeds decides. -/
lemma stopsBy_perform_then {rest fails : Option Undoing}
    {statement : Connection κ ν → Option (Connection κ ν)} {next : Unit → Script κ ν α}
    {c₁ : Connection κ ν} (hfails : fails = none) (hstatement : statement c = some c₁)
    (hnext : StopsBy rest good bad (next ()) c₁) :
    StopsBy rest good bad (perform fails statement >>= next) c := by
  rwa [StopsBy, wp_bind, wp_perform, hfails, hstatement]

/-- A call and what follows it; a call that fails changes nothing. -/
lemma stopsBy_call_then {fails rest : Option Undoing} {next : Unit → Script κ ν α}
    (hbad : bad .statement c) (hnext : StopsBy rest good bad (next ()) c) :
    StopsBy ((alone fails).or rest) good bad (call fails >>= next) c := by
  rcases fails with _ | _
  · exact hnext
  · exact hbad

lemma StopsBy.mono {failure : Option Undoing} {x : Script κ ν α}
    {good' : α → Connection κ ν → Prop} {bad' : Undoing → Connection κ ν → Prop}
    (h : StopsBy failure good bad x c) (hgood : ∀ a c', good a c' → good' a c')
    (hbad : ∀ failure c', bad failure c' → bad' failure c') :
    StopsBy failure good' bad' x c := by
  refine wp_mono _ h ?_
  rcases failure with _ | failure
  · rintro (_ | a) c' h
    · exact h
    · exact hgood a c' h
  · rintro (_ | a) c' h
    · exact hbad failure c' h
    · exact h

/-- The result of a script that gets to its end may be replaced. -/
lemma StopsBy.last {failure : Option Undoing} {x : Script κ ν β} {a : α}
    {good' : β → Connection κ ν → Prop} (h : StopsBy failure good' bad x c)
    (hgood : ∀ b c', good' b c' → good a c') :
    StopsBy failure good bad (do let _ ← x; pure a) c := by
  rw [← failure.or_none]
  exact h.bind fun b c' hb => stopsBy_pure (hgood b c' hb)

/-- A script that nothing stops gets to its end. -/
lemma StopsBy.runOn {x : Script κ ν α} (h : StopsBy none good bad x c) :
    ∃ a c', x.runOn c = (some a, c') ∧ good a c' := by
  rw [StopsBy, wp] at h
  rcases hrun : x.runOn c with ⟨_ | a, c'⟩
  all_goals rw [hrun] at h
  · exact h.elim
  · exact ⟨a, c', rfl, h⟩

end Script

end Sqlite
