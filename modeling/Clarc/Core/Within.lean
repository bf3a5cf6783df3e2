import Clarc.Core.Connection

/-!
# Properties of the table that scripts keep

A property of tables holds of a connection when both the committed table and the working copy have
it.  Statements whose change of a table keeps it keep it for the connection, and so do the scripts
made of them, wherever they end:

* `Script.Keeps` — a script keeps a property of the connection, with a rule for each way a script is
  built;
* `Connection.Tables` — both tables have the property, with a lemma for each statement;
* `Connection.Within` — all keys of both tables lie in a set (`within_iff_tables`).
-/

namespace Sqlite

variable {κ ν α β : Type}

namespace Script

/-- The script leaves a connection with the property when it finds one. -/
def Keeps (I : Connection κ ν → Prop) (x : Script κ ν α) : Prop :=
  ∀ c, I c → x.wp (fun _ c' => I c') c

variable {I : Connection κ ν → Prop}

lemma keeps_pure (a : α) : Keeps I (pure a : Script κ ν α) := fun _ h => h

lemma keeps_ask (f : Connection κ ν → α) : Keeps I (ask f) := fun _ h => h

lemma keeps_bind {x : Script κ ν β} {f : β → Script κ ν α} (hx : Keeps I x)
    (hf : ∀ b, Keeps I (f b)) : Keeps I (x >>= f) := by
  intro c hc
  rw [wp_bind]
  refine wp_mono _ (hx c hc) ?_
  rintro (_ | b) c' hc'
  · exact hc'
  · exact hf b c' hc'

lemma keeps_perform {fails : Option Undoing}
    {statement : Connection κ ν → Option (Connection κ ν)} (hundo : ∀ c, I c → I c.rollback)
    (h : ∀ c c', I c → statement c = some c' → I c') : Keeps I (perform fails statement) := by
  intro c hc
  refine wp_perform_last ?_ fun c' hc' => h c c' hc hc'
  rintro (_ | _)
  · exact hc
  · exact hundo c hc

lemma keeps_performAlone {fails : Option Undoing}
    {statement : Connection κ ν → Option (Connection κ ν)}
    (h : ∀ c c', I c → statement c = some c' → I c') : Keeps I (performAlone fails statement) := by
  intro c hc
  rw [wp_performAlone]
  split
  · exact hc
  · split
    · exact hc
    next c' hc' => exact h c c' hc hc'

lemma keeps_call (fails : Option Undoing) : Keeps I (call fails : Script κ ν Unit) := by
  refine keeps_performAlone ?_
  rintro c c' hc ⟨⟩
  exact hc

/-- What a script keeps holds of the connection that a run of it leaves. -/
lemma Keeps.runOn {x : Script κ ν α} (h : Keeps I x) {c c' : Connection κ ν} {r : Option α}
    (hc : I c) (hr : x.runOn c = (r, c')) : I c' :=
  wp_run (h c hc) hr

end Script

namespace Connection

/-! ## Both tables -/

/-- The committed table and the working copy have the property. -/
structure Tables (P : Table κ ν → Prop) (c : Connection κ ν) : Prop where
  committed : P c.committed
  working : ∀ t, c.working = some t → P t.table

variable {P : Table κ ν → Prop} {c c' : Connection κ ν}

lemma tables_of_settled (hsettled : c.Settled) (h : P c.committed) : Tables P c := by
  refine ⟨h, ?_⟩
  intro t ht
  rw [show c.working = none from hsettled] at ht
  cases ht

lemma Tables.view (h : Tables P c) : P c.view := by
  unfold Connection.view
  split
  next t ht => exact h.working t ht
  · exact h.committed

lemma Tables.update (h : Tables P c) {f : Table κ ν → Table κ ν} (hf : ∀ t, P t → P (f t)) :
    Tables P (c.update f) := by
  unfold Connection.update
  split
  next t ht =>
    refine ⟨h.committed, ?_⟩
    rintro t' ⟨⟩
    exact hf t.table (h.working t ht)
  next hw =>
    refine ⟨hf _ h.committed, ?_⟩
    intro t ht
    exact absurd (hw.symm.trans ht) (by simp)

lemma Tables.begin (h : Tables P c) (hc : c.begin = some c') : Tables P c' := by
  obtain ⟨-, rfl⟩ := Connection.begin_eq_some.mp hc
  refine ⟨h.committed, ?_⟩
  rintro t ⟨⟩
  exact h.committed

lemma Tables.commit (h : Tables P c) (hc : c.commit = some c') : Tables P c' := by
  unfold Connection.commit at hc
  split at hc
  next t ht =>
    obtain rfl := Option.some.inj hc
    refine ⟨h.working t ht, ?_⟩
    rintro t' ⟨⟩
  · cases hc

lemma Tables.rollback (h : Tables P c) : Tables P c.rollback := by
  refine ⟨by simpa using h.committed, ?_⟩
  intro t ht
  rw [working_rollback] at ht
  cases ht

lemma Tables.clear (h : Tables P c) (hempty : P ∅) (hc : c.clear = some c') : Tables P c' := by
  obtain rfl := Option.some.inj hc
  exact h.update fun _ _ => hempty

lemma Tables.createTemporary (h : Tables P c) (hc : c.createTemporary = some c') :
    Tables P c' := by
  unfold Connection.createTemporary at hc
  split at hc
  · cases hc
  · obtain rfl := Option.some.inj hc
    exact ⟨h.committed, h.working⟩

lemma Tables.dropTemporary (h : Tables P c) (hc : c.dropTemporary = some c') : Tables P c' := by
  unfold Connection.dropTemporary at hc
  split at hc
  · cases hc
  · obtain rfl := Option.some.inj hc
    exact ⟨h.committed, h.working⟩

section
variable [DecidableEq κ]

lemma Tables.insert (h : Tables P c) {k : κ} {v : ν} (hf : ∀ t, P t → P (t.insert k v))
    (hc : c.insert k v = some c') : Tables P c' := by
  unfold Connection.insert at hc
  split_ifs at hc
  obtain rfl := Option.some.inj hc
  exact h.update hf

lemma Tables.erase (h : Tables P c) {k : κ} (hf : ∀ t, P t → P (t.erase k))
    (hc : c.erase k = some c') : Tables P c' := by
  obtain rfl := Option.some.inj hc
  exact h.update hf

lemma Tables.insertTemporary (h : Tables P c) {k : κ} (hc : c.insertTemporary k = some c') :
    Tables P c' := by
  unfold Connection.insertTemporary at hc
  split at hc
  · cases hc
  · split_ifs at hc
    obtain rfl := Option.some.inj hc
    exact ⟨h.committed, h.working⟩

end

/-- A statement that keeps the property of the tables keeps it however it ends. -/
lemma Tables.perform {fails : Option Undoing}
    {statement : Connection κ ν → Option (Connection κ ν)}
    (h : ∀ c c', Tables P c → statement c = some c' → Tables P c') :
    (Script.perform fails statement).Keeps (Tables P) :=
  Script.keeps_perform (fun _ hc => hc.rollback) h

lemma Tables.attempt {fails : Option Undoing}
    {statement : Connection κ ν → Option (Connection κ ν)}
    (h : ∀ c c', Tables P c → statement c = some c' → Tables P c') :
    (Script.attempt fails statement).Keeps (Tables P) := by
  intro c hc
  rw [Script.wp_attempt]
  exact Tables.perform h c hc

/-! ## Keys within a set -/

/-- Every key of the committed table and of the working copy is in `K`. -/
structure Within (K : κ → Prop) (c : Connection κ ν) : Prop where
  committed : ∀ k ∈ c.committed, K k
  working : ∀ t, c.working = some t → ∀ k ∈ t.table, K k

variable {K K' : κ → Prop}

lemma within_iff_tables : Within K c ↔ Tables (fun t => ∀ k ∈ t, K k) c :=
  ⟨fun h => ⟨h.committed, h.working⟩, fun h => ⟨h.committed, h.working⟩⟩

lemma Within.mono (h : Within K c) (hK : ∀ k, K k → K' k) : Within K' c :=
  ⟨fun k hk => hK k (h.committed k hk), fun t ht k hk => hK k (h.working t ht k hk)⟩

lemma within_of_settled (hsettled : c.Settled) (h : ∀ k ∈ c.committed, K k) : Within K c :=
  within_iff_tables.mpr (tables_of_settled hsettled h)

lemma Within.view (h : Within K c) : ∀ k ∈ c.view, K k := (within_iff_tables.mp h).view

section
variable [DecidableEq κ]

lemma keys_insert {k : κ} (hk : K k) (v : ν) {t : Table κ ν} (ht : ∀ k ∈ t, K k) :
    ∀ k' ∈ t.insert k v, K k' := by
  intro k' hk'
  rcases (AList.mem_insert t).mp hk' with rfl | hk'
  · exact hk
  · exact ht k' hk'

/-- A row put in under a key of the set. -/
lemma Within.update_insert (h : Within K c) {k : κ} (hk : K k) (v : ν) :
    Within K (c.update (AList.insert k v)) :=
  within_iff_tables.mpr ((within_iff_tables.mp h).update fun _ => keys_insert hk v)

end

end Connection

/-- What keeps the tables within a set keeps the connection within it. -/
lemma Script.Keeps.within {K : κ → Prop} {x : Script κ ν α}
    (h : x.Keeps (Connection.Tables fun t => ∀ k ∈ t, K k)) : x.Keeps (Connection.Within K) := by
  intro c hc
  refine wp_mono _ (h c (Connection.within_iff_tables.mp hc)) ?_
  exact fun _ _ => Connection.within_iff_tables.mpr

end Sqlite
