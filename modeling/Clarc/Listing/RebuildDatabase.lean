import Clarc.Listing.RemoteListOfFiles

/-!
# The table from the bucket: `rebuildDatabase` of `main.cc`

The table is emptied once `downloadList` and `resolveMtimes` have both returned success, and filled
again with what they collected, a hundred rows at a time.  The truncation and each hundred are
transactions of their own, and nothing undoes one that has been committed.

* `rebuildDatabase_failed` — **what a failed rebuild leaves**: the table as it was, when it failed
  before the truncation was committed, and otherwise the first hundreds of the list.
-/

namespace Clarc

open Bytes Sqlite

/-- `rebuildDatabase`, from what `downloadList` and `resolveMtimes` returned and the list they
filled.  `LIST_FAILED` is a failed script. -/
def rebuildDatabase (dryRun : Bool) (truncateFails : Faults) (storeFails : ℕ → Faults)
    (listed resolved : Bool) (remote : List RemoteFile) : Script Bytes Row Unit :=
  if listed = false then Script.stop
  else if resolved = false then Script.stop
  else if dryRun then pure ()
  else do
    FileListStorage.truncate truncateFails
    FileListStorage.storeRemoteListOfFiles storeFails remote

/-- **What a failed rebuild leaves for the next run**: the old table, unless both requests and the
truncation succeeded; then the first rows of the list, a whole number of hundreds and not all of
them. -/
theorem rebuildDatabase_failed {dryRun : Bool} {truncateFails : Faults} {storeFails : ℕ → Faults}
    {listed resolved : Bool} {remote : List RemoteFile} {conn conn' : Db}
    (h : (rebuildDatabase dryRun truncateFails storeFails listed resolved remote).runOn conn =
      (none, conn')) :
    (¬ (listed = true ∧ resolved = true ∧
        ((FileListStorage.truncate truncateFails).runOn conn).1.isSome) →
      conn'.committed = conn.committed) ∧
    (listed = true ∧ resolved = true ∧
        ((FileListStorage.truncate truncateFails).runOn conn).1.isSome →
      ∃ k, (k = 0 ∨ k * 100 < remote.length) ∧
        conn'.committed = FileListStorage.insertAll ∅ (remote.take (k * 100))) := by
  unfold rebuildDatabase at h
  split_ifs at h with hlisted hresolved hdry
  · cases h
    exact ⟨fun _ => rfl, fun hok => by rw [hok.1] at hlisted; cases hlisted⟩
  · cases h
    exact ⟨fun _ => rfl, fun hok => by rw [hok.2.1] at hresolved; cases hresolved⟩
  · cases h
  · have hl : listed = true := by simpa using hlisted
    have hr : resolved = true := by simpa using hresolved
    have hspec := FileListStorage.truncate_spec truncateFails conn
    rw [Script.wp] at hspec
    have hbind : (FileListStorage.truncate truncateFails >>= fun _ =>
        FileListStorage.storeRemoteListOfFiles storeFails remote).wp
          (fun r c' => r = none ∧ c' = conn') conn := by
      rw [Script.wp, h]
      exact ⟨rfl, rfl⟩
    rw [Script.wp_bind, Script.wp] at hbind
    rcases htruncate : (FileListStorage.truncate truncateFails).runOn conn with ⟨_ | _, c₁⟩
    · rw [htruncate] at hspec hbind
      obtain ⟨-, rfl⟩ := hbind
      exact ⟨fun _ => hspec, fun hok => by cases hok.2.2⟩
    · rw [htruncate] at hspec hbind
      have hstore := FileListStorage.storeRemoteListOfFiles_failed storeFails remote c₁
      rw [Script.wp] at hstore hbind
      obtain ⟨hnone, rfl⟩ := hbind
      obtain ⟨k, hk, hcommitted⟩ := hstore hnone
      have hempty : c₁.committed = ∅ := by
        dsimp only at hspec
        rw [hspec.1]
      refine ⟨fun hnot => absurd ⟨hl, hr, rfl⟩ hnot, fun _ => ⟨k, hk, ?_⟩⟩
      rw [hcommitted, hempty]

/-- A list with a key twice: the second row is refused, and the old table is gone. -/
theorem failed_rebuild_empties_table :
    ∃ conn', (rebuildDatabase false noFaults (fun _ => noFaults) true true
        [⟨ascii "a", [], 0⟩, ⟨ascii "a", [], 0⟩]).runOn
          { committed := (∅ : Files).insert (ascii "b") ⟨[], 7⟩ } = (none, conn') ∧
      conn'.committed ≠ (∅ : Files).insert (ascii "b") ⟨[], 7⟩ := by
  refine ⟨_, Prod.ext (by decide +kernel) rfl, ?_⟩
  intro h
  have hrow := congrArg (AList.lookup (ascii "b")) h
  exact absurd hrow (by decide +kernel)

theorem rebuildDatabase_failed_sample :
    ∃ conn', (rebuildDatabase false noFaults (fun _ => noFaults) true true
        [⟨ascii "a", [], 0⟩, ⟨ascii "a", [], 0⟩]).runOn
          { committed := (∅ : Files).insert (ascii "b") ⟨[], 7⟩ } = (none, conn') ∧
      conn'.committed = ∅ := by
  have hnone : ((rebuildDatabase false noFaults (fun _ => noFaults) true true
      [⟨ascii "a", [], 0⟩, ⟨ascii "a", [], 0⟩]).runOn
        { committed := (∅ : Files).insert (ascii "b") ⟨[], 7⟩ }).1 = none := by
    decide +kernel
  obtain ⟨-, hchunks⟩ := rebuildDatabase_failed (Prod.ext hnone rfl)
  obtain ⟨k, hk, hcommitted⟩ := hchunks ⟨rfl, rfl, by decide +kernel⟩
  have hzero : k = 0 := by
    simp only [List.length_cons, List.length_nil] at hk
    omega
  subst hzero
  exact ⟨_, Prod.ext hnone rfl, hcommitted⟩

end Clarc
