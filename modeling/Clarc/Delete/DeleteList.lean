import Clarc.Upload.UnchangedTree

/-!
# The list to delete

`calculateListOfFilesToDelete` fills a temporary table with the local paths without their first
character and selects the rows of the files table that are not in it.  When no statement fails, the
list is **exactly the difference** and the connection is as before
(`calculateListOfFilesToDelete_exact`).

`uploadFiles` stores a file under its path *behind the destination folder*;
`calculateListOfFilesToDelete` compares the keys of the table with the local paths *as they are*.
The two agree when there is no folder.  With one, the key `F/p` of a file that was just uploaded is
taken for a file that is gone, unless `F/p` happens to be a local path too.

`deleteList_safe_iff` says exactly when a successful run leaves a list that spares every local
file.
-/

namespace Clarc

open Bytes Reactive Sqlite

/-! ## The difference -/

namespace FileListStorage

/-- **The list to delete is the exact difference**: each key of the table that is no local path
behind a slash, once; and the connection is as before, so that a second call does the same. -/
theorem calculateListOfFilesToDelete_exact (t : Files) (files : LocalFileList)
    (hnodup : files.paths.Nodup) (hrooted : files.Rooted) :
    ∃ toDelete : List Bytes,
      (calculateListOfFilesToDelete noFaults files).runOn { committed := t } =
        (some toDelete, { committed := t }) ∧
      toDelete.Nodup ∧ ∀ k, k ∈ toDelete ↔ k ∈ t ∧ ascii "/" ++ k ∉ files.paths := by
  refine ⟨_, calculateListOfFilesToDelete_whole rfl rfl (hrooted.nodup_tails hnodup), ?_, ?_⟩
  · exact nodup_notLocal _
  · intro k
    rw [mem_notLocal, Option.getD_some, hrooted.mem_tails]
    rfl

theorem calculateListOfFilesToDelete_exact_sample :
    ∃ toDelete : List Bytes,
      (calculateListOfFilesToDelete noFaults [⟨ascii "/a", 3⟩]).runOn
        { committed := AList.insert (ascii "b") ⟨[], 0⟩ ∅ } =
          (some toDelete, { committed := AList.insert (ascii "b") ⟨[], 0⟩ ∅ }) ∧
      ascii "b" ∈ toDelete := by
  obtain ⟨toDelete, hrun, -, hmem⟩ := calculateListOfFilesToDelete_exact
    (AList.insert (ascii "b") ⟨[], 0⟩ ∅) [⟨ascii "/a", 3⟩] (by decide) (by decide)
  exact ⟨toDelete, hrun, (hmem (ascii "b")).mpr (by decide)⟩

end FileListStorage

/-! ## Against the files just uploaded -/

namespace Uploader

variable {u : Uploader} {files : LocalFileList} {pfx : Bytes} {conn₀ : Db} {es : List Event}
  {s : State}

/-- No list to delete that can be calculated from the connection names the key of a local file. -/
def SparesLocalFiles (u : Uploader) (files : LocalFileList) (conn : Db) : Prop :=
  ∀ (fails : Faults) (toDelete : List Bytes) (conn' : Db),
    (FileListStorage.calculateListOfFilesToDelete fails files).runOn conn =
      (some toDelete, conn') →
    ∀ file ∈ files, u.keyOf file ∉ toDelete

/-- A list that can be calculated names keys of the table that are no local path. -/
lemma toDelete_subset {fails : Faults} {toDelete : List Bytes} {conn conn' : Db}
    (h : (FileListStorage.calculateListOfFilesToDelete fails files).runOn conn =
      (some toDelete, conn')) {key : Bytes} (hkey : key ∈ toDelete) :
    key ∈ conn.committed ∧ key ∉ files.paths.map (List.drop 1) := by
  obtain ⟨-, hall⟩ :=
    Script.wp_run (FileListStorage.calculateListOfFilesToDelete_spec fails files conn) h
  exact (hall toDelete rfl).2 key hkey

/-- Without a destination folder a key is the path without its first character. -/
lemma keyOf_of_empty (hempty : u.destinationFolder.getD [] = []) (file : LocalFile) :
    u.keyOf file = file.path.drop 1 := by
  unfold keyOf remotePath
  split
  next folder hfolder =>
    have hnil : folder = [] := by simpa [hfolder] using hempty
    simp [hnil]
  · rfl

/-- **When a successful run leaves every local file off the list to delete**: without a
destination folder, or when each key that the run leaves in the table for a local file is itself a
local path. -/
theorem deleteList_safe_iff {ω : Type} {env : Environment ω Action Event} {x x' : ω}
    (hnodup : files.paths.Nodup) (hrooted : files.Rooted) (hdry : u.dryRun = false)
    (hconn : Opened conn₀) (h : Run (u.step files pfx) env { conn := conn₀ } x es s x')
    (hpc : s.pc = .returned true) :
    SparesLocalFiles u files s.conn ↔
      (u.destinationFolder.getD [] = [] ∨
        ∀ file ∈ files,
          (u.keyOf file ∈ conn₀.committed ∨ (statOf (answerTo es) pfx file).isSome) →
            u.keyOf file ∈ files.paths.map (List.drop 1)) := by
  have hunchanged := run_unchangedTree hnodup hrooted h
  have hmem : ∀ {file}, file ∈ files → (u.keyOf file ∈ s.conn.committed ↔
      u.keyOf file ∈ conn₀.committed ∨ (statOf (answerTo es) pfx file).isSome) := fun hfile =>
    mem_after_success hnodup hrooted hdry hconn.1 hunchanged hpc hfile
  constructor
  · intro hsafe
    right
    intro file hfile hrow
    by_contra hlocal
    obtain ⟨hsettled, htemporary⟩ := opened_run hnodup hrooted hdry hconn.1 hunchanged hconn.2
    -- with no failing statement, the list holds every such key
    have hlist := FileListStorage.calculateListOfFilesToDelete_whole hsettled htemporary
      (hrooted.nodup_tails hnodup)
    refine hsafe noFaults _ _ hlist file hfile (FileListStorage.mem_notLocal.mpr ⟨?_, hlocal⟩)
    exact (Connection.view_of_settled hsettled).symm ▸ (hmem hfile).mpr hrow
  · intro hcond fails toDelete conn' hlist file hfile hdelete
    obtain ⟨hkey, hlocal⟩ := toDelete_subset hlist hdelete
    apply hlocal
    rcases hcond with hempty | hcond
    · rw [keyOf_of_empty hempty]
      exact List.mem_map_of_mem (List.mem_map_of_mem hfile)
    · exact hcond file hfile ((hmem hfile).mp hkey)

theorem deleteList_safe_iff_without_folder :
    ∃ es s, Run ((sampleUploader []).step [⟨ascii "/a", 3⟩] (ascii "/home"))
        (unchangedTree fun _ => some (sampleStat 1000)) { conn := { committed := ∅ } } () es s () ∧
      s.pc = .returned true ∧ SparesLocalFiles (sampleUploader []) [⟨ascii "/a", 3⟩] s.conn := by
  obtain ⟨es, s, hrun, hpc⟩ := run_of_exec
    ((sampleUploader []).step [⟨ascii "/a", 3⟩] (ascii "/home"))
    { conn := { committed := ∅ } } (sampleActions 1000)
    (Answered fun _ => some (sampleStat 1000)) (fun _ s => s.pc = .returned true)
    (by decide)
  exact ⟨es, s, hrun, hpc, (deleteList_safe_iff (by decide) (by decide) rfl (opened_mk ∅)
    hrun hpc).mpr (Or.inl rfl)⟩

/-- Below the folder `F`, a run that has just uploaded `/a` leaves its key on the list. -/
theorem uploaded_file_on_deleteList :
    ∃ es s, Run ((sampleUploader (ascii "F")).step [⟨ascii "/a", 3⟩] (ascii "/home"))
        (unchangedTree fun _ => some (sampleStat 1000)) { conn := { committed := ∅ } } () es s () ∧
      s.pc = .returned true ∧
      ((FileListStorage.calculateListOfFilesToDelete noFaults [⟨ascii "/a", 3⟩]).runOn s.conn).1 =
        some [ascii "F/a"] ∧
      (sampleUploader (ascii "F")).keyOf ⟨ascii "/a", 3⟩ = ascii "F/a" := by
  obtain ⟨es, s, hrun, hpc, hlist⟩ := run_of_exec
    ((sampleUploader (ascii "F")).step [⟨ascii "/a", 3⟩] (ascii "/home"))
    { conn := { committed := ∅ } } (sampleActions 1000)
    (Answered fun _ => some (sampleStat 1000))
    (fun _ s => s.pc = .returned true ∧ ((FileListStorage.calculateListOfFilesToDelete noFaults
      [⟨ascii "/a", 3⟩]).runOn s.conn).1 = some [ascii "F/a"]) (by decide)
  exact ⟨es, s, hrun, hpc, hlist, by decide⟩

end Uploader

end Clarc
