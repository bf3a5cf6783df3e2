import Clarc.Core.Bytes

/-!
# The local tree: `localFileList.cc` and `filePattern.cc`

`LocalFileList::recurseIn` walks a directory tree and lists its regular files and symbolic links.
It believes what `readdir` says of an entry's type and what `lstat` says of its size, so a tree is
given here with both answers beside what is really there.  RE2 is outside the repository:
a pattern matches as the parameter `Re2` says.

* `Node.files` — what is there, by paths from the root; this is the tree, not the walk;
* `Node.seen` — the part of it that is visible: each directory on the way and the entry itself are
  reported with their real type, `lstat` succeeds, and no pattern matches the path;
* `seen_subset_recurseIn` — **the walk lists every visible file.**

An unreadable directory is lost: `opendir` returns a null pointer and `readdir` reads it, which is
`none` here.
-/

namespace Clarc

open Bytes

/-! ## Patterns -/

/-- RE2: which patterns compile, and which texts a pattern matches in full. -/
structure Re2 where
  ok : Bytes → Bool
  fullMatch : Bytes → Bytes → Bool

/-- `FilePattern`, by the texts of its patterns. -/
abbrev FilePattern := List Bytes

/-- `FilePattern::add`. -/
def FilePattern.add (re : Re2) (patterns : FilePattern) (pattern : Bytes) : FilePattern :=
  if re.ok pattern then patterns ++ [pattern] else patterns

/-- `FilePattern::addDatabase`. -/
def FilePattern.addDatabase (re : Re2) (patterns : FilePattern) (databaseFilename : Bytes) :
    FilePattern :=
  let patterns := patterns.add re (ascii "^\\/" ++ databaseFilename ++ ascii "$")
  patterns.add re (ascii "^\\/" ++ databaseFilename ++ ascii "-journal$")

/-- `FilePattern::matches`. -/
def FilePattern.matches (re : Re2) (patterns : FilePattern) (path : Bytes) : Bool :=
  patterns.any fun pattern => re.fullMatch pattern path

/-! ## The list -/

/-- One entry of `paths` and `sizes`. -/
structure LocalFile where
  path : Bytes
  size : UInt64
  deriving DecidableEq, Repr

/-- `LocalFileList`. -/
abbrev LocalFileList := List LocalFile

namespace LocalFileList

/-- The paths of a list. -/
def paths (l : LocalFileList) : List Bytes := l.map LocalFile.path

/-- Every path begins with a slash. -/
def Rooted (l : LocalFileList) : Prop := ∀ path ∈ l.paths, path.head? = some 47

instance (l : LocalFileList) : Decidable l.Rooted :=
  inferInstanceAs (Decidable (∀ path ∈ l.paths, path.head? = some 47))

/-- A rooted path is a slash and the rest. -/
lemma Rooted.eq_cons {l : LocalFileList} (h : l.Rooted) {path : Bytes} (hp : path ∈ l.paths) :
    path = 47 :: path.drop 1 := by
  have hhead := h path hp
  cases path with
  | nil => cases hhead
  | cons a rest =>
      simp only [List.head?_cons, Option.some.injEq] at hhead
      simp [hhead]

/-- The rest of a rooted path determines it. -/
lemma Rooted.drop_injOn {l : LocalFileList} (h : l.Rooted) {p q : Bytes} (hp : p ∈ l.paths)
    (hq : q ∈ l.paths) (heq : p.drop 1 = q.drop 1) : p = q := by
  rw [h.eq_cons hp, h.eq_cons hq, heq]

/-- The paths of a rooted list are distinct without their first character. -/
lemma Rooted.nodup_tails {l : LocalFileList} (h : l.Rooted) (hnodup : l.paths.Nodup) :
    (l.paths.map (List.drop 1)).Nodup := by
  refine List.Nodup.map_on ?_ hnodup
  intro p hp q hq heq
  exact h.drop_injOn hp hq heq

/-- Those are the rests whose paths begin with a slash. -/
lemma Rooted.mem_tails {l : LocalFileList} (h : l.Rooted) {k : Bytes} :
    k ∈ l.paths.map (List.drop 1) ↔ ascii "/" ++ k ∈ l.paths := by
  rw [List.mem_map, show ascii "/" ++ k = 47 :: k from rfl]
  constructor
  · rintro ⟨path, hp, rfl⟩
    exact h.eq_cons hp ▸ hp
  · intro hk
    exact ⟨47 :: k, hk, rfl⟩

/-- `LocalFileList::add`, with the patterns as a predicate on paths. -/
def add (excluded : Bytes → Bool) (l : LocalFileList) (path : Bytes) (size : UInt64) :
    LocalFileList :=
  if excluded path then l else l ++ [⟨path, size⟩]

/-- An entry is added with its `lstat` size, or passed over when `lstat` fails. -/
def addStat (excluded : Bytes → Bool) (l : LocalFileList) (path : Bytes) :
    Option UInt64 → LocalFileList
  | none => l
  | some size => l.add excluded path size

@[simp] lemma mem_paths_add {excluded : Bytes → Bool} {l : LocalFileList} {path q : Bytes}
    {size : UInt64} :
    q ∈ (l.add excluded path size).paths ↔ q ∈ l.paths ∨ (excluded path = false ∧ q = path) := by
  unfold add paths
  split_ifs with h <;> simp [h]

@[simp] lemma mem_paths_addStat {excluded : Bytes → Bool} {l : LocalFileList} {path q : Bytes}
    {size : Option UInt64} :
    q ∈ (l.addStat excluded path size).paths ↔
      q ∈ l.paths ∨ (size.isSome ∧ excluded path = false ∧ q = path) := by
  cases size <;> simp [addStat]

end LocalFileList

/-! ## Directory trees -/

/-- What `readdir` reports in `d_type`; `other` covers `DT_UNKNOWN` and every other type. -/
inductive DType
  | reg | lnk | dir | other
  deriving DecidableEq, Repr

/-- What an entry that is not a directory really is. -/
inductive Kind
  | regular | symlink | special
  deriving DecidableEq, Repr

mutual

/-- A file, or a directory that opens or not. -/
inductive Node
  | leaf (kind : Kind)
  | dir (opens : Bool) (entries : Entries)

/-- The entries of a directory in the order of `readdir`: the name, the reported type, the size
`lstat` gives (`none` when it fails) and what is there. -/
inductive Entries
  | nil
  | cons (name : Bytes) (dType : DType) (size : Option UInt64) (node : Node) (rest : Entries)

end

/-- `.` and `..`. -/
def isDots (name : Bytes) : Bool := name == ascii "." || name == ascii ".."

/-- A path one level down. -/
def below (path name : Bytes) : Bytes := path ++ ascii "/" ++ name

mutual

/-- `LocalFileList::recurseIn`, with the patterns as a predicate on paths. -/
def Node.recurseIn (excluded : Bytes → Bool) (path : Bytes) :
    Node → LocalFileList → Option LocalFileList
  | .dir true entries, l => entries.readdirLoop excluded path l
  | .dir false _, _ => none
  | .leaf _, _ => none

/-- The loop over `readdir` in `recurseIn`. -/
def Entries.readdirLoop (excluded : Bytes → Bool) (path : Bytes) :
    Entries → LocalFileList → Option LocalFileList
  | .nil, l => some l
  | .cons name dType size node rest, l =>
      if dType = .reg ∨ dType = .lnk then
        rest.readdirLoop excluded path (l.addStat excluded (below path name) size)
      else if dType = .dir then
        if isDots name then rest.readdirLoop excluded path l
        else
          match node.recurseIn excluded (below path name) l with
          | none => none
          | some l => rest.readdirLoop excluded path l
      else rest.readdirLoop excluded path l

end

/-! ## What is there, and what is visible -/

mutual

/-- The regular files and symbolic links below a directory, by path. -/
def Node.files (path : Bytes) : Node → List Bytes
  | .dir _ entries => entries.files path
  | .leaf _ => []

/-- The regular files and symbolic links among the entries of a directory and below them. -/
def Entries.files (path : Bytes) : Entries → List Bytes
  | .nil => []
  | .cons name _ _ node rest =>
      (match node with
        | .leaf .special => []
        | .leaf .regular | .leaf .symlink => [below path name]
        | .dir _ _ => if isDots name then [] else node.files (below path name)) ++
      rest.files path

end

mutual

/-- The part of `Node.files` that is visible to the walk. -/
def Node.seen (excluded : Bytes → Bool) (path : Bytes) : Node → List Bytes
  | .dir _ entries => entries.seen excluded path
  | .leaf _ => []

/-- The part of `Entries.files` that is visible to the walk. -/
def Entries.seen (excluded : Bytes → Bool) (path : Bytes) : Entries → List Bytes
  | .nil => []
  | .cons name dType size node rest =>
      (match node with
        | .leaf .special => []
        | .leaf .regular | .leaf .symlink =>
            if (dType = .reg ∨ dType = .lnk) ∧ size.isSome ∧ excluded (below path name) = false
            then [below path name] else []
        | .dir _ _ =>
            if isDots name then []
            else if dType = .dir then node.seen excluded (below path name) else []) ++
      rest.seen excluded path

end

/-- A regular file or symbolic link exists at a path relative to the root of the tree. -/
def Node.ExistsAt (tree : Node) (relative : Bytes) : Prop := below [] relative ∈ tree.files []

/-- The file at a path relative to the root is visible to the walk. -/
def Node.SeenAt (excluded : Bytes → Bool) (tree : Node) (relative : Bytes) : Prop :=
  below [] relative ∈ tree.seen excluded []

/-! ## The walk -/

mutual

/-- The walk keeps what was listed before. -/
theorem Node.subset_recurseIn (excluded : Bytes → Bool) (path : Bytes) :
    ∀ (node : Node) (l l' : LocalFileList), node.recurseIn excluded path l = some l' →
      l.paths ⊆ l'.paths
  | .dir true entries, l, l', h => by
      rw [Node.recurseIn] at h
      exact Entries.subset_readdirLoop excluded path entries l l' h
  | .dir false _, l, l', h => by simp [Node.recurseIn] at h
  | .leaf _, l, l', h => by simp [Node.recurseIn] at h

theorem Entries.subset_readdirLoop (excluded : Bytes → Bool) (path : Bytes) :
    ∀ (entries : Entries) (l l' : LocalFileList),
      entries.readdirLoop excluded path l = some l' → l.paths ⊆ l'.paths
  | .nil, l, l', h => by
      simp only [Entries.readdirLoop, Option.some.injEq] at h
      rw [h]
      exact fun _ => id
  | .cons name dType size node rest, l, l', h => by
      have hrest := Entries.subset_readdirLoop excluded path rest
      rw [Entries.readdirLoop] at h
      split_ifs at h with hlist hdir hdots
      · exact List.Subset.trans (fun q hq => LocalFileList.mem_paths_addStat.mpr (Or.inl hq))
          (hrest _ l' h)
      · exact hrest l l' h
      · split at h
        · cases h
        next l₁ hnode =>
          exact List.Subset.trans (Node.subset_recurseIn excluded _ node l l₁ hnode)
            (hrest l₁ l' h)
      · exact hrest l l' h

end

mutual

/-- **The walk lists every visible file.** -/
theorem Node.seen_subset_recurseIn (excluded : Bytes → Bool) (path : Bytes) :
    ∀ (node : Node) (l l' : LocalFileList), node.recurseIn excluded path l = some l' →
      node.seen excluded path ⊆ l'.paths
  | .dir true entries, l, l', h => by
      rw [Node.recurseIn] at h
      simpa only [Node.seen] using Entries.seen_subset_readdirLoop excluded path entries l l' h
  | .dir false _, l, l', h => by simp [Node.recurseIn] at h
  | .leaf _, l, l', h => by simp [Node.recurseIn] at h

theorem Entries.seen_subset_readdirLoop (excluded : Bytes → Bool) (path : Bytes) :
    ∀ (entries : Entries) (l l' : LocalFileList),
      entries.readdirLoop excluded path l = some l' → entries.seen excluded path ⊆ l'.paths
  | .nil, l, l', h => by simp [Entries.seen]
  | .cons name dType size node rest, l, l', h => by
      have hkeep := Entries.subset_readdirLoop excluded path rest
      have hrest := Entries.seen_subset_readdirLoop excluded path rest
      intro q hq
      simp only [Entries.seen, List.mem_append] at hq
      rw [Entries.readdirLoop] at h
      rcases hq with hq | hq
      -- the entry itself: visible only under the type it is reported with
      · rcases node with kind | ⟨opens, entries⟩
        · have hleaf : (dType = .reg ∨ dType = .lnk) ∧ size.isSome ∧
              excluded (below path name) = false ∧ q = below path name := by
            cases kind <;> simp at hq <;> tauto
          rw [if_pos hleaf.1] at h
          exact hkeep _ _ h (LocalFileList.mem_paths_addStat.mpr (Or.inr hleaf.2))
        · dsimp only at hq
          split_ifs at hq with hdots hdir
          · simp at hq
          · rw [if_neg (by rw [hdir]; decide), if_pos hdir, if_neg hdots] at h
            split at h
            · cases h
            next l₁ hnode =>
              exact hkeep _ _ h (Node.seen_subset_recurseIn excluded _ _ l l₁ hnode hq)
          · simp at hq
      -- a later entry
      · split_ifs at h
        · exact hrest _ _ h hq
        · exact hrest _ _ h hq
        · split at h
          · cases h
          next l₁ hnode => exact hrest _ _ h hq
        · exact hrest _ _ h hq

end

/-- A path one level down begins with a slash when the path does, or is empty. -/
lemma below_head {path : Bytes} (h : path = [] ∨ path.head? = some 47) (name : Bytes) :
    (below path name).head? = some 47 := by
  rcases h with rfl | h
  · rfl
  · cases path with
    | nil => cases h
    | cons a rest => simpa [below] using h

mutual

/-- **The walk collects paths that begin with a slash.** -/
theorem Node.rooted_recurseIn (excluded : Bytes → Bool) (path : Bytes)
    (hpath : path = [] ∨ path.head? = some 47) :
    ∀ (node : Node) (l l' : LocalFileList), node.recurseIn excluded path l = some l' →
      l.Rooted → l'.Rooted
  | .dir true entries, l, l', h, hl => by
      rw [Node.recurseIn] at h
      exact Entries.rooted_readdirLoop excluded path hpath entries l l' h hl
  | .dir false _, l, l', h, _ => by simp [Node.recurseIn] at h
  | .leaf _, l, l', h, _ => by simp [Node.recurseIn] at h

theorem Entries.rooted_readdirLoop (excluded : Bytes → Bool) (path : Bytes)
    (hpath : path = [] ∨ path.head? = some 47) :
    ∀ (entries : Entries) (l l' : LocalFileList),
      entries.readdirLoop excluded path l = some l' → l.Rooted → l'.Rooted
  | .nil, l, l', h, hl => by
      simp only [Entries.readdirLoop, Option.some.injEq] at h
      rwa [← h]
  | .cons name dType size node rest, l, l', h, hl => by
      have hrest := Entries.rooted_readdirLoop excluded path hpath rest
      rw [Entries.readdirLoop] at h
      split_ifs at h with hlist hdir hdots
      · refine hrest _ l' h ?_
        intro q hq
        rcases LocalFileList.mem_paths_addStat.mp hq with hq | ⟨-, -, rfl⟩
        · exact hl q hq
        · exact below_head hpath name
      · exact hrest l l' h hl
      · split at h
        · cases h
        next l₁ hnode =>
          exact hrest l₁ l' h (Node.rooted_recurseIn excluded _
            (Or.inr (below_head hpath name)) node l l₁ hnode hl)
      · exact hrest l l' h hl

end

mutual

/-- What is visible is there. -/
theorem Node.seen_subset_files (excluded : Bytes → Bool) (path : Bytes) :
    ∀ node : Node, node.seen excluded path ⊆ node.files path
  | .dir _ entries => by
      simpa only [Node.seen, Node.files] using Entries.seen_subset_files excluded path entries
  | .leaf _ => by simp [Node.seen]

theorem Entries.seen_subset_files (excluded : Bytes → Bool) (path : Bytes) :
    ∀ entries : Entries, entries.seen excluded path ⊆ entries.files path
  | .nil => by simp [Entries.seen]
  | .cons name dType size node rest => by
      have hrest := Entries.seen_subset_files excluded path rest
      have hnode := Node.seen_subset_files excluded (below path name) node
      simp only [Entries.seen, Entries.files]
      refine List.append_subset.mpr ⟨?_, List.subset_append_of_subset_right _ hrest⟩
      refine List.subset_append_of_subset_left _ ?_
      rcases node with ⟨_ | _ | _⟩ | ⟨_, _⟩
      · intro q hq
        simp at hq
        simpa using hq.2
      · intro q hq
        simp at hq
        simpa using hq.2
      · simp
      · dsimp only at hnode ⊢
        split_ifs
        · simp
        · exact hnode
        · simp

end

end Clarc
