import Clarc.Local.LocalFileList

/-!
# What the walk lists: `recurseIn` on a file system

`recurseIn` puts three strings together for each entry: the path that is listed, that path behind
the prefix for `lstat`, and the path and the prefix of a directory for `opendir`.  Here it runs on a
file system, which answers `opendir` and `lstat` by the string it is given.

* `recurseIn_eq` — on a file system that holds a tree the walk is `Node.recurseIn` of that tree;
* `readdirLoop_eq` — of a tree that can be read it lists the files in the order it meets them;
* `walk_exact` — **the walk lists each regular file and each symbolic link once**, with its size,
  unless its path is excluded, and nothing else.
-/

namespace Clarc

open Bytes

/-! ## The walk on a file system -/

/-- `struct dirent`. -/
structure Dirent where
  d_name : Bytes
  d_type : DType
  deriving DecidableEq, Repr

/-- What the system calls answer: the entries of a directory in the order of `readdir`, and the size
of a file. -/
structure FileSystem where
  opendir : Bytes → Option (List Dirent)
  lstat : Bytes → Option UInt64

namespace FileSystem

variable (fs : FileSystem) (excluded : Bytes → Bool)

/-- The body of the loop in `recurseIn`, with the call of itself as a parameter. -/
def visit (pre path : Bytes) (recurse : Bytes → LocalFileList → Option LocalFileList)
    (l : LocalFileList) (dp : Dirent) : Option LocalFileList :=
  if dp.d_type = .reg ∨ dp.d_type = .lnk then
    let fullName := path ++ ascii "/" ++ dp.d_name
    let statName := pre ++ fullName
    some (l.addStat excluded fullName (fs.lstat statName))
  else if dp.d_type = .dir then
    if isDots dp.d_name then some l else recurse (path ++ ascii "/" ++ dp.d_name) l
  else some l

/-- `LocalFileList::recurseIn`, for so many levels; `none` when they do not suffice, or a directory
does not open. -/
def recurseIn (pre : Bytes) : ℕ → Bytes → LocalFileList → Option LocalFileList
  | 0, _, _ => none
  | levels + 1, path, l =>
      let toOpen := pre ++ path
      (fs.opendir toOpen).bind fun entries =>
        entries.foldlM (fs.visit excluded pre path (recurseIn pre levels)) l

end FileSystem

/-- `LocalFileList::calculateTotalSize`. -/
def LocalFileList.calculateTotalSize (l : LocalFileList) : UInt64 :=
  l.foldl (fun totalSize file => totalSize + file.size) 0

/-! ## A tree in a file system -/

/-- What `readdir` says of the entries. -/
def Entries.dirents : Entries → List Dirent
  | .nil => []
  | .cons name dType _ _ rest => ⟨name, dType⟩ :: rest.dirents

mutual

/-- How deep a tree is. -/
def Node.depth : Node → ℕ
  | .leaf _ => 0
  | .dir _ entries => entries.depth + 1

/-- How deep the trees below entries are. -/
def Entries.depth : Entries → ℕ
  | .nil => 0
  | .cons _ _ _ node rest => max node.depth rest.depth

end

mutual

/-- The file system holds the tree at a path.  Of a directory it answers for what `opendir` says; of
the entries `.` and `..`, and of what stands behind a link, nothing is said. -/
def Node.HeldAt (fs : FileSystem) (full : Bytes) : Node → Prop
  | .leaf _ => True
  | .dir true entries => fs.opendir full = some entries.dirents ∧ entries.HeldAt fs full
  | .dir false _ => fs.opendir full = none

/-- The file system holds the entries of the directory at a path. -/
def Entries.HeldAt (fs : FileSystem) (full : Bytes) : Entries → Prop
  | .nil => True
  | .cons name dType size node rest =>
      ((dType = .reg ∨ dType = .lnk) → fs.lstat (below full name) = size) ∧
        (isDots name = false → node.HeldAt fs (below full name)) ∧ rest.HeldAt fs full

end

/-- What an entry is reported as when its type is. -/
def Node.dType : Node → DType
  | .leaf .regular => .reg
  | .leaf .symlink => .lnk
  | .leaf .special => .other
  | .dir _ _ => .dir

/-- The names of entries. -/
def Entries.names : Entries → List Bytes
  | .nil => []
  | .cons name _ _ _ rest => name :: rest.names

mutual

/-- Every directory of the tree opens, and has entries of different names. -/
def Node.Readable : Node → Prop
  | .leaf _ => True
  | .dir opens entries => opens = true ∧ entries.names.Nodup ∧ entries.Readable

/-- Every entry has a name without a slash and reports its type, and every `lstat` succeeds. -/
def Entries.Readable : Entries → Prop
  | .nil => True
  | .cons name dType size node rest =>
      47 ∉ name ∧ dType = node.dType ∧
        ((dType = .reg ∨ dType = .lnk) → size.isSome = true) ∧
        (isDots name = false → node.Readable) ∧ rest.Readable

end

mutual

/-- There is a regular file or a symbolic link of this size at the end of these names. -/
def Node.FileAt : Node → List Bytes → UInt64 → Prop
  | .leaf _, _, _ => False
  | .dir _ entries, names, size => entries.FileAt names size

/-- There is one among the entries or below them. -/
def Entries.FileAt : Entries → List Bytes → UInt64 → Prop
  | .nil, _, _ => False
  | .cons name _ stat node rest, names, size =>
      (match node with
        | .leaf .special => False
        | .leaf .regular | .leaf .symlink => names = [name] ∧ stat = some size
        | .dir _ _ => isDots name = false ∧
            ∃ deeper, names = name :: deeper ∧ node.FileAt deeper size) ∨
      rest.FileAt names size

end

/-- The path with these names, from the root. -/
def pathOf (names : List Bytes) : Bytes := names.flatMap fun name => ascii "/" ++ name

/-! ## The walk is that of the tree -/

mutual

/-- On a file system that holds a tree, with levels enough, the walk is the walk of the tree. -/
theorem Node.recurseIn_eq (fs : FileSystem) (excluded : Bytes → Bool) (pre path : Bytes) :
    ∀ (node : Node) (levels : ℕ) (l : LocalFileList), node.dType = .dir → node.Readable →
      node.HeldAt fs (pre ++ path) → node.depth ≤ levels →
        fs.recurseIn excluded pre levels path l = node.recurseIn excluded path l
  | .leaf kind, _, _, htype, _, _, _ => by cases kind <;> cases htype
  | .dir false _, _, _, _, hreadable, _, _ => by cases hreadable.1
  | .dir true entries, levels, l, _, hreadable, hheld, hdepth => by
      rw [Node.depth] at hdepth
      obtain ⟨levels, rfl⟩ : ∃ n, levels = n + 1 := ⟨levels - 1, by omega⟩
      obtain ⟨hopen, hentries⟩ := hheld
      rw [FileSystem.recurseIn, hopen, Option.bind_some, Node.recurseIn]
      exact Entries.foldlM_eq fs excluded pre path entries levels l hreadable.2.2 hentries
        (by omega)

theorem Entries.foldlM_eq (fs : FileSystem) (excluded : Bytes → Bool) (pre path : Bytes) :
    ∀ (entries : Entries) (levels : ℕ) (l : LocalFileList), entries.Readable →
      entries.HeldAt fs (pre ++ path) → entries.depth ≤ levels →
        entries.dirents.foldlM (fs.visit excluded pre path (fs.recurseIn excluded pre levels)) l =
          entries.readdirLoop excluded path l
  | .nil, _, _, _, _, _ => rfl
  | .cons name dType size node rest, levels, l, hreadable, hheld, hdepth => by
      obtain ⟨-, htype, -, hnode, hrest⟩ := hreadable
      obtain ⟨hstat, hbelow, hheldRest⟩ := hheld
      rw [Entries.depth] at hdepth
      have hstatName : pre ++ (path ++ ascii "/" ++ name) = below (pre ++ path) name := by
        simp [below]
      have ih := fun l => Entries.foldlM_eq fs excluded pre path rest levels l hrest hheldRest
        (by omega)
      rw [Entries.dirents, List.foldlM_cons, FileSystem.visit, Entries.readdirLoop]
      dsimp only
      split_ifs with hlist hdir hdots
      · rw [hstatName, hstat hlist]
        exact ih _
      · exact ih _
      · rw [Bool.not_eq_true] at hdots
        have hheldNode := hbelow hdots
        rw [← hstatName] at hheldNode
        have hrecurse := Node.recurseIn_eq fs excluded pre (below path name) node levels l
          (htype.symm.trans hdir) (hnode hdots) hheldNode (by omega)
        rw [← below, hrecurse]
        cases node.recurseIn excluded (below path name) l with
        | none => rfl
        | some l' => exact ih l'
      · exact ih _

end

/-! ## The files in the order of the walk -/

mutual

/-- The regular files and symbolic links of a tree, by their names from its root, with their sizes.
-/
def Node.listing : Node → List (List Bytes × UInt64)
  | .leaf _ => []
  | .dir _ entries => entries.listing

/-- Those among the entries and below them. -/
def Entries.listing : Entries → List (List Bytes × UInt64)
  | .nil => []
  | .cons name _ size node rest =>
      (match node with
        | .leaf .special => []
        | .leaf .regular | .leaf .symlink => size.toList.map fun size => ([name], size)
        | .dir _ _ =>
            if isDots name then [] else node.listing.map fun f => (name :: f.1, f.2)) ++
      rest.listing

end

/-- The entries that the files are added as, below a path. -/
def listed (excluded : Bytes → Bool) (path : Bytes) (files : List (List Bytes × UInt64)) :
    LocalFileList :=
  (files.filter fun f => !excluded (path ++ pathOf f.1)).map fun f => ⟨path ++ pathOf f.1, f.2⟩

lemma listed_append (excluded : Bytes → Bool) (path : Bytes)
    (files others : List (List Bytes × UInt64)) :
    listed excluded path (files ++ others) =
      listed excluded path files ++ listed excluded path others := by
  rw [listed, List.filter_append, List.map_append, listed, listed]

/-- A file one level down is below the path of its directory. -/
lemma listed_below (excluded : Bytes → Bool) (path name : Bytes)
    (files : List (List Bytes × UInt64)) :
    listed excluded path (files.map fun f => (name :: f.1, f.2)) =
      listed excluded (below path name) files := by
  have hpath : ∀ names, path ++ pathOf (name :: names) = below path name ++ pathOf names := by
    intro names
    simp [pathOf, below]
  rw [listed, List.filter_map, List.map_map, listed]
  simp only [Function.comp_def, hpath]

/-- A file of a directory is added, or excluded. -/
lemma addStat_eq (excluded : Bytes → Bool) (l : LocalFileList) (path name : Bytes)
    (size : Option UInt64) :
    l.addStat excluded (below path name) size =
      l ++ listed excluded path (size.toList.map fun size => ([name], size)) := by
  have hpath : path ++ pathOf [name] = below path name := by simp [pathOf, below]
  cases size with
  | none => simp [LocalFileList.addStat, listed]
  | some size =>
      by_cases hexcluded : excluded (below path name) = true
      · simp [LocalFileList.addStat, LocalFileList.add, listed, hpath, hexcluded]
      · simp [LocalFileList.addStat, LocalFileList.add, listed, hpath, hexcluded]

mutual

/-- The walk of a tree that can be read lists its files. -/
theorem Node.recurseIn_listing (excluded : Bytes → Bool) (path : Bytes) :
    ∀ (node : Node) (l : LocalFileList), node.dType = .dir → node.Readable →
      node.recurseIn excluded path l = some (l ++ listed excluded path node.listing)
  | .leaf kind, _, htype, _ => by cases kind <;> cases htype
  | .dir false _, _, _, hreadable => by cases hreadable.1
  | .dir true entries, l, _, hreadable => by
      rw [Node.recurseIn, Node.listing]
      exact Entries.readdirLoop_listing excluded path entries l hreadable.2.2

/-- **Of entries that can be read the loop lists the files**, in the order in which it meets them.
-/
theorem Entries.readdirLoop_listing (excluded : Bytes → Bool) (path : Bytes) :
    ∀ (entries : Entries) (l : LocalFileList), entries.Readable →
      entries.readdirLoop excluded path l = some (l ++ listed excluded path entries.listing)
  | .nil, l, _ => by simp [Entries.readdirLoop, Entries.listing, listed]
  | .cons name dType size node rest, l, hreadable => by
      obtain ⟨-, htype, -, hnode, hrest⟩ := hreadable
      have ih := fun l => Entries.readdirLoop_listing excluded path rest l hrest
      simp only [Entries.readdirLoop, Entries.listing]
      rw [listed_append, ← List.append_assoc]
      rcases node with ⟨_ | _ | _⟩ | ⟨opens, entries⟩
      · obtain rfl : dType = .reg := htype
        rw [if_pos (Or.inl rfl), ih, addStat_eq]
      · obtain rfl : dType = .lnk := htype
        rw [if_pos (Or.inr rfl), ih, addStat_eq]
      · obtain rfl : dType = .other := htype
        rw [if_neg (by decide), if_neg (by decide), ih]
        simp [listed]
      · obtain rfl : dType = .dir := htype
        rw [if_neg (by decide), if_pos rfl]
        split_ifs with hdots
        · rw [ih]
          simp [listed]
        · rw [Bool.not_eq_true] at hdots
          rw [Node.recurseIn_listing excluded (below path name) (.dir opens entries) l rfl
            (hnode hdots)]
          dsimp only
          rw [ih, listed_below]

end

/-! ## Every file once -/

mutual

/-- The files in the order of the walk are the files of the tree. -/
theorem Node.mem_listing : ∀ (node : Node) (names : List Bytes) (size : UInt64),
    (names, size) ∈ node.listing ↔ node.FileAt names size
  | .leaf _, _, _ => by simp [Node.listing, Node.FileAt]
  | .dir _ entries, names, size => by
      rw [Node.listing, Node.FileAt]
      exact Entries.mem_listing entries names size

theorem Entries.mem_listing : ∀ (entries : Entries) (names : List Bytes) (size : UInt64),
    (names, size) ∈ entries.listing ↔ entries.FileAt names size
  | .nil, _, _ => by simp [Entries.listing, Entries.FileAt]
  | .cons name dType stat node rest, names, size => by
      have ih := Entries.mem_listing rest names size
      have hnode := Node.mem_listing node
      simp only [Entries.listing, Entries.FileAt]
      rw [List.mem_append, ih]
      refine or_congr_left ?_
      rcases node with ⟨_ | _ | _⟩ | ⟨opens, entries⟩
      · simp [eq_comm, and_comm]
      · simp [eq_comm, and_comm]
      · simp
      · dsimp only
        split_ifs with hdots
        · simp [hdots]
        · simp [hdots, ← hnode, eq_comm, and_comm]

end

lemma ascii_slash : ascii "/" = [47] := rfl

/-- A name ends at the next slash. -/
lemma takeWhile_pathOf {name : Bytes} (hname : 47 ∉ name) (names : List Bytes) :
    (name ++ pathOf names).takeWhile (· ≠ 47) = name := by
  rw [List.takeWhile_append_of_pos (all_ne hname)]
  cases names with
  | nil => simp [pathOf]
  | cons n ns => simp [pathOf, ascii_slash]

/-- A path is cut into its names at the slashes. -/
lemma pathOf_injective : ∀ {names others : List Bytes}, (∀ name ∈ names, 47 ∉ name) →
    (∀ name ∈ others, 47 ∉ name) → pathOf names = pathOf others → names = others
  | [], [], _, _, _ => rfl
  | [], other :: others, _, _, h => by simp [pathOf, ascii_slash] at h
  | name :: names, [], _, _, h => by simp [pathOf, ascii_slash] at h
  | name :: names, other :: others, hnames, hothers, h => by
      have hcons : ∀ (n : Bytes) (ns : List Bytes), pathOf (n :: ns) = 47 :: (n ++ pathOf ns) := by
        intro n ns
        rw [pathOf, List.flatMap_cons, ascii_slash, List.append_assoc]
        rfl
      rw [hcons, hcons, List.cons.injEq] at h
      have hfirst : name = other := by
        have hcut := congrArg (List.takeWhile (· ≠ 47)) h.2
        rwa [takeWhile_pathOf (hnames name List.mem_cons_self),
          takeWhile_pathOf (hothers other List.mem_cons_self)] at hcut
      subst hfirst
      rw [pathOf_injective (fun n hn => hnames n (List.mem_cons_of_mem name hn))
        (fun n hn => hothers n (List.mem_cons_of_mem name hn)) (List.append_cancel_left h.2)]

mutual

/-- No name on the way to a file has a slash. -/
theorem Node.listing_names : ∀ node : Node, node.Readable →
    ∀ f ∈ node.listing, ∀ name ∈ f.1, 47 ∉ name
  | .leaf _, _, f, hf => by simp [Node.listing] at hf
  | .dir _ entries, hreadable, f, hf => by
      rw [Node.listing] at hf
      exact (Entries.listing_names entries hreadable.2.2 f hf).1

/-- Nor among the entries, and the way to a file begins with the name of an entry. -/
theorem Entries.listing_names : ∀ entries : Entries, entries.Readable →
    ∀ f ∈ entries.listing, (∀ name ∈ f.1, 47 ∉ name) ∧ ∃ name ∈ entries.names, f.1.head? = some name
  | .nil, _, f, hf => by simp [Entries.listing] at hf
  | .cons name dType size node rest, hreadable, f, hf => by
      obtain ⟨hname, -, -, hnode, hrest⟩ := hreadable
      simp only [Entries.listing, List.mem_append] at hf
      rcases hf with hf | hf
      · have hfirst : (∀ n ∈ f.1, 47 ∉ n) ∧ f.1.head? = some name := by
          rcases node with ⟨_ | _ | _⟩ | ⟨opens, entries⟩
          · obtain ⟨s, -, rfl⟩ := List.mem_map.mp hf
            exact ⟨by simpa using hname, rfl⟩
          · obtain ⟨s, -, rfl⟩ := List.mem_map.mp hf
            exact ⟨by simpa using hname, rfl⟩
          · cases hf
          · dsimp only at hf
            split_ifs at hf with hdots
            · cases hf
            · obtain ⟨g, hg, rfl⟩ := List.mem_map.mp hf
              rw [Bool.not_eq_true] at hdots
              have hbelow := Node.listing_names (.dir opens entries) (hnode hdots) g hg
              refine ⟨?_, rfl⟩
              intro n hn
              rcases List.mem_cons.mp hn with rfl | hn
              · exact hname
              · exact hbelow n hn
        exact ⟨hfirst.1, name, List.mem_cons_self, hfirst.2⟩
      · obtain ⟨hnames, n, hn, hhead⟩ := Entries.listing_names rest hrest f hf
        exact ⟨hnames, n, List.mem_cons_of_mem name hn, hhead⟩

end

mutual

/-- No way leads to two files. -/
theorem Node.listing_nodup : ∀ node : Node, node.Readable → (node.listing.map Prod.fst).Nodup
  | .leaf _, _ => by simp [Node.listing]
  | .dir _ entries, hreadable => by
      rw [Node.listing]
      exact Entries.listing_nodup entries hreadable.2.1 hreadable.2.2

theorem Entries.listing_nodup : ∀ entries : Entries, entries.names.Nodup → entries.Readable →
    (entries.listing.map Prod.fst).Nodup
  | .nil, _, _ => by simp [Entries.listing]
  | .cons name dType size node rest, hnodup, hreadable => by
      obtain ⟨-, -, -, hnode, hrest⟩ := hreadable
      rw [Entries.names, List.nodup_cons] at hnodup
      have ih := Entries.listing_nodup rest hnodup.2 hrest
      simp only [Entries.listing, List.map_append]
      refine List.nodup_append.mpr ⟨?_, ih, ?_⟩
      · rcases node with ⟨_ | _ | _⟩ | ⟨opens, entries⟩
        · cases size <;> simp
        · cases size <;> simp
        · simp
        · dsimp only
          split_ifs with hdots
          · simp
          · rw [Bool.not_eq_true] at hdots
            have hbelow := Node.listing_nodup (.dir opens entries) (hnode hdots)
            have hcons : ((Node.dir opens entries).listing.map fun f =>
                (name :: f.1, f.2)).map Prod.fst =
                  ((Node.dir opens entries).listing.map Prod.fst).map (name :: ·) := by
              simp
            rw [hcons]
            exact hbelow.map List.cons_injective
      · -- what is listed here begins with another name than what is listed later
        intro a ha b hb hab
        obtain ⟨f, hf, rfl⟩ := List.mem_map.mp hb
        obtain ⟨-, n, hn, hhead⟩ := Entries.listing_names rest hrest f hf
        have hname : a.head? = some name := by
          obtain ⟨g, hg, rfl⟩ := List.mem_map.mp ha
          rcases node with ⟨_ | _ | _⟩ | ⟨opens, entries⟩
          · obtain ⟨s, -, rfl⟩ := List.mem_map.mp hg
            rfl
          · obtain ⟨s, -, rfl⟩ := List.mem_map.mp hg
            rfl
          · cases hg
          · dsimp only at hg
            split_ifs at hg with hdots
            · cases hg
            · obtain ⟨k, -, rfl⟩ := List.mem_map.mp hg
              rfl
        rw [hab, hhead] at hname
        exact hnodup.1 (Option.some.inj hname ▸ hn)

end

/-- The paths of the files are distinct. -/
lemma nodup_paths_listing {node : Node} (h : node.Readable) :
    (node.listing.map fun f => pathOf f.1).Nodup := by
  have hmap : (node.listing.map fun f => pathOf f.1) =
      (node.listing.map Prod.fst).map pathOf := by rw [List.map_map]; rfl
  rw [hmap]
  refine (node.listing_nodup h).map_on ?_
  intro a ha b hb hab
  obtain ⟨f, hf, rfl⟩ := List.mem_map.mp ha
  obtain ⟨g, hg, rfl⟩ := List.mem_map.mp hb
  exact pathOf_injective (node.listing_names h f hf) (node.listing_names h g hg) hab

/-- The sizes are added up in 64 bits. -/
lemma calculateTotalSize_toNat (l : LocalFileList) : l.calculateTotalSize.toNat =
    (l.map fun file => file.size.toNat).sum % 2 ^ 64 := by
  have hfold : ∀ (l : LocalFileList) (totalSize : UInt64),
      (l.foldl (fun totalSize file => totalSize + file.size) totalSize).toNat =
        (totalSize.toNat + (l.map fun file => file.size.toNat).sum) % 2 ^ 64 := by
    intro l
    induction l with
    | nil =>
        intro totalSize
        exact (Nat.mod_eq_of_lt totalSize.toNat_lt).symm
    | cons file l ih =>
        intro totalSize
        rw [List.foldl_cons, ih, UInt64.toNat_add, List.map_cons, List.sum_cons]
        omega
  have hzero : (0 : UInt64).toNat = 0 := rfl
  rw [LocalFileList.calculateTotalSize, hfold, hzero, Nat.zero_add]

/-- **The walk is exact.**  On a file system that holds a tree that can be read, `recurseIn` ends,
and it appends an entry for each regular file and each symbolic link of the tree whose path is not
excluded, with its size, and nothing else.  No path is listed twice, and the total is the sum of the
sizes in 64 bits. -/
theorem walk_exact {fs : FileSystem} {pre : Bytes} {entries : Entries}
    (hreadable : (Node.dir true entries).Readable) (hheld : (Node.dir true entries).HeldAt fs pre)
    (excluded : Bytes → Bool) (l : LocalFileList) :
    ∃ files : List (List Bytes × UInt64), ∃ added : LocalFileList,
      (∀ names size, (names, size) ∈ files ↔ (Node.dir true entries).FileAt names size) ∧
      (files.map fun f => pathOf f.1).Nodup ∧
      added = ((files.filter fun f => !excluded (pathOf f.1)).map fun f =>
        ⟨pathOf f.1, f.2⟩) ∧
      (∀ levels, (Node.dir true entries).depth ≤ levels →
        fs.recurseIn excluded pre levels [] l = some (l ++ added)) ∧
      added.paths.Nodup ∧
      (l ++ added).calculateTotalSize.toNat =
        ((l ++ added).map fun file => file.size.toNat).sum % 2 ^ 64 := by
  have hnodup := nodup_paths_listing hreadable
  refine ⟨(Node.dir true entries).listing, listed excluded [] (Node.dir true entries).listing,
    Node.mem_listing _, hnodup, rfl, ?_, ?_, calculateTotalSize_toNat _⟩
  · intro levels hlevels
    rw [Node.recurseIn_eq fs excluded pre [] _ levels l rfl hreadable (by rwa [List.append_nil])
      hlevels]
    exact Node.recurseIn_listing excluded [] _ l rfl hreadable
  · have hpaths : (listed excluded [] (Node.dir true entries).listing).paths =
        ((Node.dir true entries).listing.filter fun f => !excluded (pathOf f.1)).map
          fun f => pathOf f.1 := by
      rw [LocalFileList.paths, listed, List.map_map]
      rfl
    rw [hpaths]
    exact hnodup.sublist (List.filter_sublist.map _)

/-- A directory with a file, a link to its parent and a directory with a file in it. -/
def sampleEntries : Entries :=
  .cons (ascii ".") .dir none (.dir true .nil) <|
  .cons (ascii "up") .lnk (some 2) (.leaf .symlink) <|
  .cons (ascii "..") .dir none (.dir true .nil) <|
  .cons (ascii "sub") .dir none
      (.dir true (.cons (ascii "b") .reg (some 5) (.leaf .regular) .nil)) <|
  .cons (ascii "a") .reg (some 3) (.leaf .regular) .nil

/-- A file system that holds it at `./t`. -/
def sampleFileSystem : FileSystem where
  opendir := fun full =>
    if full = ascii "./t" then some sampleEntries.dirents
    else if full = ascii "./t/sub" then some [⟨ascii "b", .reg⟩]
    else none
  lstat := fun full =>
    if full = ascii "./t/up" then some 2
    else if full = ascii "./t/sub/b" then some 5
    else if full = ascii "./t/a" then some 3
    else none

theorem walk_exact_sample :
    sampleFileSystem.recurseIn (fun path => path == ascii "/a") (ascii "./t") 2 [] [] =
        some [⟨ascii "/up", 2⟩, ⟨ascii "/sub/b", 5⟩] ∧
      ∃ added : LocalFileList, sampleFileSystem.recurseIn (fun path => path == ascii "/a")
        (ascii "./t") 2 [] [] = some added ∧ added.paths.Nodup := by
  have hreadable : (Node.dir true sampleEntries).Readable := by
    simp only [sampleEntries, Node.Readable, Entries.Readable, Node.dType, Entries.names]
    refine ⟨trivial, by decide +kernel, ?_⟩
    refine ⟨by decide, trivial, by decide, by decide, ?_⟩
    refine ⟨by decide, trivial, by decide, by decide, ?_⟩
    refine ⟨by decide, trivial, by decide, by decide, ?_⟩
    refine ⟨by decide, trivial, by decide, by decide, ?_⟩
    exact ⟨by decide, trivial, by decide, by decide, trivial⟩
  have hheld : (Node.dir true sampleEntries).HeldAt sampleFileSystem (ascii "./t") := by
    simp only [sampleEntries, Node.HeldAt, Entries.HeldAt]
    refine ⟨by decide +kernel, by decide, by decide, by decide +kernel, by decide, by decide,
      by decide, by decide, ?_, by decide +kernel, by decide, trivial⟩
    exact fun _ => ⟨by decide +kernel, by decide +kernel, by decide, trivial⟩
  refine ⟨by decide +kernel, ?_⟩
  obtain ⟨files, added, -, -, -, hwalk, hnodup, -⟩ :=
    walk_exact hreadable hheld (fun path => path == ascii "/a") []
  exact ⟨added, hwalk 2 (by decide), hnodup⟩

end Clarc
