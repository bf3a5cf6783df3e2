import Clarc.Delete.DeleteList
import Clarc.Main.Confined

/-!
# What a run deletes

`--delete` posts the rows whose keys are no local path.  Two things follow for whole runs from where
the keys of the table come from (`posts_run`):

* `deletion_scope_run` — with a destination folder and a rebuild, **a run deletes only below the
  folder as long as the listings have nothing else** that is not also a local path or a name of the
  database: the rebuild takes in the whole bucket;
* `deleted_locally_run` — without a folder, **a run deletes no key of a file that exists as long as
  the walk sees each existing file that the table or the listings have**: a file that is excluded,
  whose `lstat` fails or whose type `readdir` does not tell counts as deleted.
-/

namespace Clarc

open Bytes Reactive Sqlite RemoteListOfFiles

namespace Main

variable {o : Options} {tree : Node} {K : Bytes → Prop} {table : Files} {es : List Event}
  {s : State}

/-- **What a run posts** belongs to every set that holds the listings, the keys of the local files
and, without a rebuild, the table. -/
theorem posts_run (htable : o.performRebuild = false → ∀ k ∈ table, K k)
    (hkeys : ∀ k, o.Keys tree k → K k)
    (h : Run (step o tree) (always fun _ es => ∀ e ∈ es, e.Lists K) (start o table) () es s ()) :
    ∀ e ∈ es, e.Posts o tree K := by
  have hall : Confined o tree (o.performRebuild = false) K s ∧ ∀ e ∈ es, e.Posts o tree K := by
    refine h.invariant (I := fun es s _ => Confined o tree (o.performRebuild = false) K s ∧
      ∀ e ∈ es, e.Posts o tree K) ⟨confined_start htable, by simp⟩ ?_
    intro es t x a fs t' y hI hs hlists
    have hputs : ∀ e ∈ fs, e.Puts o tree K := by
      intro e _
      rcases e with _ | _ | _ | _ | ⟨_ | _ | _ | _ | _⟩ | _ | _ <;> try trivial
      exact fun hkey _ => hkeys _ hkey
    obtain ⟨hconfined, hposts⟩ := hI.1.step hs (fun _ => id) id hlists hputs
    refine ⟨hconfined, fun e he => ?_⟩
    rcases List.mem_append.mp he with he | he
    · exact hI.2 e he
    · exact hposts e he
  exact hall.2

/-- The walk, if it ends, lists the path, relative to the source folder. -/
def Options.Walked (o : Options) (tree : Node) (k : Bytes) : Prop :=
  ∀ files, o.localFileList tree = some files → k ∈ files.paths.map (List.drop 1)

lemma Options.Deletable.not_walked {k : Bytes} (h : o.Deletable tree k) : ¬ o.Walked tree k := by
  obtain ⟨⟨files, hfiles, hlocal⟩, -⟩ := h
  exact fun hwalked => hlocal (hwalked files hfiles)

/-! ## Below the destination folder -/

/-- **What a run with a rebuild deletes is below the destination folder** as long as each key that
is listed is below it, or is a path that the walk lists or a name of the database. -/
theorem deletion_scope_run {folder : Bytes} (hfolder : o.uploader.destinationFolder = some folder)
    (hne : folder ≠ []) (hrebuild : o.performRebuild = true)
    (h : Run (step o tree) (always fun _ es => ∀ e ∈ es, e.Lists fun k =>
      folder ++ ascii "/" <+: k ∨ o.Walked tree k ∨ o.deleter.passesOver k = true)
      (start o table) () es s ()) {batch : List Bytes} {request : Request} {response : Response}
    (hpost : .post batch request response ∈ es) :
    ∀ k ∈ batch, folder ++ ascii "/" <+: k := by
  have hkeys : ∀ k, o.Keys tree k →
      folder ++ ascii "/" <+: k ∨ o.Walked tree k ∨ o.deleter.passesOver k = true := by
    rintro k ⟨files, -, file, -, rfl⟩
    left
    rw [Uploader.keyOf, Uploader.remotePath, hfolder]
    dsimp only
    rw [if_pos (List.length_pos_iff.mpr hne)]
    exact List.prefix_append _ _
  intro k hk
  obtain ⟨hK, hdeletable⟩ := posts_run (by simp [hrebuild]) hkeys h _ hpost k hk
  rcases hK with hbelow | hwalked | hname
  · exact hbelow
  · exact absurd hwalked hdeletable.not_walked
  · rw [hdeletable.2] at hname
    cases hname

/-- A command line, with patterns that match only their own text. -/
def sampleOptions (folder : Bytes) (patterns : FilePattern) (performRebuild : Bool)
    (base64Md5 : Bytes) : Options where
  uploader := Uploader.sampleUploader folder
  re := ⟨fun _ => true, fun pattern path => pattern == path⟩
  excludeFilePattern := patterns
  source := ascii "/home"
  databasePath := ascii "/home"
  performRebuild := performRebuild
  performDelete := true
  base64Md5 := fun _ => base64Md5

/-- A response without anything of interest. -/
def accepted : Response where
  code := .ok
  responseCode := 200
  headers := ascii "HTTP/1.1 200 OK\r\nServer: AmazonS3\r\n\r\n"

/-- A listing of one object. -/
def samplePage (key : Bytes) : Response where
  code := .ok
  responseCode := 200
  headers := ascii "HTTP/1.1 200 OK\r\nContent-Type: application/xml\r\n\r\n"
  body := .rooted (.element (ascii "ListBucketResult")
    [.element (ascii "IsTruncated") [.text (ascii "false")],
      .element (ascii "Contents") [.element (ascii "Key") [.text key],
        .element (ascii "ETag") [.text (ascii "\"900150983cd24fb0d6963f7d28e17f72\"")]]])

/-- The key that is listed, and then posted. -/
def sampleRebuild (key : Bytes) : List Action :=
  [.auth (some accepted), .openDatabase true, .list (some (samplePage key)), .resolve .check,
    .resolve (.dispatch 0 true), .resolve (.worker 0 .start),
    .resolve (.worker 0 (.head (some accepted))), .resolve (.worker 0 .markFree),
    .resolve .checkFailed, .resolve .check, .resolve .join, .truncate noFaults, .store noFaults,
    .walk, .upload .check, .upload .join, .calculate noFaults, .post (some accepted)]

/-- An event that lists one key, if it lists any. -/
def Event.ListsOne (key : Bytes) : Event → Prop
  | .list _ response => (response.go.bind fun t =>
      match parseListOfFiles [] t.body with
      | .parsed p => some (p.files.map RemoteFile.path)
      | .crashed | .rejected _ => none) = some [key]
  | .auth _ _ | .create _ _ | .resolve _ | .upload _ | .post _ _ _ | .database _ _ => True

instance (key : Bytes) (e : Event) : Decidable (e.ListsOne key) :=
  match e with
  | .list _ _ => inferInstanceAs (Decidable (_ = _))
  | .auth _ _ | .create _ _ | .resolve _ | .upload _ | .post _ _ _ | .database _ _ =>
      inferInstanceAs (Decidable True)

/-- An event that posts one key. -/
def Event.postsOne (key : Bytes) : Event → Bool
  | .post batch _ _ => batch == [key]
  | .auth _ _ | .create _ _ | .list _ _ | .resolve _ | .upload _ | .database _ _ => false

lemma Event.ListsOne.lists {key : Bytes} {e : Event} (h : e.ListsOne key) (hkey : K key) :
    e.Lists K := by
  rcases e with _ | _ | ⟨_, response⟩ | _ | _ | _ | _ <;> try trivial
  intro t p hgo _ _ hp f hf
  simp only [Event.ListsOne, hgo, Option.bind_some, hp, Option.some.injEq] at h
  have hmem : f.path ∈ p.files.map RemoteFile.path := List.mem_map_of_mem hf
  rw [h, List.mem_singleton] at hmem
  rwa [hmem]

lemma Event.postsOne_post {key : Bytes} {e : Event} (h : e.postsOne key = true) :
    ∃ request response, e = .post [key] request response := by
  rcases e with _ | _ | _ | _ | _ | ⟨batch, request, response⟩ | _ <;> try cases h
  obtain rfl := eq_of_beq h
  exact ⟨request, response, rfl⟩

theorem deletion_scope_run_sample :
    ∃ es s request response,
      Run (step (sampleOptions (ascii "F") [] true (ascii "PAZq9xtQNCd4cGK+rMBorQ=="))
        (.dir true .nil)) anything (start (sampleOptions (ascii "F") [] true
          (ascii "PAZq9xtQNCd4cGK+rMBorQ==")) ∅) () es s () ∧
      .post [ascii "F/a"] request response ∈ es ∧
      ∀ k ∈ [ascii "F/a"], ascii "F" ++ ascii "/" <+: k := by
  obtain ⟨es, s, hrun, e, he, hpost⟩ := run_of_exec
    (step (sampleOptions (ascii "F") [] true (ascii "PAZq9xtQNCd4cGK+rMBorQ==")) (.dir true .nil))
    (start (sampleOptions (ascii "F") [] true (ascii "PAZq9xtQNCd4cGK+rMBorQ==")) ∅)
    (sampleRebuild (ascii "F/a")) (fun _ es => ∀ e ∈ es, e.ListsOne (ascii "F/a"))
    (fun es _ => ∃ e ∈ es, e.postsOne (ascii "F/a") = true) (by decide +kernel)
  obtain ⟨request, response, rfl⟩ := Event.postsOne_post hpost
  have hbelow : ascii "F" ++ ascii "/" <+: ascii "F/a" := by decide +kernel
  refine ⟨es, s, request, response, hrun.mapEnv id fun _ => trivial, he, ?_⟩
  exact deletion_scope_run rfl (by decide +kernel) rfl
    (hrun.mapEnv id fun hall e he => (hall e he).lists (Or.inl hbelow)) he

/-- A rebuild from a bucket that holds something else deletes that too. -/
theorem deletes_outside_folder :
    ∃ es s request response,
      Run (step (sampleOptions (ascii "F") [] true (ascii "gFy73g21HKqAvefFGfFvTg=="))
        (.dir true .nil)) anything (start (sampleOptions (ascii "F") [] true
          (ascii "gFy73g21HKqAvefFGfFvTg==")) ∅) () es s () ∧
      .post [ascii "a"] request response ∈ es ∧
      ¬ ∀ k ∈ [ascii "a"], ascii "F" ++ ascii "/" <+: k := by
  obtain ⟨es, s, hrun, e, he, hpost⟩ := run_of_exec
    (step (sampleOptions (ascii "F") [] true (ascii "gFy73g21HKqAvefFGfFvTg==")) (.dir true .nil))
    (start (sampleOptions (ascii "F") [] true (ascii "gFy73g21HKqAvefFGfFvTg==")) ∅)
    (sampleRebuild (ascii "a")) (fun _ _ => True)
    (fun es _ => ∃ e ∈ es, e.postsOne (ascii "a") = true) (by decide +kernel)
  obtain ⟨request, response, rfl⟩ := Event.postsOne_post hpost
  exact ⟨es, s, request, response, hrun, he, by decide +kernel⟩

/-! ## Files that exist -/

/-- The file at the path exists and the walk does not see it, though it is not the database. -/
def Options.Hidden (o : Options) (tree : Node) (k : Bytes) : Prop :=
  tree.ExistsAt k ∧ ¬ tree.SeenAt o.excluded k ∧ o.deleter.passesOver k = false

/-- **What a run without a folder deletes does not exist locally** as long as no key of the listings
or, without a rebuild, of the table is the path of a hidden file. -/
theorem deleted_locally_run (hfolder : o.uploader.destinationFolder.getD [] = [])
    (htable : o.performRebuild = false → ∀ k ∈ table, ¬ o.Hidden tree k)
    (h : Run (step o tree) (always fun _ es => ∀ e ∈ es, e.Lists fun k => ¬ o.Hidden tree k)
      (start o table) () es s ()) {batch : List Bytes} {request : Request} {response : Response}
    (hpost : .post batch request response ∈ es) :
    ∀ k ∈ batch, ¬ tree.ExistsAt k := by
  have hkeys : ∀ k, o.Keys tree k → ¬ o.Hidden tree k ∨ o.Walked tree k := by
    rintro k ⟨files, hfiles, file, hfile, rfl⟩
    right
    intro files' hfiles'
    rw [hfiles] at hfiles'
    obtain rfl := Option.some.inj hfiles'
    rw [Uploader.keyOf_of_empty hfolder]
    exact List.mem_map_of_mem (List.mem_map_of_mem hfile)
  have hlists : Run (step o tree)
      (always fun _ es => ∀ e ∈ es, e.Lists fun k => ¬ o.Hidden tree k ∨ o.Walked tree k)
      (start o table) () es s () :=
    h.mapEnv id fun hall e he => (hall e he).mono fun k hk => Or.inl hk
  intro k hk hexists
  obtain ⟨hK, hdeletable⟩ := posts_run (fun hfresh k hk => Or.inl (htable hfresh k hk)) hkeys
    hlists _ hpost k hk
  rcases hK with hhidden | hwalked
  · refine hhidden ⟨hexists, ?_, hdeletable.2⟩
    intro hseen
    obtain ⟨⟨files, hfiles, hlocal⟩, -⟩ := hdeletable
    have hwalk := Node.seen_subset_recurseIn o.excluded [] tree [] files hfiles hseen
    exact hlocal (List.mem_map.mpr ⟨below [] k, hwalk, rfl⟩)
  · exact hdeletable.not_walked hwalked

/-- The key of a row, posted after an upload that finds nothing to do. -/
def sampleDelete : List Action :=
  [.auth (some accepted), .openDatabase true, .walk, .upload .check, .upload .join,
    .calculate noFaults, .post (some accepted)]

/-- A table of one row. -/
def oneRow (key : Bytes) : Files :=
  AList.insert key ⟨ascii "900150983cd24fb0d6963f7d28e17f72", 1000⟩ ∅

lemma mem_oneRow {key k : Bytes} (h : k ∈ oneRow key) : k = key := by
  rcases (AList.mem_insert _).mp h with h | h
  · exact h
  · exact absurd h (AList.notMem_empty k)

/-- A file and another that is excluded. -/
def sampleTree : Node :=
  .dir true (.cons (ascii "b") .reg (some 3) (.leaf .regular)
    (.cons (ascii "c") .reg (some 3) (.leaf .regular) .nil))

lemma sampleTree_files : sampleTree.files [] = [ascii "/b", ascii "/c"] := rfl

lemma sampleTree_seen (base64Md5 : Bytes) :
    sampleTree.seen (sampleOptions [] [ascii "/c"] false base64Md5).excluded [] = [ascii "/b"] :=
  rfl

/-- The file is up to date, and the key of another row is posted. -/
def sampleDeleteBeside : List Action :=
  [.auth (some accepted), .openDatabase true, .walk, .upload .check,
    .upload (.stat (some ⟨0x81A4, 3, 1000, 0, 0⟩)), .upload (.lookup noFaults), .upload .check,
    .upload .join, .calculate noFaults, .post (some accepted)]

/-- The file has a row, the one that is excluded has none, and the row beside them is of a file that
is gone. -/
theorem deleted_locally_run_sample :
    ∃ es s request response,
      Run (step (sampleOptions [] [ascii "/c"] false (ascii "gFy73g21HKqAvefFGfFvTg==")) sampleTree)
        anything (start (sampleOptions [] [ascii "/c"] false (ascii "gFy73g21HKqAvefFGfFvTg=="))
          ((oneRow (ascii "a")).insert (ascii "b")
            ⟨ascii "900150983cd24fb0d6963f7d28e17f72", 1000⟩)) () es s () ∧
      .post [ascii "a"] request response ∈ es ∧
      ∀ k ∈ [ascii "a"], ¬ sampleTree.ExistsAt k := by
  obtain ⟨es, s, hrun, e, he, hpost⟩ := run_of_exec
    (step (sampleOptions [] [ascii "/c"] false (ascii "gFy73g21HKqAvefFGfFvTg==")) sampleTree)
    (start (sampleOptions [] [ascii "/c"] false (ascii "gFy73g21HKqAvefFGfFvTg=="))
      ((oneRow (ascii "a")).insert (ascii "b") ⟨ascii "900150983cd24fb0d6963f7d28e17f72", 1000⟩))
    sampleDeleteBeside (fun _ es => ∀ e ∈ es, e.ListsOne (ascii "a"))
    (fun es _ => ∃ e ∈ es, e.postsOne (ascii "a") = true) (by decide)
  obtain ⟨request, response, rfl⟩ := Event.postsOne_post hpost
  have hgone : ¬ (sampleOptions [] [ascii "/c"] false (ascii "gFy73g21HKqAvefFGfFvTg==")).Hidden
      sampleTree (ascii "a") := by
    rintro ⟨hexists, -⟩
    rw [Node.ExistsAt, sampleTree_files] at hexists
    exact absurd hexists (by decide)
  have hseen : ¬ (sampleOptions [] [ascii "/c"] false (ascii "gFy73g21HKqAvefFGfFvTg==")).Hidden
      sampleTree (ascii "b") := by
    rintro ⟨-, hunseen, -⟩
    rw [Node.SeenAt, sampleTree_seen] at hunseen
    exact hunseen (by decide)
  refine ⟨es, s, request, response, hrun.mapEnv id fun _ => trivial, he, ?_⟩
  refine deleted_locally_run rfl (fun _ k hk => ?_)
    (hrun.mapEnv id fun hall e he => (hall e he).lists hgone) he
  rcases (AList.mem_insert _).mp hk with rfl | hk
  · exact hseen
  · exact mem_oneRow hk ▸ hgone

/-- A file that is excluded is deleted as soon as the table has it. -/
theorem deletes_excluded_file :
    ∃ es s request response,
      Run (step (sampleOptions [] [ascii "/a"] false (ascii "gFy73g21HKqAvefFGfFvTg=="))
        (.dir true (.cons (ascii "a") .reg (some 3) (.leaf .regular) .nil))) anything
        (start (sampleOptions [] [ascii "/a"] false (ascii "gFy73g21HKqAvefFGfFvTg=="))
          (oneRow (ascii "a"))) () es s () ∧
      .post [ascii "a"] request response ∈ es ∧
      (Node.dir true (.cons (ascii "a") .reg (some 3) (.leaf .regular) .nil)).ExistsAt
        (ascii "a") := by
  obtain ⟨es, s, hrun, e, he, hpost⟩ := run_of_exec
    (step (sampleOptions [] [ascii "/a"] false (ascii "gFy73g21HKqAvefFGfFvTg=="))
      (.dir true (.cons (ascii "a") .reg (some 3) (.leaf .regular) .nil)))
    (start (sampleOptions [] [ascii "/a"] false (ascii "gFy73g21HKqAvefFGfFvTg=="))
      (oneRow (ascii "a")))
    sampleDelete (fun _ _ => True) (fun es _ => ∃ e ∈ es, e.postsOne (ascii "a") = true)
    (by decide)
  obtain ⟨request, response, rfl⟩ := Event.postsOne_post hpost
  refine ⟨es, s, request, response, hrun, he, ?_⟩
  simp [Node.ExistsAt, Node.files, Entries.files]

end Main

end Clarc
