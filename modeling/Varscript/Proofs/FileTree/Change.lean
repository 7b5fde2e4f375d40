/-
# Changes of a file tree

An access to the file tree makes folders where nothing was, or it writes a file.  `Changes` says
that this is all that has happened from one tree to another: no folder is lost, new folders are at
some given paths, and whatever else is different is what some other given paths lead to.

A path leads to the same location for as long as no folder is lost on the way (`locate_of_folders`).
So it does not matter in which of the two trees the paths are followed, as long as they can be, and
changes can be put together (`Changes.trans`).  What remains is to look at each access once
(`keeps_write`, `keeps_makeFolder`); the folders on the way to a path are made by many of them
(`keeps_ensureParents`).
-/
import Varscript.FileTree
import Varscript.Proofs.Work.Sequence

namespace Varscript.FileTree

variable {t t' t'' : FileTree} {folders files : List String} {path : String} {l : Location}

/-! ### Changes -/

/-- `t.Changes folders files t'`: from `t` to `t'` no folder is lost, and apart from what is at the
paths `files`, nothing is different but for new folders, which are at the paths `folders`. -/
structure Changes (folders files : List String) (t t' : FileTree) : Prop where
  folder : ∀ l, t.get? l = some .folder → t'.get? l = some .folder
  kept : ∀ l, (∀ path ∈ files, t'.locate path ≠ .ok l) → t'.get? l = t.get? l ∨
    t.get? l = none ∧ t'.get? l = some .folder ∧ ∃ path ∈ folders, t'.locate path = .ok l

lemma walk_of_folders (h : ∀ l, t.get? l = some .folder → t'.get? l = some .folder)
    {m : Location} {names : List String} (hwalk : t.walk l names = .ok m) :
    t'.walk l names = .ok m := by
  induction names generalizing l with
  | nil => exact hwalk
  | cons name names ih =>
    rw [walk] at hwalk ⊢
    cases hl : t.get? l with
    | none => simp [hl] at hwalk
    | some e =>
      cases e with
      | folder =>
        rw [h l hl]
        simp only [hl] at hwalk ⊢
        split at hwalk
        · cases hwalk
        · next hname =>
          rw [if_neg hname]
          exact ih hwalk
      | _ => simp [hl] at hwalk

/-- A path leads to the same location as long as no folder is lost. -/
lemma locate_of_folders (h : ∀ l, t.get? l = some .folder → t'.get? l = some .folder)
    (hlocate : t.locate path = .ok l) : t'.locate path = .ok l := by
  rw [locate] at hlocate ⊢
  by_cases hempty : path = ""
  · rw [if_pos hempty] at hlocate
    cases hlocate
  by_cases hlong : pathLimit ≤ path.utf8ByteSize
  · rw [if_neg hempty, if_pos hlong] at hlocate
    cases hlocate
  · rw [if_neg hempty, if_neg hlong] at hlocate ⊢
    exact walk_of_folders h hlocate

/-- A path that is a name leads to what has this name in the working folder. -/
lemma locate_name (t : FileTree) (hpieces : path.splitOn "/" = [path])
    (hpath : path ∉ ["", ".", ".."]) (horigin : path.startsWith "/" = false)
    (hlimit : path.utf8ByteSize ≤ nameLimit) : t.locate path = .ok [path] := by
  obtain ⟨hempty, hdot, hdots⟩ : path ≠ "" ∧ path ≠ "." ∧ path ≠ ".." := by simpa using hpath
  have hnames : names path = [path] := by simp [names, hpieces, hempty]
  have hlong : ¬ pathLimit ≤ path.utf8ByteSize := by
    rw [nameLimit] at hlimit
    rw [pathLimit]
    omega
  have hfolder : t.get? [] = some .folder := rfl
  rw [locate, if_neg hempty, if_neg hlong, hnames, origin, horigin]
  simp only [Bool.false_eq_true, if_false, walk, hfolder, if_neg (Nat.not_lt.2 hlimit),
    Location.step, if_neg hdot, if_neg hdots, List.nil_append]

lemma locate_x (t : FileTree) : t.locate "x" = .ok ["x"] := by
  refine t.locate_name ?_ (by decide) (by decide +kernel) (by decide)
  rw [String.splitOn, if_neg (by decide)]
  rw [String.splitOnAux, if_neg (by decide), if_neg (by decide)]
  rw [String.splitOnAux, if_pos (by decide)]
  decide

lemma locate_x_dot (t : FileTree) : t.locate "x.dot" = .ok ["x.dot"] := by
  refine t.locate_name ?_ (by decide) (by decide +kernel) (by decide)
  rw [String.splitOn, if_neg (by decide)]
  iterate 5 rw [String.splitOnAux, if_neg (by decide), if_neg (by decide)]
  rw [String.splitOnAux, if_pos (by decide)]
  decide

namespace Changes

lemma locate (h : t.Changes folders files t') (hlocate : t.locate path = .ok l) :
    t'.locate path = .ok l :=
  locate_of_folders h.folder hlocate

lemma refl (t : FileTree) : t.Changes folders files t := ⟨fun _ h => h, fun _ _ => .inl rfl⟩

lemma trans (h : t.Changes folders files t') (h' : t'.Changes folders files t'') :
    t.Changes folders files t'' where
  folder l hl := h'.folder l (h.folder l hl)
  kept l hl := by
    have hl' : ∀ path ∈ files, t'.locate path ≠ .ok l :=
      fun path hpath hlocate => hl path hpath (h'.locate hlocate)
    rcases h.kept l hl' with hsame | ⟨hnone, hfolder, path, hpath, hlocate⟩
    · rw [← hsame]
      exact h'.kept l hl
    · exact .inr ⟨hnone, h'.folder l hfolder, path, hpath, h'.locate hlocate⟩

instance : Std.Refl (Changes folders files) := ⟨refl⟩

instance : IsTrans FileTree (Changes folders files) := ⟨fun _ _ _ => trans⟩

/-- Fewer paths, a stronger statement. -/
lemma mono {folders' files' : List String} (h : t.Changes folders files t')
    (hfolders : folders ⊆ folders') (hfiles : files ⊆ files') : t.Changes folders' files' t' where
  folder := h.folder
  kept l hl := by
    rcases h.kept l (fun path hpath => hl path (hfiles hpath)) with
      hsame | ⟨hnone, hfolder, path, hpath, hlocate⟩
    · exact .inl hsame
    · exact .inr ⟨hnone, hfolder, path, hfolders hpath, hlocate⟩

end Changes

/-! ### Putting an entry -/

lemma isGiven_of_get? (h : t.get? l ≠ some .folder) : l.isGiven = false :=
  Bool.eq_false_iff.2 fun hgiven => h (if_pos hgiven)

/-- No folder is lost by putting something in a place where there is none. -/
lemma get?_put_of_folder (h : t.get? l ≠ some .folder) (e : Entry) {m : Location}
    (hm : t.get? m = some .folder) : (t.put l e).get? m = some .folder := by
  have hne : m ≠ l := by
    rintro rfl
    exact h hm
  rw [get?_put_of_ne t hne, hm]

lemma locate_put (h : t.get? l ≠ some .folder) (e : Entry) (hlocate : t.locate path = .ok l) :
    (t.put l e).locate path = .ok l :=
  locate_of_folders (fun _ => get?_put_of_folder h e) hlocate

lemma changes_put_file (h : t.get? l ≠ some .folder) (hlocate : t.locate path = .ok l)
    (hpath : path ∈ files) (bytes : List UInt8) :
    t.Changes folders files (t.put l (.file bytes)) where
  folder _ := get?_put_of_folder h _
  kept m hm := by
    have hne : m ≠ l := by
      rintro rfl
      exact hm path hpath (locate_put h _ hlocate)
    exact .inl (get?_put_of_ne t hne _)

lemma changes_put_folder (h : t.get? l = none) (hlocate : t.locate path = .ok l)
    (hpath : path ∈ folders) : t.Changes folders files (t.put l .folder) where
  folder _ := get?_put_of_folder (by simp [h]) _
  kept m _ := by
    have hl : t.get? l ≠ some .folder := by simp [h]
    by_cases hne : m = l
    · rw [hne, get?_put_self t (isGiven_of_get? hl)]
      exact .inr ⟨h, rfl, path, hpath, locate_put hl _ hlocate⟩
    · exact .inl (get?_put_of_ne t hne _)

/-! ### Accesses -/

lemma locating_of_locate (hnull : '\x00' ∉ path.toList) (hlocate : t.locate path = .ok l) :
    locating path t = .ok l t := by
  rw [locating, if_neg hnull, hlocate]

lemma locating_cases (path : String) (t : FileTree) : (∃ f, locating path t = .error f t) ∨
    ∃ l, t.locate path = .ok l ∧ locating path t = .ok l t := by
  rw [locating]
  by_cases hnull : '\x00' ∈ path.toList
  · exact .inl ⟨_, if_pos hnull⟩
  · rw [if_neg hnull]
    cases t.locate path with
    | ok l => exact .inr ⟨l, rfl, rfl⟩
    | error f => exact .inl ⟨_, rfl⟩

/-- What is written at the location of a path. -/
lemma write_of_locating (hlocating : locating path t = .ok l t) (bytes : List UInt8) :
    write path bytes t = match t.get? l with
      | some .folder => .error (.unusable .isFolder path) t
      | some (.locked fault) | some (.barred fault _) => .error (.unusable fault path) t
      | some (.damaged fault) => .error (.broken fault) t
      | some (.file _) | none => .ok () (t.put l (.file bytes)) := by
  refine (bind_of_ok hlocating).trans ((bind_of_ok rfl).trans ?_)
  generalize t.get? l = e
  rcases e with _ | ⟨_ | _ | _ | _ | _⟩ <;> rfl

lemma write_of_free (hlocating : locating path t = .ok l t) (hl : t.get? l = none)
    (bytes : List UInt8) : write path bytes t = .ok () (t.put l (.file bytes)) := by
  rw [write_of_locating hlocating, hl]

/-- Writing a file fails and changes nothing, or puts the file where the path leads. -/
lemma write_cases (path : String) (bytes : List UInt8) (t : FileTree) :
    (∃ f, write path bytes t = .error f t) ∨ ∃ l, t.locate path = .ok l ∧
      t.get? l ≠ some .folder ∧ write path bytes t = .ok () (t.put l (.file bytes)) := by
  obtain ⟨f, hlocating⟩ | ⟨l, hlocate, hlocating⟩ := locating_cases path t
  · exact .inl ⟨f, bind_of_error hlocating⟩
  · rw [write_of_locating hlocating]
    split
    any_goals exact .inl ⟨_, rfl⟩
    · next hl => exact .inr ⟨l, hlocate, by rw [hl]; simp, rfl⟩
    · next hl => exact .inr ⟨l, hlocate, by rw [hl]; simp, rfl⟩

/-- Making a folder fails and changes nothing, or puts the folder where nothing was. -/
lemma makeFolder_cases (path : String) (t : FileTree) :
    (∃ f, makeFolder path t = .error f t) ∨ ∃ l, t.locate path = .ok l ∧
      t.get? l = none ∧ makeFolder path t = .ok () (t.put l .folder) := by
  obtain ⟨f, hlocating⟩ | ⟨l, hlocate, hlocating⟩ := locating_cases path t
  · exact .inl ⟨f, bind_of_error hlocating⟩
  · cases hl : t.get? l with
    | none =>
      refine .inr ⟨l, hlocate, hl, (bind_of_ok hlocating).trans ((bind_of_ok rfl).trans ?_)⟩
      simp only [hl]
      rfl
    | some e =>
      refine .inl ⟨.unusable .occupied path, ?_⟩
      refine (bind_of_ok hlocating).trans ((bind_of_ok rfl).trans ?_)
      simp only [hl]
      rfl

lemma keeps_write (hpath : path ∈ files) (bytes : List UInt8) :
    Keeps (Changes folders files) (write path bytes) := by
  intro t
  obtain ⟨f, hwrite⟩ | ⟨l, hlocate, hl, hwrite⟩ := write_cases path bytes t
  · rw [hwrite]
    exact .refl t
  · rw [hwrite]
    exact changes_put_file hl hlocate hpath bytes

lemma keeps_makeFolder (hpath : path ∈ folders) :
    Keeps (Changes folders files) (makeFolder path) := by
  intro t
  obtain ⟨f, hmake⟩ | ⟨l, hlocate, hl, hmake⟩ := makeFolder_cases path t
  · rw [hmake]
    exact .refl t
  · rw [hmake]
    exact changes_put_folder hl hlocate hpath

lemma keeps_ensureFolder (hpath : path ∈ folders) :
    Keeps (Changes folders files) (ensureFolder path) := by
  refine Keeps.bind .get fun t => ?_
  split
  · exact .pure ()
  · exact keeps_makeFolder hpath

lemma keeps_ensureFolders {paths : List String} (h : paths ⊆ folders) :
    Keeps (Changes folders files) (ensureFolders paths) := by
  fun_induction ensureFolders paths with
  | case1 => exact .pure ()
  | case2 path => exact keeps_ensureFolder (h (by simp))
  | case3 path paths _ ih =>
    obtain ⟨hpath, hpaths⟩ := List.cons_subset.1 h
    refine Keeps.bind .get fun t => ?_
    split
    · exact (keeps_makeFolder hpath).bind fun _ => ih hpaths
    · exact ih hpaths

/-- On the way to a path only folders are made. -/
lemma keeps_ensureParents (path : String) :
    Keeps (Changes (waypoints [] path.toList) files) (ensureParents path) :=
  keeps_ensureFolders (List.Subset.refl _)

end Varscript.FileTree
