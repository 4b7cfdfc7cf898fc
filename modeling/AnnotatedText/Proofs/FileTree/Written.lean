import AnnotatedText.FileTree

/-!
# Written files

What is written to a file is read back by the same path. Writing puts a file at one place, at which
no directory stands, and a path is followed through directories only; so the way to the directory of
the file is the same as before, and behind it stands what was written. Whether a file can be written
does not depend on its content.

## Main results

* `FileTree.read_of_write`: a written file is read back.
* `FileTree.IsWritable.exists_write`: to a writable path any content can be written.
-/

namespace AnnotatedText.FileTree

variable {t : FileTree} {place : List String} {n : FileNode}

/-! ### Putting something at a place -/

/-- What is put at a place stands there. -/
theorem node?_put_self (h : ¬ (isAbove place ∨ place = ["/"])) :
    (t.put place n).node? place = some n := by
  rw [node?, if_neg h, put, List.find?_cons_of_pos (by simp)]
  rfl

/-- All other places stay as they are. -/
theorem node?_put_of_ne {other : List String} (h : other ≠ place) :
    (t.put place n).node? other = t.node? other := by
  rw [node?, node?]
  split
  · rfl
  · rw [put, List.find?_cons_of_neg (by simpa using Ne.symm h), List.find?_filter]
    congr 2
    funext entry
    by_cases heq : entry.1 = other
    · simp [heq, h]
    · simp [heq]

/-- Where a directory stands, something else can be put at no place that would be met as one. -/
theorem requireDirectory_put (hnew : t.node? place ≠ some .directory) {other : List String}
    (h : t.requireDirectory other = .ok ()) :
    (t.put place n).requireDirectory other = .ok () := by
  have hdirectory : t.node? other = some .directory := by
    rw [requireDirectory] at h
    split at h
    · cases h
    · cases h
    · assumption
  have hne : other ≠ place := by
    rintro rfl
    exact hnew hdirectory
  rw [requireDirectory, node?_put_of_ne hne, hdirectory]

/-- **A way through directories stays** when something is put where no directory stands. -/
theorem follow_put (hnew : t.node? place ≠ some .directory) {cs start stop : List String}
    (h : t.follow start cs = .ok stop) : (t.put place n).follow start cs = .ok stop := by
  induction cs generalizing start with
  | nil => exact h
  | cons c rest ih =>
      rw [follow] at h ⊢
      cases hrequire : t.requireDirectory start with
      | error e => rw [hrequire] at h; cases h
      | ok _ =>
          rw [hrequire] at h
          rw [requireDirectory_put hnew hrequire]
          exact ih h

/-- A way goes on where its first part ends. -/
theorem follow_append {cs ds start middle : List String} (h : t.follow start cs = .ok middle) :
    t.follow start (cs ++ ds) = t.follow middle ds := by
  induction cs generalizing start with
  | nil =>
      obtain rfl := Except.ok.inj h
      rfl
  | cons c rest ih =>
      rw [follow] at h
      rw [List.cons_append, follow]
      cases hrequire : t.requireDirectory start with
      | error e => rw [hrequire] at h; cases h
      | ok _ =>
          rw [hrequire] at h
          exact ih h

/-! ### Names -/

/-- Behind a name a new place begins, which is neither the working directory nor one above it. -/
theorem place_of_isName {name : String} (h : isName name = true) (place : List String) :
    enter place name = place ++ [name] ∧
      ¬ (isAbove (place ++ [name]) = true ∨ place ++ [name] = ["/"]) := by
  obtain ⟨hempty, hdot, hdots, hslash⟩ : name ≠ "" ∧ name ≠ "." ∧ name ≠ ".." ∧ name ≠ "/" := by
    simpa [isName] using h
  constructor
  · simp [enter, hempty, hdot, hdots, hslash]
  · rintro (habove | hroot)
    · have := List.all_eq_true.mp habove name (by simp)
      exact hdots (by simpa using this)
    · have hlast := congrArg List.getLast? hroot
      exact hslash (by simpa using hlast)

/-- Components that end in a name are those before it and the name. -/
theorem components_eq {cs : List String} (hslashes : withoutSlashes cs = cs)
    (hname : isName (splitComponents cs).2 = true) :
    cs = (splitComponents cs).1 ++ [(splitComponents cs).2] := by
  rw [splitComponents, hslashes] at hname ⊢
  have hne : cs ≠ [] := by
    rintro rfl
    exact absurd hname (by decide)
  rw [List.getLastD_eq_getLast?, List.getLast?_eq_some_getLast hne, Option.getD_some]
  exact (List.dropLast_concat_getLast hne).symm

/-! ### Writing a file -/

/-- A path **admits** a file named `name` in the directory at `place`: the path ends in the name and
leads through directories to that one, where no directory has the name. -/
structure Admits (t : FileTree) (path : String) (place : List String) (name : String) : Prop where
  path_ne : path ≠ ""
  name_eq : (splitComponents (components path)).2 = name
  isName : isName name = true
  no_slash : withoutSlashes (components path) = components path
  directory : t.directoryAt (splitComponents (components path)).1 = .ok place
  no_directory : t.node? (place ++ [name]) ≠ some .directory

/-- **A file is written where the path admits it, and nowhere else.** -/
theorem write_eq_ok_iff {path : String} {content : Bytes} {after : FileTree} :
    t.write path content = .ok after ↔
      ∃ place name, t.Admits path place name ∧
        after = t.put (place ++ [name]) (.file content) := by
  rcases hsplit : splitComponents (components path) with ⟨before, name⟩
  constructor
  · intro h
    simp only [write, hsplit] at h
    by_cases hpath : path = ""
    · rw [if_pos hpath] at h
      cases h
    · rw [if_neg hpath] at h
      cases hplace : t.directoryAt before with
      | error e => simp [hplace] at h
      | ok place =>
          simp only [hplace] at h
          split at h
          · cases h
          · rename_i hname
            split at h
            · cases h
            · rename_i hfree
              obtain ⟨hname, hslashes⟩ := not_or.mp hname
              exact ⟨place, name, ⟨hpath, by rw [hsplit], by simpa using hname,
                by simpa using hslashes, by rw [hsplit]; exact hplace, hfree⟩,
                (Except.ok.inj h).symm⟩
  · rintro ⟨place, name', ⟨hpath, rfl, hname, hslashes, hplace, hfree⟩, rfl⟩
    rw [hsplit] at hname hplace hfree ⊢
    simp [write, hsplit, hpath, hplace, hname, hslashes, hfree]

/-- The directory that components lead to is at the end of their way. -/
theorem directoryAt_eq_ok {cs place : List String} (h : t.directoryAt cs = .ok place) :
    t.follow [] cs = .ok place ∧ t.requireDirectory place = .ok () := by
  rw [directoryAt] at h
  split at h
  · cases h
  · rename_i found hfollow
    split at h
    · cases h
    · rename_i hrequire
      obtain rfl := Except.ok.inj h
      exact ⟨hfollow, hrequire⟩

/-- **What is written to a file is read back from it.** -/
theorem read_of_write {path : String} {content : Bytes} {after : FileTree}
    (h : t.write path content = .ok after) : after.read path = .ok content := by
  obtain ⟨place, name, hadmits, rfl⟩ := write_eq_ok_iff.mp h
  obtain ⟨hfollow, hrequire⟩ := directoryAt_eq_ok hadmits.directory
  obtain ⟨henter, hnew⟩ := place_of_isName hadmits.isName place
  have hcomponents := components_eq hadmits.no_slash (hadmits.name_eq ▸ hadmits.isName)
  rw [hadmits.name_eq] at hcomponents
  -- the way to the directory is the same, and the name leads on to the new place
  have hway : (t.put (place ++ [name]) (.file content)).follow [] (components path) =
      .ok (place ++ [name]) := by
    rw [hcomponents, follow_append (follow_put hadmits.no_directory hfollow), follow,
      requireDirectory_put hadmits.no_directory hrequire]
    exact congrArg Except.ok henter
  rw [read, lookup, if_neg hadmits.path_ne, hway]
  simp only [node?_put_self hnew]

/-- A path is **writable** if the directories above it can be made and a file can be written
there. -/
def IsWritable (t : FileTree) (path : String) : Prop :=
  ∃ made, t.makeParents path = (made, .ok ()) ∧ ∃ content after, made.write path content = .ok after

/-- **To a writable path any content can be written.** -/
theorem IsWritable.exists_write {path : String} (h : t.IsWritable path) (content : Bytes) :
    ∃ made after, t.makeParents path = (made, .ok ()) ∧ made.write path content = .ok after := by
  obtain ⟨made, hmade, _, _, hwrite⟩ := h
  obtain ⟨place, name, hadmits, -⟩ := write_eq_ok_iff.mp hwrite
  exact ⟨made, _, hmade, write_eq_ok_iff.mpr ⟨place, name, hadmits, rfl⟩⟩

end AnnotatedText.FileTree
