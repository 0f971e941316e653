import MeshControl.Proofs.Archive.Storing

/-!
# Directories that are made

A directory is made together with those above it that are missing. Whether or not this comes to its
end, every entry stays as it was; and if it does, the path leads to a directory
(`makeDirectories_effect`).
-/

namespace MeshControl.FileTree

variable {tree next : FileTree} {path : Path} {text : String}

theorem isDirectory_iff : tree.isDirectory path = true ↔
    ∃ place, tree.resolve path = .ok place ∧ tree.node? place = some .directory := by
  unfold isDirectory
  cases tree.resolve path with
  | error fault => simp
  | ok place => simp

/-- A directory is made where its path leads, if there is nothing yet. -/
theorem makeDirectory_eq_ok (made : tree.makeDirectory path = .ok next) :
    ∃ parent name, tree.Leads path parent name ∧ tree.node? (parent ++ [name]) = none ∧
      next = ⟨tree.entries.insert (parent ++ [name]) .directory⟩ := by
  obtain ⟨⟨parent, last⟩, found, made⟩ := exists_of_bind_eq_ok made
  cases last with
  | none => cases made
  | some name =>
    dsimp only at made
    obtain ⟨free, made⟩ := not_of_guard_eq_ok made
    cases made
    exact ⟨parent, name, leads_of_target found, Option.not_isSome_iff_eq_none.1 free, rfl⟩

theorem makeDirectory_effect (made : tree.makeDirectory path = .ok next) :
    tree.Grows next ∧ next.isDirectory path = true := by
  obtain ⟨parent, name, leads, free, rfl⟩ := makeDirectory_eq_ok made
  have below : parent ++ [name] ≠ [] := List.concat_ne_nil name parent
  have grows : tree.Grows ⟨tree.entries.insert (parent ++ [name]) .directory⟩ := by
    refine ⟨fun place node found => ?_, fun lies => lies.insert leads.directory fun _ => rfl⟩
    rw [node?_insert tree below, if_neg]
    · exact found
    · rintro rfl
      rw [free] at found
      cases found
  have there : node? ⟨tree.entries.insert (parent ++ [name]) .directory⟩ (parent ++ [name]) =
      some .directory := by
    rw [node?_insert tree below, if_pos rfl]
  have resolved := (leads.of_keeps grows.keeps).resolve (by rw [there]; rfl)
  exact ⟨grows, isDirectory_iff.2 ⟨_, resolved, there⟩⟩

theorem ensureDirectory_effect (ensured : tree.ensureDirectory path = .ok next) :
    tree.Grows next ∧ next.isDirectory path = true := by
  unfold ensureDirectory at ensured
  split at ensured
  · rename_i made
    cases ensured
    exact makeDirectory_effect made
  · split at ensured
    · rename_i directory
      cases ensured
      exact ⟨.refl _, directory⟩
    · cases ensured

/-- **One directory after the other**, from the first that can be made down to the one asked for. -/
theorem makeThrough_effect (tree : FileTree) (paths : List Path) :
    tree.Grows (tree.makeThrough paths).2 ∧
      ((tree.makeThrough paths).1 = .ok () →
        ∀ path ∈ paths.head?, (tree.makeThrough paths).2.isDirectory path = true) := by
  induction paths with
  | nil => exact ⟨.refl _, nofun⟩
  | cons path above ih =>
    rw [makeThrough]
    simp only [List.head?_cons, Option.mem_some_iff, forall_eq']
    split
    · rename_i made ensured
      obtain ⟨grows, directory⟩ := ensureDirectory_effect ensured
      exact ⟨grows, fun _ => directory⟩
    · split
      · rename_i higher made
        rw [made] at ih
        exact ⟨ih.1, nofun⟩
      · rename_i higher made
        rw [made] at ih
        split
        · rename_i last ensured
          obtain ⟨grows, directory⟩ := ensureDirectory_effect ensured
          exact ⟨ih.1.trans grows, fun _ => directory⟩
        · exact ⟨ih.1, nofun⟩
    · exact ⟨.refl _, nofun⟩

/-- The path of a directory leads there, also with a slash at its end. -/
theorem exists_locate_of_isDirectory (read : pathOf text = .ok path)
    (directory : tree.isDirectory path = true) :
    ∃ place, tree.locate text = .ok place ∧ tree.node? place = some .directory := by
  obtain ⟨place, resolved, there⟩ := isDirectory_iff.1 directory
  refine ⟨place, ?_, there⟩
  rw [locate, read]
  show tree.resolve (if Path.endsInSlash text then path ++ ["."] else path) = .ok place
  split
  · rw [resolve_append resolved]
    show (tree.follow place "." >>= pure) = .ok place
    rw [follow_eq_ok_iff.2 (.here there)]
    rfl
  · exact resolved

/-- **Making a directory** leaves every entry as it was. Once it is made, its path leads there. -/
theorem makeDirectories_effect (tree : FileTree) (text : String) :
    tree.Grows (tree.makeDirectories text).2 ∧
      ((tree.makeDirectories text).1 = .ok () →
        ∃ place, (tree.makeDirectories text).2.locate text = .ok place ∧
          (tree.makeDirectories text).2.node? place = some .directory) := by
  rw [makeDirectories]
  cases read : pathOf text with
  | error fault => exact ⟨.refl _, nofun⟩
  | ok path =>
    obtain ⟨grows, directory⟩ := makeThrough_effect tree path.ancestors
    exact ⟨grows, fun made => exists_locate_of_isDirectory read (directory made path rfl)⟩

end MeshControl.FileTree
