import MeshControl.Archive.Path

/-!
# The names in a path

What a text ends in is what its path ends in (`exists_getLast?_ofText`), also when the text is a
name in a directory (`exists_join_append`). If that name has no slash, the path is the one of the
directory with one more name (`ofText_join`).
-/

namespace MeshControl.Path

/-! ## Pieces -/

theorem pieces_of_not_mem {text : List Char} (flat : '/' ∉ text) : pieces text = [text] := by
  induction text with
  | nil => rfl
  | cons c rest ih =>
    rw [List.mem_cons, not_or] at flat
    rw [pieces, ih flat.2]
    exact fun slash => flat.1 slash.symm

/-- What follows a text stands at the end of its last piece. -/
theorem exists_pieces_append (text : List Char) : ∃ early last, ∀ more, '/' ∉ more →
    pieces (text ++ more) = early ++ [last ++ more] := by
  induction text with
  | nil => exact ⟨[], [], fun more flat => pieces_of_not_mem flat⟩
  | cons c rest ih =>
    obtain ⟨early, last, read⟩ := ih
    by_cases slash : c = '/'
    · subst slash
      refine ⟨[] :: early, last, fun more flat => ?_⟩
      rw [List.cons_append, pieces, read more flat]
      rfl
    cases early with
    | nil =>
      refine ⟨[], c :: last, fun more flat => ?_⟩
      rw [List.cons_append, pieces, read more flat]
      · rfl
      · exact slash
    | cons first early =>
      refine ⟨(c :: first) :: early, last, fun more flat => ?_⟩
      rw [List.cons_append, pieces, read more flat]
      · rfl
      · exact slash

theorem pieces_ne_nil (text : List Char) : pieces text ≠ [] := by
  obtain ⟨early, last, read⟩ := exists_pieces_append text
  have whole := read [] (by simp)
  rw [List.append_nil] at whole
  rw [whole]
  exact List.concat_ne_nil _ _

/-- A slash ends a piece. -/
theorem pieces_append_slash (text more : List Char) :
    pieces (text ++ '/' :: more) = pieces text ++ pieces more := by
  induction text with
  | nil => rfl
  | cons c rest ih =>
    by_cases slash : c = '/'
    · subst slash
      rw [List.cons_append, pieces, ih, pieces, List.cons_append]
    · rw [List.cons_append, pieces, ih, pieces]
      · cases first : pieces rest with
        | nil => exact absurd first (pieces_ne_nil rest)
        | cons piece others => rfl
      · exact slash
      · exact slash

/-! ## Names -/

/-- The names between the slashes of a text. -/
def names (text : List Char) : List String := ((pieces text).filter (· ≠ [])).map String.ofList

theorem ofText_eq (text : String) : ofText text =
    if isAbsolute text then names text.toList else workplace ++ names text.toList :=
  rfl

theorem names_of_not_mem {name : String} (filled : name ≠ "") (flat : '/' ∉ name.toList) :
    names name.toList = [name] := by
  have kept : name.toList ≠ [] := fun nothing => filled (String.toList_inj.1 nothing)
  simp [names, pieces_of_not_mem flat, kept]

theorem names_append_slash (text more : List Char) :
    names (text ++ '/' :: more) = names text ++ names more := by
  rw [names, pieces_append_slash, List.filter_append, List.map_append, names, names]

/-- The last name of a path ends in what its text ends in. -/
theorem exists_getLast?_ofText (text : String) : ∃ last, ∀ more : String, more ≠ "" →
    '/' ∉ more.toList → (ofText (text ++ more)).getLast? = some (last ++ more) := by
  obtain ⟨early, last, read⟩ := exists_pieces_append text.toList
  refine ⟨.ofList last, fun more filled flat => ?_⟩
  have kept : more.toList ≠ [] := fun nothing => filled (String.toList_inj.1 nothing)
  have joined : String.ofList (last ++ more.toList) = .ofList last ++ more := by
    rw [String.ofList_append, String.ofList_toList]
  have ends : names (text ++ more).toList =
      (early.filter (· ≠ [])).map String.ofList ++ [.ofList last ++ more] := by
    simp [names, read _ flat, kept, joined]
  rw [ofText_eq, ends]
  split
  · exact List.getLast?_concat
  · rw [← List.append_assoc]
    exact List.getLast?_concat

theorem endsInSlash_append (text : String) {more : String} (filled : more ≠ "")
    (flat : '/' ∉ more.toList) : endsInSlash (text ++ more) = false := by
  have kept : more.toList ≠ [] := fun nothing => filled (String.toList_inj.1 nothing)
  rw [endsInSlash, decide_eq_false_iff_not, String.toList_append, List.getLast?_append,
    List.getLast?_eq_some_getLast kept, Option.some_or]
  intro last
  exact flat (Option.some.inj last ▸ List.getLast_mem kept)

/-! ## Joining -/

theorem isAbsolute_append {text more : String} (below : isAbsolute more = false) :
    isAbsolute (text ++ more) = isAbsolute text := by
  unfold isAbsolute at below ⊢
  rw [String.toList_append]
  cases text.toList with
  | nil => exact below
  | cons c rest => rfl

theorem isAbsolute_append_of_ne {text : String} (filled : text ≠ "") (more : String) :
    isAbsolute (text ++ more) = isAbsolute text := by
  rw [isAbsolute, isAbsolute, String.toList_append]
  cases read : text.toList with
  | nil => exact absurd (String.toList_inj.1 read) filled
  | cons c rest => rfl

theorem isAbsolute_of_not_mem {name : String} (flat : '/' ∉ name.toList) :
    isAbsolute name = false := by
  rw [isAbsolute, decide_eq_false_iff_not]
  exact fun first => flat (List.mem_of_head? first)

/-- A name goes at the end of the path it has in a directory. -/
theorem exists_join_append (directory text : String) : ∃ before, ∀ more, isAbsolute more = false →
    join directory (text ++ more) = before ++ more := by
  by_cases alone : directory = "" || isAbsolute text
  · refine ⟨text, fun more below => ?_⟩
    rw [join, isAbsolute_append below, if_pos alone]
  by_cases slash : endsInSlash directory
  · refine ⟨directory ++ text, fun more below => ?_⟩
    rw [join, isAbsolute_append below, if_neg alone, if_pos slash, String.append_assoc]
  · refine ⟨directory ++ "/" ++ text, fun more below => ?_⟩
    rw [join, isAbsolute_append below, if_neg alone, if_neg slash, String.append_assoc,
      String.append_assoc, String.append_assoc]

/-- A plain name in a directory comes after the names of the directory, -/
theorem names_join {directory name : String} (here : directory ≠ "") (filled : name ≠ "")
    (flat : '/' ∉ name.toList) :
    names (join directory name).toList = names directory.toList ++ [name] := by
  have below := isAbsolute_of_not_mem flat
  rw [← names_of_not_mem filled flat, join, if_neg (by simp [here, below])]
  split
  · rename_i slash
    obtain ⟨start, read⟩ := List.getLast?_eq_some_iff.1 (of_decide_eq_true slash)
    rw [String.toList_append, read, List.append_assoc, List.singleton_append,
      names_append_slash, names_append_slash]
    simp [names, pieces]
  · rw [String.toList_append, String.toList_append, List.append_assoc]
    exact names_append_slash _ _

/-- ... and so its path goes on from that of the directory. -/
theorem ofText_join (directory : String) {name : String} (filled : name ≠ "")
    (flat : '/' ∉ name.toList) : ofText (join directory name) = ofText directory ++ [name] := by
  have below := isAbsolute_of_not_mem flat
  by_cases here : directory = ""
  · subst here
    rw [join, if_pos (by rfl), ofText_eq, names_of_not_mem filled flat, below]
    rfl
  have absolute : isAbsolute (join directory name) = isAbsolute directory := by
    rw [join, if_neg (by simp [here, below])]
    split
    · exact isAbsolute_append_of_ne here name
    · rw [String.append_assoc]
      exact isAbsolute_append_of_ne here _
  rw [ofText_eq, ofText_eq, absolute, names_join here filled flat]
  split
  · rfl
  · rw [List.append_assoc]

theorem endsInSlash_join (directory : String) {name : String} (filled : name ≠ "")
    (flat : '/' ∉ name.toList) : endsInSlash (join directory name) = false := by
  obtain ⟨before, joined⟩ := exists_join_append directory ""
  have whole := joined name (isAbsolute_of_not_mem flat)
  rw [String.empty_append] at whole
  rw [whole]
  exact endsInSlash_append before filled flat

end MeshControl.Path
