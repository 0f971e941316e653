import MeshControl.Archive.Artifact
import MeshControl.Proofs.Archive.Path

/-!
# Names of copies

The files of a region are named after the machine, the core and the region, and a machine may have
any name. Read from the end, where numerals stand between underscores, the name of a file tells
the three apart (`artifactStem_inj`). A name of a machine may also hold slashes. Then the file lies
in a directory below, and what follows the last slash is named in the same way (`exists_lastName`).
-/

namespace MeshControl.Archive

theorem toList_numeral (n : Nat) : (toString n).toList = Nat.toDigits 10 n :=
  String.toList_ofList

/-- A numeral has digits only. -/
theorem not_mem_numeral (n : Nat) {c : Char} (other : c.isDigit = false) :
    c ∉ (toString n).toList := by
  rw [toList_numeral]
  intro member
  have digit := Nat.isDigit_of_mem_toDigits (by decide) (by decide) member
  rw [other] at digit
  cases digit

theorem numeral_inj {m n : Nat} (same : (toString m).toList = (toString n).toList) : m = n := by
  rw [toList_numeral, toList_numeral] at same
  have values := congrArg (Nat.ofDigitChars 10 · 0) same
  rwa [Nat.ofDigitChars_ten_toDigits, Nat.ofDigitChars_ten_toDigits] at values

/-- What follows the last underscore, and what is ahead of it. -/
theorem append_underscore_inj {s t a b : List Char} (plain : '_' ∉ a) (plain' : '_' ∉ b)
    (same : s ++ '_' :: a = t ++ '_' :: b) : s = t ∧ a = b := by
  obtain ⟨between, rfl, rest⟩ | ⟨between, rfl, rest⟩ := List.append_eq_append_iff.1 same
  · cases between with
    | nil =>
      cases rest
      exact ⟨(List.append_nil _).symm, rfl⟩
    | cons c between =>
      cases rest
      exact absurd (List.mem_append_right _ (List.mem_cons_self ..)) plain
  · cases between with
    | nil =>
      cases rest
      exact ⟨List.append_nil _, rfl⟩
    | cons c between =>
      cases rest
      exact absurd (List.mem_append_right _ (List.mem_cons_self ..)) plain'

/-- What the files of a region are called, after the name of the machine. -/
def artifactEnd (core : Core) (region : RegionId) : String :=
  s!"_dataSpec_{core.x}_{core.y}_{core.p}_{region}"

theorem artifactStem_eq (hostname : String) (core : Core) (region : RegionId) :
    artifactStem hostname core region = hostname ++ artifactEnd core region := by
  unfold artifactStem artifactEnd
  simp only [String.append_assoc]
  rfl

theorem toList_artifactEnd (core : Core) (region : RegionId) :
    (artifactEnd core region).toList = "_dataSpec".toList ++ '_' :: (toString core.x).toList ++
      '_' :: (toString core.y).toList ++ '_' :: (toString core.p).toList ++
      '_' :: (toString region).toList := by
  unfold artifactEnd
  have plain (text : String) : toString text = text := rfl
  simp only [plain, String.toList_append, List.append_assoc]
  rfl

theorem not_mem_artifactEnd (core : Core) (region : RegionId) :
    '/' ∉ (artifactEnd core region).toList := by
  rw [toList_artifactEnd]
  have numerals (n : UInt8) : '/' ∉ (toString n).toList := not_mem_numeral n.toNat (by decide)
  simp [numerals]

/-- **Names tell apart** machines, cores and regions. -/
theorem artifactStem_inj {hostname hostname' : String} {core core' : Core}
    {region region' : RegionId}
    (same : artifactStem hostname core region = artifactStem hostname' core' region') :
    hostname = hostname' ∧ core = core' ∧ region = region' := by
  rw [artifactStem_eq, artifactStem_eq] at same
  have read := congrArg String.toList same
  rw [String.toList_append, String.toList_append, toList_artifactEnd, toList_artifactEnd] at read
  simp only [← List.append_assoc] at read
  have numerals (n : UInt8) : '_' ∉ (toString n).toList := not_mem_numeral n.toNat (by decide)
  have values {m n : UInt8} (same : (toString m).toList = (toString n).toList) : m = n :=
    UInt8.toNat_inj.1 (numeral_inj same)
  obtain ⟨read, regions⟩ := append_underscore_inj (numerals _) (numerals _) read
  obtain ⟨read, numbers⟩ := append_underscore_inj (numerals _) (numerals _) read
  obtain ⟨read, rows⟩ := append_underscore_inj (numerals _) (numerals _) read
  obtain ⟨read, columns⟩ := append_underscore_inj (numerals _) (numerals _) read
  have chips : core.chip = core'.chip :=
    Chip.mk.injEq .. ▸ ⟨values columns, values rows⟩
  exact ⟨String.toList_inj.1 (List.append_cancel_right read), Core.ext chips (values numbers),
    values regions⟩

/-- The last name of the path of a region's file is one of a machine whose name may be shorter. -/
theorem exists_lastName (folder hostname : String) : ∃ host, ∀ core region (ending : String),
    '/' ∉ ending.toList →
      (Path.ofText (Path.join folder (artifactStem hostname core region ++ ending))).getLast? =
        some (artifactStem host core region ++ ending) := by
  obtain ⟨before, joined⟩ := Path.exists_join_append folder hostname
  obtain ⟨host, last⟩ := Path.exists_getLast?_ofText before
  refine ⟨host, fun core region ending flat => ?_⟩
  have read : (artifactEnd core region ++ ending).toList =
      '_' :: ((artifactEnd core region ++ ending).toList.drop 1) := by
    rw [String.toList_append, toList_artifactEnd]
    rfl
  have below : Path.isAbsolute (artifactEnd core region ++ ending) = false := by
    rw [Path.isAbsolute, read]
    rfl
  have filled : artifactEnd core region ++ ending ≠ "" := by
    intro nothing
    rw [nothing] at read
    cases read
  rw [artifactStem_eq, artifactStem_eq, String.append_assoc, String.append_assoc, joined _ below]
  apply last _ filled
  rw [String.toList_append, List.mem_append, not_or]
  exact ⟨not_mem_artifactEnd core region, flat⟩

/-- Files of one kind that belong to different regions are named differently, -/
theorem lastName_ne (folder hostname ending : String) (flat : '/' ∉ ending.toList)
    {core core' : Core} {region region' : RegionId} (different : core = core' → region ≠ region') :
    (Path.ofText (Path.join folder (artifactStem hostname core region ++ ending))).getLast? ≠
      (Path.ofText (Path.join folder (artifactStem hostname core' region' ++ ending))).getLast? := by
  obtain ⟨host, last⟩ := exists_lastName folder hostname
  rw [last _ _ ending flat, last _ _ ending flat]
  intro same
  obtain ⟨-, cores, regions⟩ := artifactStem_inj ((String.append_left_inj _).1 (Option.some.inj same))
  exact different cores regions

/-- ... and so are an image and a listing. -/
theorem lastName_listing_ne (images reports hostname : String) (core core' : Core)
    (region region' : RegionId) :
    (Path.ofText (Path.join images (artifactStem hostname core region ++ ".dat"))).getLast? ≠
      (Path.ofText (Path.join reports (artifactStem hostname core' region' ++ ".txt"))).getLast? := by
  obtain ⟨host, last⟩ := exists_lastName images hostname
  obtain ⟨host', last'⟩ := exists_lastName reports hostname
  rw [last _ _ ".dat" (by decide), last' _ _ ".txt" (by decide)]
  intro same
  have read := congrArg String.toList (Option.some.inj same)
  rw [String.toList_append, String.toList_append] at read
  have endings := (List.append_inj' read rfl).2
  revert endings
  decide

end MeshControl.Archive
