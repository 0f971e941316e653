import MeshControl.Proofs.Region.Generation

/-!
# Reservations that fail

A reservation looks at all of its entries before it declares any, but it looks at each of them
against the map as it is, and not against the entries ahead of it. So one that fails leaves the map
as it was exactly if the map refuses one of the entries (`MemoryMap.Accepts`). If the map accepts
them all and two of them disagree, what stands ahead of the disagreement stays declared.

Main statement: `Site.reserve_outcome`.
-/

namespace MeshControl

namespace MemoryMap

/-- The table has room for the region, and its number is not declared with another size. -/
structure Accepts (map : MemoryMap) (region : Region) : Prop where
  room : region.id < RegionId.limit
  size : ∀ {declared}, map.region? region.id = some declared → declared.size = region.size

/-- The map accepts every region of a list, and those of one number have one size. -/
structure Agrees (map : MemoryMap) (regions : List Region) : Prop where
  accepted : ∀ region ∈ regions, map.Accepts region
  alike : ∀ first ∈ regions, ∀ second ∈ regions, first.id = second.id → first.size = second.size

/-- A map is an earlier one and, for each number that was free, the first region of a list that has
it. -/
structure Gains (before after : MemoryMap) (regions : List Region) : Prop where
  core : after.core = before.core
  generation : after.generation = before.generation
  region? : ∀ id, after.region? id =
    (before.region? id).or (regions.find? fun region => region.id = id)

variable {map before after : MemoryMap} {region : Region} {regions : List Region}

/-! ## One region -/

theorem check_eq_ok_iff (map : MemoryMap) (region : Region) :
    map.check region = .ok () ↔ map.Accepts region := by
  unfold check
  by_cases room : region.id < RegionId.limit
  · rw [if_neg (not_not_intro room)]
    cases found : map.region? region.id with
    | none =>
      refine iff_of_true rfl ⟨room, ?_⟩
      rw [found]
      exact nofun
    | some declared =>
      dsimp only
      by_cases same : declared.size = region.size
      · rw [if_pos same]
        refine iff_of_true rfl ⟨room, ?_⟩
        rw [found]
        rintro _ ⟨⟩
        exact same
      · rw [if_neg same]
        exact iff_of_false nofun fun accepts => same (accepts.size found)
  · rw [if_pos room]
    exact iff_of_false nofun fun accepts => room accepts.room

theorem region?_record (map : MemoryMap) (region : Region) (id : RegionId) :
    (map.record region).region? id =
      (map.region? id).or (if region.id = id then some region else none) := by
  unfold record
  by_cases known : map.regions.contains region.id
  · rw [if_pos known]
    obtain ⟨declared, found⟩ := Option.isSome_iff_exists.1 known
    change map.region? region.id = some declared at found
    by_cases same : region.id = id
    · rw [← same, found, Option.some_or]
    · rw [if_neg same, Option.or_none]
  · rw [if_neg known]
    show (map.regions.insert region.id region).get? id = _
    have free : map.region? region.id = none := Option.not_isSome_iff_eq_none.1 known
    rw [OrderedMap.get?_insert]
    by_cases same : region.id = id
    · rw [if_pos same, if_pos same, ← same, free, Option.none_or]
    · rw [if_neg same, if_neg same, Option.or_none]
      rfl

theorem core_record (map : MemoryMap) (region : Region) : (map.record region).core = map.core := by
  unfold record
  split
  · rfl
  · rfl

/-- What is accepted next to a region that was just declared. -/
theorem accepts_record_iff (accepts : map.Accepts region) (other : Region) :
    (map.record region).Accepts other ↔
      map.Accepts other ∧ (region.id = other.id → region.size = other.size) := by
  constructor
  · intro next
    have same : ∀ {declared}, map.region? other.id = some declared →
        declared.size = other.size := by
      intro declared found
      refine next.size ?_
      rw [region?_record, found, Option.some_or]
    refine ⟨⟨next.room, same⟩, ?_⟩
    intro named
    cases found : map.region? other.id with
    | some declared =>
      rw [← accepts.size (named ▸ found), same found]
    | none =>
      refine next.size ?_
      rw [region?_record, found, Option.none_or, if_pos named]
  · rintro ⟨old, alike⟩
    refine ⟨old.room, ?_⟩
    intro declared found
    rw [region?_record] at found
    cases known : map.region? other.id with
    | some earlier =>
      rw [known] at found
      cases found
      exact old.size known
    | none =>
      rw [known, Option.none_or] at found
      split at found
      · rename_i named
        cases found
        exact alike named
      · cases found

/-! ## Lists -/

/-- A list agrees if its first region is accepted and the others agree once it is declared. -/
theorem agrees_cons_iff (map : MemoryMap) (region : Region) (regions : List Region) :
    map.Agrees (region :: regions) ↔ map.Accepts region ∧ (map.record region).Agrees regions := by
  constructor
  · rintro ⟨accepted, alike⟩
    have first := accepted region (List.mem_cons_self ..)
    refine ⟨first, ?_, ?_⟩
    · intro other member
      have later := List.mem_cons_of_mem region member
      exact (accepts_record_iff first other).2
        ⟨accepted other later, alike region (List.mem_cons_self ..) other later⟩
    · intro one hasOne two hasTwo
      exact alike one (List.mem_cons_of_mem _ hasOne) two (List.mem_cons_of_mem _ hasTwo)
  · rintro ⟨first, accepted, alike⟩
    have later : ∀ other ∈ regions,
        map.Accepts other ∧ (region.id = other.id → region.size = other.size) :=
      fun other member => (accepts_record_iff first other).1 (accepted other member)
    refine ⟨?_, ?_⟩
    · intro other member
      rcases List.mem_cons.1 member with rfl | member
      · exact first
      · exact (later other member).1
    · intro one hasOne two hasTwo named
      rcases List.mem_cons.1 hasOne with rfl | oneLater
      · rcases List.mem_cons.1 hasTwo with rfl | twoLater
        · rfl
        · exact (later two twoLater).2 named
      · rcases List.mem_cons.1 hasTwo with rfl | twoLater
        · exact ((later one oneLater).2 named.symm).symm
        · exact alike one oneLater two twoLater named

theorem agrees_nil (map : MemoryMap) : map.Agrees [] :=
  ⟨fun _ member => (nomatch member), fun _ member => (nomatch member)⟩

theorem Gains.nil (map : MemoryMap) : map.Gains map [] :=
  ⟨rfl, rfl, fun _ => (Option.or_none).symm⟩

/-- What is gained after a region was declared is gained from it and the others. -/
theorem Gains.cons (gains : (map.record region).Gains after regions) :
    map.Gains after (region :: regions) := by
  refine ⟨gains.core.trans (map.core_record region),
    gains.generation.trans (map.record_generation region), ?_⟩
  intro id
  rw [gains.region?, region?_record, Option.or_assoc, List.find?_cons]
  by_cases named : region.id = id
  · simp [named]
  · simp [named]

/-- Nothing is gained from regions whose numbers are declared already, and only from those. -/
theorem Gains.eq_iff (gains : before.Gains after regions) :
    after = before ↔ ∀ region ∈ regions, before.region? region.id ≠ none := by
  constructor
  · rintro rfl region member free
    have gained := gains.region? region.id
    rw [free, Option.none_or, eq_comm, List.find?_eq_none] at gained
    exact gained region member (decide_eq_true rfl)
  · intro known
    have same : after.regions = before.regions := by
      apply OrderedMap.ext_get?
      intro id
      refine (gains.region? id).trans ?_
      cases found : before.region? id with
      | some declared => exact found.symm
      | none =>
        have missing : (regions.find? fun region => region.id = id) = none := by
          rw [List.find?_eq_none]
          intro region member named
          exact known region member (of_decide_eq_true named ▸ found)
        rw [missing]
        exact found.symm
    have core := gains.core
    have generation := gains.generation
    cases before
    cases after
    cases core
    cases generation
    cases same
    rfl

/-- **Declaring a list** goes on up to the first region that does not agree with the map and with
what stands ahead of it. Induction on the list: what is declared makes the map that the others have
to agree with. -/
theorem declareAll_cases (map : MemoryMap) (regions : List Region) :
    (map.Agrees regions ∧ ∃ after, map.declareAll regions = (.ok (), after) ∧
        map.Gains after regions) ∨
      ∃ early clash late fault after, regions = early ++ clash :: late ∧ map.Agrees early ∧
        ¬ map.Agrees (early ++ [clash]) ∧ map.declareAll regions = (.error fault, after) ∧
        map.Gains after early := by
  induction regions generalizing map with
  | nil => exact .inl ⟨map.agrees_nil, map, rfl, .nil map⟩
  | cons region rest ih =>
    rw [declareAll, declare]
    cases checked : map.check region with
    | error fault =>
      have refused : ¬ map.Accepts region := by
        rw [← check_eq_ok_iff, checked]
        rintro ⟨⟩
      refine .inr ⟨[], region, rest, fault, map, rfl, map.agrees_nil, ?_, rfl, .nil map⟩
      exact fun agrees => refused (agrees.accepted region (List.mem_cons_self ..))
    | ok _ =>
      have accepts := (map.check_eq_ok_iff region).1 checked
      show (_ ∧ ∃ after, (map.record region).declareAll rest = (.ok (), after) ∧ _) ∨
        ∃ early clash late fault after, _ ∧ _ ∧ _ ∧
          (map.record region).declareAll rest = (.error fault, after) ∧ _
      obtain ⟨agrees, after, ran, gains⟩ | ⟨early, clash, late, fault, after, split, agrees, clashes,
        ran, gains⟩ := ih (map.record region)
      · exact .inl ⟨(agrees_cons_iff ..).2 ⟨accepts, agrees⟩, after, ran, gains.cons⟩
      · refine .inr ⟨region :: early, clash, late, fault, after, ?_, ?_, ?_, ran, gains.cons⟩
        · rw [split, List.cons_append]
        · exact (agrees_cons_iff ..).2 ⟨accepts, agrees⟩
        · rw [List.cons_append, agrees_cons_iff]
          exact fun whole => clashes whole.2

theorem forM_check_eq_ok_iff (map : MemoryMap) (regions : List Region) :
    regions.forM map.check = .ok () ↔ ∀ region ∈ regions, map.Accepts region := by
  induction regions with
  | nil => exact iff_of_true rfl fun _ member => nomatch member
  | cons region rest ih =>
    rw [List.forall_mem_cons, ← ih, ← check_eq_ok_iff]
    show (map.check region >>= fun _ => rest.forM map.check) = .ok () ↔ _
    cases map.check region with
    | error fault => exact iff_of_false nofun fun both => nomatch both.1
    | ok _ => exact (and_iff_right rfl).symm

/-- A region that is accepted and still does not agree with the list ahead of it has the number of
one of that list, and another size. -/
theorem Agrees.exists_clash {early : List Region} {clash : Region} (agrees : map.Agrees early)
    (accepts : map.Accepts clash) (clashes : ¬ map.Agrees (early ++ [clash])) :
    ∃ first ∈ early, first.id = clash.id ∧ first.size ≠ clash.size := by
  by_contra none
  have alike : ∀ first ∈ early, first.id = clash.id → first.size = clash.size := by
    intro first member named
    by_contra other
    exact none ⟨first, member, named, other⟩
  refine clashes ⟨?_, ?_⟩
  · intro region member
    rcases List.mem_append.1 member with ahead | last
    · exact agrees.accepted region ahead
    · rw [List.mem_singleton.1 last]
      exact accepts
  · intro one hasOne two hasTwo named
    rcases List.mem_append.1 hasOne with hasOne | hasOne
    · rcases List.mem_append.1 hasTwo with hasTwo | hasTwo
      · exact agrees.alike one hasOne two hasTwo named
      · rw [List.mem_singleton.1 hasTwo] at named ⊢
        exact alike one hasOne named
    · rw [List.mem_singleton.1 hasOne] at named ⊢
      rcases List.mem_append.1 hasTwo with hasTwo | hasTwo
      · exact (alike two hasTwo named.symm).symm
      · rw [List.mem_singleton.1 hasTwo]

/-- **What a reservation does to a map.** -/
theorem reserve_cases (map : MemoryMap) (regions : List Region) :
    (map.Agrees regions ∧ ∃ after, map.reserve regions = (.ok (), after) ∧
        map.Gains after regions) ∨
      (∃ region ∈ regions, ¬ map.Accepts region) ∧
        (∃ fault, map.reserve regions = (.error fault, map)) ∨
      (∀ region ∈ regions, map.Accepts region) ∧
        ∃ early clash late, regions = early ++ clash :: late ∧ map.Agrees early ∧
          (∃ first ∈ early, first.id = clash.id ∧ first.size ≠ clash.size) ∧
          ∃ fault after, map.reserve regions = (.error fault, after) ∧ map.Gains after early := by
  unfold reserve
  cases checked : regions.forM map.check with
  | error fault =>
    refine .inr (.inl ⟨?_, fault, rfl⟩)
    by_contra none
    have accepted : ∀ region ∈ regions, map.Accepts region := by
      intro region member
      by_contra refused
      exact none ⟨region, member, refused⟩
    rw [(map.forM_check_eq_ok_iff regions).2 accepted] at checked
    cases checked
  | ok _ =>
    have accepted := (map.forM_check_eq_ok_iff regions).1 checked
    obtain ⟨agrees, ran⟩ | ⟨early, clash, late, fault, after, rfl, agrees, clashes, ran, gains⟩ :=
      map.declareAll_cases regions
    · exact .inl ⟨agrees, ran⟩
    · have accepts := accepted clash (List.mem_append_right _ (List.mem_cons_self ..))
      exact .inr (.inr ⟨accepted, early, clash, late, rfl, agrees,
        agrees.exists_clash accepts clashes, fault, after, ran, gains⟩)

/-- A reservation that succeeds was of regions that agree. -/
theorem agrees_of_reserve (reserved : map.reserve regions = (.ok (), after)) :
    map.Agrees regions := by
  obtain ⟨agrees, -⟩ | ⟨-, fault, failed⟩ | ⟨-, _, _, _, -, -, -, fault, _, failed, -⟩ :=
    map.reserve_cases regions
  · exact agrees
  · cases failed.symm.trans reserved
  · cases failed.symm.trans reserved

/-- **What is declared can be declared again**, which changes nothing. -/
theorem reserve_of_declares (room : ∀ region ∈ regions, region.id < RegionId.limit)
    (declares : ∀ region ∈ regions, map.Declares region) :
    map.reserve regions = (.ok (), map) := by
  have accepted : ∀ region ∈ regions, map.Accepts region := by
    intro region member
    obtain ⟨declared, found, size⟩ := declares region member
    refine ⟨room region member, ?_⟩
    intro other same
    rw [found] at same
    cases same
    exact size
  obtain ⟨-, after, reserved, gains⟩ | ⟨⟨region, member, refused⟩, -⟩ |
    ⟨-, early, clash, late, split, -, ⟨first, ahead, named, other⟩, -⟩ := map.reserve_cases regions
  · rw [reserved, gains.eq_iff.2]
    intro region member free
    obtain ⟨declared, found, -⟩ := declares region member
    rw [free] at found
    cases found
  · exact absurd (accepted region member) refused
  · obtain ⟨declared, found, size⟩ := declares first (split ▸ List.mem_append_left _ ahead)
    obtain ⟨again, sameFound, sameSize⟩ :=
      declares clash (split ▸ List.mem_append_right _ (List.mem_cons_self ..))
    rw [named, sameFound] at found
    cases found
    exact absurd (size.symm.trans sameSize) other

/-- A disagreement within a list is about a number that was free. -/
theorem Gains.ne_of_clash {early : List Region} {clash first : Region}
    (gains : before.Gains after early) (agrees : before.Agrees early)
    (accepts : before.Accepts clash) (member : first ∈ early) (named : first.id = clash.id)
    (other : first.size ≠ clash.size) : after ≠ before := by
  intro same
  have known := gains.eq_iff.1 same first member
  obtain ⟨declared, found⟩ := Option.ne_none_iff_exists'.1 known
  have ahead := (agrees.accepted first member).size found
  have later := accepts.size (named ▸ found)
  exact other (ahead.symm.trans later)

end MemoryMap

namespace Site

variable {σ : Type}

/-- What a reservation answers and what it leaves on its core. -/
theorem reserve_on_core {core : Core} {declarations : List Declaration} {site ready : Site σ}
    {result : Except Fault Unit}
    (reserved : (reserve core declarations).runOn site = (result, ready)) :
    (site.loader.mapOf core).reserve (declarations.map Declaration.region) =
        (result, ready.loader.mapOf core) ∧
      ready.loader.map? core = some (ready.loader.mapOf core) := by
  have made : site.loader.setMap core ((site.loader.mapOf core).reserve
      (declarations.map Declaration.region)).2 = ready.loader :=
    congrArg (Site.loader ∘ Prod.snd) reserved
  have answered : ((site.loader.mapOf core).reserve (declarations.map Declaration.region)).1 =
      result :=
    congrArg Prod.fst reserved
  rw [← made, ← answered, Loader.mapOf_setMap]
  exact ⟨rfl, OrderedMap.get?_insert_self ..⟩

/-- **A reservation that fails** leaves the maps of all cores as they were exactly if one of its
entries is refused by the map as it was. If none is, it fails at the first entry that disagrees with
one ahead of it, and declares what stands ahead. A reservation succeeds exactly if its entries agree
with the map and with each other, and then the map has gained the first entry for each new number. -/
theorem reserve_outcome (core : Core) (declarations : List Declaration) (site : Site σ) :
    let regions := declarations.map Declaration.region
    let before := site.loader.mapOf core
    let ran := (reserve core declarations).runOn site
    let after := ran.2.loader.mapOf core
    (ran.2.machine = site.machine ∧
        ∀ other, other ≠ core → ran.2.loader.map? other = site.loader.map? other) ∧
      (ran.1 = .ok () ↔ before.Agrees regions) ∧
      (ran.1 = .ok () → before.Gains after regions) ∧
      (ran.1 ≠ .ok () → (after = before ↔ ∃ region ∈ regions, ¬ before.Accepts region)) ∧
      (ran.1 ≠ .ok () → (∀ region ∈ regions, before.Accepts region) →
        ∃ early clash late, regions = early ++ clash :: late ∧ before.Agrees early ∧
          (∃ first ∈ early, first.id = clash.id ∧ first.size ≠ clash.size) ∧
          before.Gains after early) := by
  intro regions before ran after
  have made : before.reserve regions = (ran.1, after) := (reserve_on_core rfl).1
  refine ⟨⟨rfl, fun other different => Loader.map?_setMap_ne _ _ different⟩, ?_⟩
  obtain ⟨agrees, _, reserved, gains⟩ | ⟨refused, fault, reserved⟩ |
    ⟨accepted, early, clash, late, split, agrees, clashes, fault, _, reserved, gains⟩ :=
      before.reserve_cases regions
  · obtain ⟨answer, rfl⟩ := Prod.mk.inj (reserved.symm.trans made)
    rw [← answer]
    exact ⟨iff_of_true rfl agrees, fun _ => gains, absurd rfl, absurd rfl⟩
  · obtain ⟨answer, same⟩ := Prod.mk.inj (reserved.symm.trans made)
    rw [← answer]
    refine ⟨iff_of_false nofun ?_, nofun, fun _ => iff_of_true same.symm refused, ?_⟩
    · intro agrees
      obtain ⟨region, member, not⟩ := refused
      exact not (agrees.accepted region member)
    · intro _ accepted
      obtain ⟨region, member, not⟩ := refused
      exact absurd (accepted region member) not
  · obtain ⟨answer, rfl⟩ := Prod.mk.inj (reserved.symm.trans made)
    obtain ⟨first, member, named, other⟩ := clashes
    have hasClash : clash ∈ regions := by
      rw [split]
      exact List.mem_append_right _ (List.mem_cons_self ..)
    have hasFirst : first ∈ regions := by
      rw [split]
      exact List.mem_append_left _ member
    rw [← answer]
    refine ⟨iff_of_false nofun ?_, nofun, fun _ => iff_of_false ?_ ?_, fun _ _ => ?_⟩
    · exact fun all => other (all.alike first hasFirst clash hasClash named)
    · exact gains.ne_of_clash agrees (accepted clash hasClash) member named other
    · rintro ⟨region, listed, not⟩
      exact not (accepted region listed)
    · exact ⟨early, clash, late, split, agrees, ⟨first, member, named, other⟩, gains⟩

/-- The first of two sizes for one number stays declared. -/
example :
    let ran := (reserve ⟨⟨0, 0⟩, 1, Chip.hasCore_one⟩ [(1, 8, "first"), (1, 12, "second")]).runOn
      (⟨.empty, ()⟩ : Site Unit)
    ran.1.isOk = false ∧
      (ran.2.loader.mapOf ⟨⟨0, 0⟩, 1, Chip.hasCore_one⟩).region? 1 =
        some ⟨1, 8, "first", false⟩ := by
  decide

end Site

end MeshControl
