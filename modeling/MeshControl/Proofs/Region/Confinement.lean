import MeshControl.Proofs.Region.Generation
import MeshControl.Proofs.Watching

/-!
# What a specification may write

A specification that is executed for a region writes there and nowhere else, whatever it says and
however the write ends. Its image is no larger than the size it reserves, that size must be the
declared one, and the declared one cannot have changed since the regions were laid out
(`execute_confined`).
-/

namespace MeshControl

/-- A locator of one layout finds on the core what the layout holds, and nothing else. -/
theorem Locator.get?_addLayout_eq (core : Core) (layout : RegionLayout) (id : RegionId) :
    (addLayout .empty core layout).get? (core, id) = layout.addresses.get? id := by
  cases found : layout.addresses.get? id with
  | some address => exact get?_addLayout .empty core layout found
  | none => exact get?_addLayout_of_none .empty core layout found

namespace Site

/-- An image that may be written for a region is the one the specification makes, and has the
declared size. -/
theorem imageFor_eq_ok {core : Core} {region : RegionId} {reserved : UInt32}
    {program : Spec.Program} {image : Spec.Image}
    (ok : imageFor core region reserved program = .ok image) :
    ∃ execution, program.execute = .ok execution ∧ execution.image? region = some image ∧
      image.region.size = reserved := by
  obtain ⟨execution, executed, ok⟩ := exists_of_bind_eq_ok ok
  refine ⟨execution, executed, ?_⟩
  cases found : execution.image? region with
  | none =>
    rw [found] at ok
    cases ok
  | some made =>
    rw [found] at ok
    dsimp only at ok
    by_cases same : made.region.size = reserved
    · rw [if_pos same] at ok
      cases ok
      exact ⟨rfl, same⟩
    · rw [if_neg same] at ok
      cases ok

/-- How a layout came to be written: the core's map was laid out, which leaves the map as it is,
and the bytes of the table were acknowledged. -/
theorem exists_of_writeTable {σ : Type} [Transport σ] {core : Core} {base : UInt32}
    {layout : RegionLayout} {before opened : Site σ}
    (ran : (writeTable core base).runOn before = (.ok layout, opened)) :
    (before.loader.mapOf core).layout base = .ok layout ∧
      opened.loader.mapOf core = before.loader.mapOf core ∧
      ∃ count, (writeBytes core none base layout.tableBytes).runOn before.machine =
        (.ok count, opened.machine) := by
  obtain ⟨map, touched, touching, ran⟩ := Action.exists_of_runOn_bind ran
  obtain ⟨placed, laid, layingOut, ran⟩ := Action.exists_of_runOn_bind ran
  obtain ⟨count, wrote, writing, ran⟩ := Action.exists_of_runOn_bind ran
  cases ran
  have sameMap : before.loader.mapOf core = map := Except.ok.inj (congrArg Prod.fst touching)
  have atTouch := congrArg Prod.snd touching
  have atLayout : touched = laid := congrArg Prod.snd layingOut
  have toLayout : map.layout base = .ok layout := congrArg Prod.fst layingOut
  subst atLayout
  subst atTouch
  refine ⟨sameMap ▸ toLayout, ?_, count, ?_⟩
  · have kept : before.loader.setMap core (before.loader.mapOf core) = opened.loader :=
      congrArg (Site.loader ∘ Prod.snd) writing
    rw [← kept, Loader.mapOf_setMap]
  · have answered := congrArg Prod.fst writing
    have moved := congrArg (Site.machine ∘ Prod.snd) writing
    exact Prod.ext answered moved

/-- A layout that was written is the layout of the core's map. -/
theorem layout_of_writeTable {σ : Type} [Transport σ] {core : Core} {base : UInt32}
    {layout : RegionLayout} {before opened : Site σ}
    (ran : (writeTable core base).runOn before = (.ok layout, opened)) :
    (opened.loader.mapOf core).layout base = .ok layout := by
  obtain ⟨laidOut, same, -⟩ := exists_of_writeTable ran
  rw [same]
  exact laidOut

section Execute

variable {σ : Type} [Transport σ] {core : Core} {region : RegionId} {program : Spec.Program}
  {addresses : OrderedMap (Core × RegionId) UInt32}

/-- Watching a site changes nothing. -/
theorem execute_mirrors (core : Core) (region : RegionId) (program : Spec.Program)
    (locator : Locator) : Action.Mirrors (@Watched.site σ) (execute core region program locator)
      (execute core region program locator) := by
  intro site
  have same : (Watched.site site).loader = site.loader := rfl
  rw [runOn_execute, runOn_execute, same]
  cases (site.loader.map? core).bind (·.region? region) with
  | none => rfl
  | some reserved =>
    dsimp only
    cases imageFor core region reserved.size program with
    | error fault => rfl
    | ok image => exact (Action.Mirrors.writeImage core image locator).onMachine site

/-- An image whose address is not known is not written. -/
theorem runOn_writeImage_unknown {core : Core} {image : Spec.Image}
    (absent : addresses.get? (core, image.region.id) = none) (state : σ) :
    (writeImage core image (.known addresses)).runOn state =
      (.error (Locator.notReserved core image.region.id), state) := by
  rw [writeImage, Action.runOn_bind, Locator.locate, absent]
  rfl

/-- With addresses known ahead of time, an image is at most one write, to its own address. -/
theorem runOn_writeImage_known (core : Core) (image : Spec.Image)
    (addresses : OrderedMap (Core × RegionId) UInt32) (state : Watched σ) :
    let ran := (writeImage core image (.known addresses)).runOn state
    ran.2.writes = state.writes ∨ ∃ address answer,
      addresses.get? (core, image.region.id) = some address ∧
        ran.2.writes = state.writes ++ [⟨core.chip, address, image.data, answer⟩] := by
  intro ran
  obtain ⟨-, none⟩ | ⟨address, answer, located, sent, -⟩ :=
    Watched.runOn_writeImage core image (.known addresses) state
  · exact .inl none
  · rw [Locator.locate] at located
    cases found : addresses.get? (core, image.region.id) with
    | none =>
      rw [found] at located
      cases located
    | some known =>
      rw [found] at located
      cases located
      exact .inr ⟨address, answer, rfl, sent⟩

/-- An execution comes to a write only for a region that is declared, and for an image of the
declared size. Until then it does nothing. -/
theorem execute_cases (core : Core) (region : RegionId) (program : Spec.Program)
    (locator : Locator) (site : Site σ) :
    ((execute core region program locator).runOn site).2 = site ∨
      ∃ declared execution image, (site.loader.mapOf core).region? region = some declared ∧
        program.execute = .ok execution ∧ execution.image? region = some image ∧
        image.region.id = region ∧ image.region.size = declared.size ∧
        image.data.length ≤ declared.size.toNat ∧
        (execute core region program locator).runOn site =
          (onMachine (writeImage core image locator)).runOn site := by
  rw [runOn_execute, Loader.region?_mapOf]
  cases declares : (site.loader.map? core).bind (·.region? region) with
  | none => exact .inl rfl
  | some declared =>
    dsimp only
    cases made : imageFor core region declared.size program with
    | error fault => exact .inl rfl
    | ok image =>
      obtain ⟨execution, executed, found, size⟩ := imageFor_eq_ok made
      have fits := Spec.Program.execute_fits executed
      have room := fits.room found
      rw [size] at room
      exact .inr ⟨declared, execution, image, rfl, executed, found, fits.filed found, size, room, rfl⟩

end Execute

section Confined

variable {core : Core} {base : UInt32} {layout : RegionLayout} {before opened site : Site Machine}
  {addresses : OrderedMap (Core × RegionId) UInt32}

/-- What is declared now where the layout has an address was declared, with the same size, when
the regions were laid out. -/
theorem declared_of_layout (opens : (writeTable core base).runOn before = (.ok layout, opened))
    (history : WithinGeneration core opened site) {id : RegionId} {address : UInt32}
    {declared : Region} (found : layout.addresses.get? id = some address)
    (now : (site.loader.mapOf core).region? id = some declared) :
    (opened.loader.mapOf core).region? id = some declared := by
  obtain ⟨region, then_⟩ := MemoryMap.layout_declared (layout_of_writeTable opens) found
  rw [history.kept.1 then_] at now
  rw [then_, now]

/-- **A specification stays within its region.** On a core whose regions were laid out, with
their addresses known ahead of time and after any history of the same generation, executing a
specification for a region changes no byte but those the region had then, however the execution
ends. It sends at most one write, and none unless the region is reserved, the specification
executes, and it reserves the region with exactly the declared size. All the while declarations
last, and those of other cores are not touched. -/
theorem execute_confined (opens : (writeTable core base).runOn before = (.ok layout, opened))
    (history : WithinGeneration core opened site)
    (holding : ∀ id, addresses.get? (core, id) = layout.addresses.get? id) (region : RegionId)
    (program : Spec.Program) :
    let ran := (execute core region program (.known addresses)).runOn site
    let seen := (execute core region program (.known addresses)).runOn
      (⟨site.loader, .start site.machine⟩ : Site (Watched Machine))
    (∀ chip place,
      ran.2.machine.memory.byteAt chip place ≠ site.machine.memory.byteAt chip place →
        chip = core.chip ∧ ∃ declared address,
          (opened.loader.mapOf core).region? region = some declared ∧
          layout.addresses.get? region = some address ∧
          address.toNat ≤ place ∧ place < address.toNat + declared.size.toNat) ∧
      (ran = (seen.1, Watched.site seen.2) ∧ (seen.2.machine.writes = [] ∨
        ∃ declared execution image address answer,
          (site.loader.mapOf core).region? region = some declared ∧
          program.execute = .ok execution ∧ execution.image? region = some image ∧
          image.region.size = declared.size ∧ layout.addresses.get? region = some address ∧
          seen.2.machine.writes = [⟨core.chip, address, image.data, answer⟩])) ∧
      (∀ {owner : Core} {first second : Site Machine}, WithinGeneration owner first second →
        ∀ id declared, (first.loader.mapOf owner).region? id = some declared →
          (second.loader.mapOf owner).region? id = some declared) ∧
      ∀ {actor other : Core} {first second : Site Machine}, Acts actor first second →
        other ≠ actor → second.loader.map? other = first.loader.map? other := by
  intro ran seen
  refine ⟨?_, ⟨?_, ?_⟩, fun history id declared found => history.kept.1 found,
    fun acts different => acts.grown.others _ different⟩
  · intro chip place changed
    obtain same | ⟨declared, execution, image, now, -, -, named, -, room, wrote⟩ :=
      execute_cases core region program (.known addresses) site
    · exact absurd (congrArg (fun site => site.machine.memory.byteAt chip place) same) changed
    have written : ran.2.machine.memory =
        ((writeImage core image (.known addresses)).runOn site.machine).2.memory :=
      congrArg (fun ran => ran.2.machine.memory) wrote
    rw [written] at changed
    cases found : addresses.get? (core, image.region.id) with
    | none =>
      rw [runOn_writeImage_unknown found] at changed
      exact absurd rfl changed
    | some address =>
      have frame := (writeImage_effect (Locator.finds_known found site.machine)).1
      rw [named, holding] at found
      refine ⟨?_, declared, address, declared_of_layout opens history found now, found, ?_⟩
      · by_contra elsewhere
        exact changed (frame chip place fun here => absurd here elsewhere)
      · by_contra outside
        exact changed (frame chip place fun _ => by omega)
  · exact execute_mirrors core region program (.known addresses) ⟨site.loader, .start site.machine⟩
  · obtain same | ⟨declared, execution, image, now, executed, made, named, size, -, wrote⟩ :=
      execute_cases core region program (.known addresses)
        (⟨site.loader, .start site.machine⟩ : Site (Watched Machine))
    · left
      exact congrArg (fun site => site.machine.writes) same
    · have written : seen.2.machine.writes =
          ((writeImage core image (.known addresses)).runOn (Watched.start site.machine)).2.writes :=
        congrArg (fun ran => ran.2.machine.writes) wrote
      obtain none | ⟨address, answer, found, sent⟩ :=
        runOn_writeImage_known core image addresses (.start site.machine)
      · exact .inl (written.trans none)
      · rw [named, holding] at found
        exact .inr ⟨declared, execution, image, address, answer, now, executed, made, size, found,
          written.trans sent⟩

end Confined

namespace Sample

/-- A core with two regions. -/
def core : Core := ⟨⟨0, 0⟩, 1, Chip.hasCore_one⟩

/-- The regions are declared. -/
def declared : Site Machine :=
  ((reserve core [(1, 8, "schedule"), (2, 4, "state")]).runOn ⟨.empty, .start⟩).2

/-- They are laid out. -/
def opened : Site Machine := ((writeTable core Machine.memoryBase).runOn declared).2

/-- Where the layout puts them. -/
def layout : RegionLayout :=
  ⟨Machine.memoryBase, .ofList [(1, 0x60000048), (2, 0x60000050)], 84⟩

/-- A third region was asked for since, and half of the next write is going to be lost. -/
def shortened : Site Machine :=
  let later := ((reserve core [(3, 4, "late")]).runOn opened).2
  { later with machine := later.machine.shorten core.chip 0x60000048 }

/-- A specification that fills the first region. -/
def program : Spec.Program :=
  .ofBytes (Bytes.ofWords (Spec.Command.encode (.reserve 1 8 false) ++
    Spec.Command.encode (.focus 1) ++ Spec.Command.encode (.writeArray [1, 2]) ++
    [Spec.commandWord Spec.Opcode.endSpec.code 0 0]))

theorem opens : (writeTable core Machine.memoryBase).runOn declared = (.ok layout, opened) := by
  have answered : ((writeTable core Machine.memoryBase).runOn declared).1 = .ok layout := by
    decide +kernel
  exact Prod.ext answered rfl

theorem history : WithinGeneration core opened shortened := by
  have asked : Acts core opened _ := .reserve [(3, 4, "late")] opened
  exact .machine (.acts .start asked) _

end Sample

/-- A write of which half is lost. -/
theorem execute_confined_shortened :
    (writeTable Sample.core Machine.memoryBase).runOn Sample.declared =
        (.ok Sample.layout, Sample.opened) ∧
      WithinGeneration Sample.core Sample.opened Sample.shortened ∧
      ∃ addresses, (∀ id, addresses.get? (Sample.core, id) = Sample.layout.addresses.get? id) ∧
        let ran := (execute Sample.core 1 Sample.program (.known addresses)).runOn Sample.shortened
        ran.1.isOk = false ∧
          ran.2.machine.memory.read Sample.core.chip 0x60000048 8 = [1, 0, 0, 0, 0, 0, 0, 0] ∧
          ∀ chip place, ran.2.machine.memory.byteAt chip place ≠
              Sample.shortened.machine.memory.byteAt chip place →
            chip = Sample.core.chip ∧ ∃ declared address,
              (Sample.opened.loader.mapOf Sample.core).region? 1 = some declared ∧
              Sample.layout.addresses.get? 1 = some address ∧
              address.toNat ≤ place ∧ place < address.toNat + declared.size.toNat := by
  refine ⟨Sample.opens, Sample.history, _, Locator.get?_addLayout_eq _ _, ?_, ?_, ?_⟩
  · decide +kernel
  · decide +kernel
  · exact (execute_confined Sample.opens Sample.history (Locator.get?_addLayout_eq _ _) 1
      Sample.program).1

end Site

end MeshControl
