import MeshControl.Proofs.Region.Locating
import MeshControl.Proofs.Region.Reserving
import MeshControl.Proofs.Spec.Images

/-!
# What a first load does to memory

A load first finds out what to write (`prepare`), which touches no machine; from there on it
writes the pointer table and the filled images, each to bytes of its own. `load_effect` says
what that leaves in memory, whether the load succeeds or fails.
-/

namespace MeshControl

namespace Locator

variable (addresses : OrderedMap (Core × RegionId) UInt32) (core : Core) (layout : RegionLayout)

/-- Addresses of a layout that was added are found. -/
theorem get?_addLayout {id : RegionId} {address : UInt32}
    (found : layout.addresses.get? id = some address) :
    (addLayout addresses core layout).get? (core, id) = some address := by
  apply OrderedMap.get?_insertAll_of_mem
  · rw [List.map_map]
    have keys := layout.addresses.keys_nodup
    rw [OrderedMap.keys] at keys
    rw [List.Nodup, List.pairwise_map] at keys ⊢
    apply keys.imp
    rintro a b different same
    exact different (Prod.mk.inj same).2
  · exact List.mem_map.2 ⟨(id, address), (layout.addresses.mem_entries_iff id address).2 found, rfl⟩

/-- A layout that was added says nothing about regions it does not have. -/
theorem get?_addLayout_of_none {id : RegionId} (absent : layout.addresses.get? id = none) :
    (addLayout addresses core layout).get? (core, id) = addresses.get? (core, id) := by
  apply OrderedMap.get?_insertAll_of_not_mem
  rw [List.map_map, List.mem_map]
  rintro ⟨⟨other, address⟩, member, same⟩
  have look := (layout.addresses.mem_entries_iff other address).1 member
  rw [(Prod.mk.inj same).2, absent] at look
  cases look

end Locator

@[simp] theorem Loader.mapOf_setMap (loader : Loader) (core : Core) (map : MemoryMap) :
    (loader.setMap core map).mapOf core = map := by
  rw [mapOf, map?, setMap, OrderedMap.get?_insert_self, Option.getD_some]

namespace Site

open Machine

/-! ## Writing images one after the other -/

/-- The report of an image that was written. -/
def reportOf (core : Core) (address : UInt32) (image : Spec.Image) : Written :=
  ⟨core, image.region.id, address, image.data.length⟩

/-- What writing an image does where its address is found. -/
theorem writeImage_effect {core : Core} {image : Spec.Image} {locator : Locator}
    {address : UInt32} {machine : Machine}
    (finds : locator.Finds core image.region.id address machine) :
    let ran := (writeImage core image locator).runOn machine
    Memory.SameOutside core.chip address.toNat (address.toNat + image.data.length)
        machine.memory ran.2.memory ∧
      ∀ written, ran.1 = .ok written →
        written = reportOf core address image ∧ inMemory address image.data.length = true ∧
          ran.2.memory.Holds core.chip address.toNat image.data := by
  obtain ⟨looked, only⟩ := finds
  rw [writeImage, Action.runOn_bind]
  rcases located : (locator.locate core image.region.id).runOn machine with ⟨found, before⟩
  rw [located] at looked only
  dsimp only at looked only
  cases found with
  | error fault =>
    constructor
    · show Memory.SameOutside _ _ _ _ before.memory
      rw [looked]
      apply Memory.SameOutside.refl
    · intro written answered
      cases answered
  | ok place =>
    have same := only place rfl
    subst same
    dsimp only
    rw [Action.runOn_bind]
    have effect := writeBytes_effect core (some image.region.id) place image.data before
    rcases ran : (writeBytes core (some image.region.id) place image.data).runOn before with
      ⟨result, after⟩
    rw [ran, looked] at effect
    obtain ⟨frame, done⟩ := effect
    cases result with
    | error fault =>
      refine ⟨frame, ?_⟩
      intro written answered
      cases answered
    | ok count =>
      obtain ⟨full, inside, holds⟩ := done count rfl
      refine ⟨frame, ?_⟩
      intro written answered
      cases answered
      exact ⟨by rw [full]; rfl, inside, holds⟩

/-- Images at addresses where no two of them overlap. -/
structure Separate (addressOf : Spec.Image → UInt32) (images : List Spec.Image) : Prop where
  apart : images.Pairwise fun a b =>
    (addressOf a).toNat + a.data.length ≤ (addressOf b).toNat ∨
      (addressOf b).toNat + b.data.length ≤ (addressOf a).toNat

/-- Two memories differ at most in the bytes of images at their addresses. -/
def SameOutsideImages (chip : Chip) (addressOf : Spec.Image → UInt32) (images : List Spec.Image)
    (before after : Memory) : Prop :=
  ∀ other place,
    (other = chip → ∀ image ∈ images, place < (addressOf image).toNat ∨
      (addressOf image).toNat + image.data.length ≤ place) →
    after.byteAt other place = before.byteAt other place

/-- Bytes that belong to no image read the same. -/
theorem SameOutsideImages.read {chip : Chip} {addressOf : Spec.Image → UInt32}
    {images : List Spec.Image} {before after : Memory}
    (frame : SameOutsideImages chip addressOf images before after) {address length : Nat}
    (apart : ∀ image ∈ images, address + length ≤ (addressOf image).toNat ∨
      (addressOf image).toNat + image.data.length ≤ address) :
    after.read chip address length = before.read chip address length := by
  apply Memory.read_congr
  intro place low high
  apply frame
  intro _ image member
  have := apart image member
  omega

/-- **Images written one after the other.** Only bytes of the images change; if all of them are
acknowledged, all of them are in memory at the end. -/
theorem writeImages_effect (core : Core) {addresses : OrderedMap (Core × RegionId) UInt32}
    {addressOf : Spec.Image → UInt32} {images : List Spec.Image}
    (found : ∀ image ∈ images, addresses.get? (core, image.region.id) = some (addressOf image))
    (separate : Separate addressOf images) (machine : Machine) :
    let ran := (writeImages core (.known addresses) images).runOn machine
    SameOutsideImages core.chip addressOf images machine.memory ran.2.memory ∧
      ∀ written, ran.1 = .ok written →
        written = images.map (fun image => reportOf core (addressOf image) image) ∧
          ∀ image ∈ images, inMemory (addressOf image) image.data.length = true ∧
            ran.2.memory.Holds core.chip (addressOf image).toNat image.data := by
  induction images generalizing machine with
  | nil =>
    refine ⟨fun chip place outside => rfl, ?_⟩
    intro written answered
    cases answered
    refine ⟨rfl, ?_⟩
    intro image member
    cases member
  | cons image rest ih =>
    obtain ⟨first, others⟩ := List.pairwise_cons.1 separate.apart
    have foundRest : ∀ image ∈ rest,
        addresses.get? (core, image.region.id) = some (addressOf image) :=
      fun image member => found image (List.mem_cons_of_mem _ member)
    rw [writeImages, Action.runOn_bind]
    have effect := writeImage_effect
      (Locator.finds_known (found image (List.mem_cons_self ..)) machine)
    rcases wrote : (writeImage core image (.known addresses)).runOn machine with ⟨result, between⟩
    rw [wrote] at effect
    obtain ⟨frame, done⟩ := effect
    have outsideFirst : SameOutsideImages core.chip addressOf (image :: rest) machine.memory
        between.memory :=
      fun chip place outside => frame chip place fun here =>
        outside here image (List.mem_cons_self ..)
    cases result with
    | error fault =>
      refine ⟨outsideFirst, ?_⟩
      intro written answered
      cases answered
    | ok report =>
      obtain ⟨reported, inside, holds⟩ := done report rfl
      dsimp only
      rw [Action.runOn_bind]
      obtain ⟨frameRest, doneRest⟩ := ih foundRest ⟨others⟩ between
      rcases wroteRest : (writeImages core (.known addresses) rest).runOn between with
        ⟨resultRest, after⟩
      rw [wroteRest] at frameRest doneRest
      have outsideAll : SameOutsideImages core.chip addressOf (image :: rest) machine.memory
          after.memory := by
        intro chip place outside
        have later := frameRest chip place fun here other member =>
          outside here other (List.mem_cons_of_mem _ member)
        exact later.trans (outsideFirst chip place outside)
      cases resultRest with
      | error fault =>
        refine ⟨outsideAll, ?_⟩
        intro written answered
        cases answered
      | ok reports =>
        refine ⟨outsideAll, ?_⟩
        intro written answered
        cases answered
        obtain ⟨reportedRest, holdRest⟩ := doneRest reports rfl
        refine ⟨by rw [reported, reportedRest, List.map_cons], ?_⟩
        intro other member
        rcases List.mem_cons.1 member with rfl | later
        · exact ⟨inside, (frameRest.read first).trans holds⟩
        · exact holdRest other later

/-! ## Before the first write -/

section Prepare

variable {σ α β κ : Type}

/-- Two sites with one machine. -/
def SameMachine (before after : Site σ) : Prop := after.machine = before.machine

instance : Std.Refl (@SameMachine σ) := ⟨fun _ => rfl⟩

instance : IsTrans (Site σ) SameMachine := ⟨fun _ _ _ early late => late.trans early⟩

/-- What a load does ahead of its first write: it makes the images and lays out the core. -/
def prepare (core : Core) (base : UInt32) (generator : Generator κ) (context : κ) :
    Action (Site σ) (Spec.Execution × RegionLayout) := do
  reserve core generator.declarations
  let program ← Action.ofExcept (generator.generate context)
  let execution ← Action.ofExcept program.execute
  reserve core (execution.regions.map Declaration.ofRegion)
  let layout ← Action.ofExcept ((← touch core).layout base)
  return (execution, layout)

/-- The images that a load writes, by number. -/
def filled (execution : Spec.Execution) : List Spec.Image :=
  execution.images.values.filter fun image => !image.region.unfilled

/-- What a load writes once it has made the images and laid out the core. -/
def deliver [Transport σ] (core : Core) (base : UInt32) (execution : Spec.Execution)
    (layout : RegionLayout) : Action (Site σ) (RegionLayout × List Written) := do
  let _ ← onMachine (writeBytes core none base layout.tableBytes)
  let written ← onMachine (writeImages core (.ofLayout core layout) (filled execution))
  return (layout, written)

theorem load_eq [Transport σ] (core : Core) (base : UInt32) (generator : Generator κ)
    (context : κ) :
    (load core base generator context : Action (Site σ) _) =
      prepare core base generator context >>= fun made => deliver core base made.1 made.2 := by
  simp only [load, prepare, writeTable, deliver, filled, bind_assoc, pure_bind]

theorem prepare_steps (core : Core) (base : UInt32) (generator : Generator κ) (context : κ) :
    Action.Steps SameMachine (prepare core base generator context : Action (Site σ) _) := by
  have reserving : ∀ declarations,
      Action.Steps SameMachine (reserve core declarations : Action (Site σ) Unit) :=
    fun _ _ => rfl
  have touching : Action.Steps SameMachine (touch core : Action (Site σ) MemoryMap) :=
    fun _ => rfl
  refine Action.Steps.bind (reserving _) fun _ => ?_
  refine Action.Steps.bind (.ofExcept _) fun program => ?_
  refine Action.Steps.bind (.ofExcept _) fun execution => ?_
  refine Action.Steps.bind (reserving _) fun _ => ?_
  refine Action.Steps.bind touching fun map => ?_
  refine Action.Steps.bind (.ofExcept _) fun layout => ?_
  exact Action.Steps.pure _

/-- A specification was executed, and its regions have places on the core. -/
structure Prepared (core : Core) (base : UInt32) (generator : Generator κ) (context : κ)
    (execution : Spec.Execution) (layout : RegionLayout) (loader : Loader) : Prop where
  executed : ∃ program, generator.generate context = .ok program ∧ program.execute = .ok execution
  laidOut : (loader.mapOf core).layout base = .ok layout
  declared : ∀ region ∈ execution.regions, (loader.mapOf core).Declares region

theorem prepare_prepared {core : Core} {base : UInt32} {generator : Generator κ} {context : κ}
    {site ready : Site σ} {execution : Spec.Execution} {layout : RegionLayout}
    (ran : (prepare core base generator context).runOn site = (.ok (execution, layout), ready)) :
    Prepared core base generator context execution layout ready.loader := by
  obtain ⟨_, first, -, ran⟩ := Action.exists_of_runOn_bind ran
  obtain ⟨program, second, generated, ran⟩ := Action.exists_of_runOn_bind ran
  obtain ⟨executed, third, executing, ran⟩ := Action.exists_of_runOn_bind ran
  obtain ⟨_, fourth, reserving, ran⟩ := Action.exists_of_runOn_bind ran
  obtain ⟨map, fifth, touching, ran⟩ := Action.exists_of_runOn_bind ran
  obtain ⟨placed, sixth, layingOut, ran⟩ := Action.exists_of_runOn_bind ran
  cases ran
  have toGenerate := congrArg Prod.fst generated
  have toExecute := congrArg Prod.fst executing
  have toLayout := congrArg Prod.fst layingOut
  have toReserve := congrArg Prod.fst reserving
  have sameMap : fourth.loader.mapOf core = map := Except.ok.inj (congrArg Prod.fst touching)
  have touchedSite : { fourth with loader := fourth.loader.setMap core (fourth.loader.mapOf core) } =
      ready := (congrArg Prod.snd touching).trans (congrArg Prod.snd layingOut)
  have touched : ready.loader.mapOf core = fourth.loader.mapOf core := by
    rw [← touchedSite]
    exact Loader.mapOf_setMap ..
  have reservedSite : Site.mk (third.loader.setMap core ((third.loader.mapOf core).reserve
      ((execution.regions.map Declaration.ofRegion).map Declaration.region)).2) third.machine =
        fourth :=
    congrArg Prod.snd reserving
  refine ⟨⟨program, toGenerate, toExecute⟩, ?_, ?_⟩
  · rw [touched, sameMap]
    exact toLayout
  · intro region member
    have asked : Declaration.region (Declaration.ofRegion region) ∈
        (execution.regions.map Declaration.ofRegion).map Declaration.region :=
      List.mem_map_of_mem (List.mem_map_of_mem member)
    obtain ⟨declared, found, size⟩ := MemoryMap.reserve_declares toReserve _ asked
    rw [touched, ← reservedSite, Loader.mapOf_setMap]
    exact ⟨declared, found, size⟩

/-- Every reserved region has a place of its own size behind the table. -/
theorem Prepared.place {core : Core} {base : UInt32} {generator : Generator κ} {context : κ}
    {execution : Spec.Execution} {layout : RegionLayout} {loader : Loader}
    (prepared : Prepared core base generator context execution layout loader) {id : RegionId}
    {image : Spec.Image} (found : execution.image? id = some image) :
    ∃ region address, (loader.mapOf core).region? id = some region ∧
      region.size = image.region.size ∧ layout.addresses.get? id = some address ∧
      base.toNat + PointerTable.size ≤ address.toNat ∧
      address.toNat + image.region.size.toNat ≤ base.toNat + layout.totalBytes.toNat := by
  obtain ⟨program, -, executed⟩ := prepared.executed
  have fits := Spec.Program.execute_fits executed
  have listed : image.region ∈ execution.regions :=
    List.mem_map_of_mem ((execution.images.mem_values_iff image).2 ⟨id, found⟩)
  obtain ⟨region, declared, size⟩ := prepared.declared image.region listed
  rw [fits.filed found] at declared
  obtain ⟨address, look, low, high⟩ :=
    (MemoryMap.layout_laysOut prepared.laidOut).inside declared
  exact ⟨region, address, declared, size, look, low, size ▸ high⟩

end Prepare

/-- The address of an image in a layout. -/
def addressIn (layout : RegionLayout) (image : Spec.Image) : UInt32 :=
  (layout.addresses.get? image.region.id).getD 0

theorem mem_filled {execution : Spec.Execution} {image : Spec.Image} :
    image ∈ filled execution ↔
      (∃ id, execution.image? id = some image) ∧ image.region.unfilled = false := by
  rw [filled, List.mem_filter, OrderedMap.mem_values_iff, Bool.not_eq_true']
  rfl

section Deliver

variable {κ : Type} {core : Core} {base : UInt32} {generator : Generator κ} {context : κ}
  {execution : Spec.Execution} {layout : RegionLayout} {loader : Loader}

/-- A filled image has a place with room for its bytes. -/
theorem Prepared.filled_place (prepared : Prepared core base generator context execution layout
    loader) {image : Spec.Image} (member : image ∈ filled execution) :
    layout.addresses.get? image.region.id = some (addressIn layout image) ∧
      base.toNat + PointerTable.size ≤ (addressIn layout image).toNat ∧
      (addressIn layout image).toNat + image.data.length ≤
        base.toNat + layout.totalBytes.toNat := by
  obtain ⟨program, -, executed⟩ := prepared.executed
  have fits := Spec.Program.execute_fits executed
  obtain ⟨⟨id, found⟩, -⟩ := mem_filled.1 member
  obtain ⟨region, address, -, -, look, low, high⟩ := prepared.place found
  have room := fits.room found
  have same : addressIn layout image = address := by
    rw [addressIn, fits.filed found, look, Option.getD_some]
  rw [same, fits.filed found]
  exact ⟨look, low, by omega⟩

/-- Two reserved regions share no byte. -/
theorem Prepared.apart (prepared : Prepared core base generator context execution layout loader)
    {id other : RegionId} {image neighbour : Spec.Image} {address place : UInt32}
    (different : id ≠ other) (found : execution.image? id = some image)
    (foundOther : execution.image? other = some neighbour)
    (look : layout.addresses.get? id = some address)
    (lookOther : layout.addresses.get? other = some place) :
    address.toNat + image.region.size.toNat ≤ place.toNat ∨
      place.toNat + neighbour.region.size.toNat ≤ address.toNat := by
  obtain ⟨region, _, declared, size, -⟩ := prepared.place found
  obtain ⟨regionOther, _, declaredOther, sizeOther, -⟩ := prepared.place foundOther
  rw [← size, ← sizeOther]
  exact (MemoryMap.layout_laysOut prepared.laidOut).apart different declared declaredOther look
    lookOther

theorem Prepared.separate (prepared : Prepared core base generator context execution layout
    loader) : Separate (addressIn layout) (filled execution) := by
  obtain ⟨program, -, executed⟩ := prepared.executed
  have fits := Spec.Program.execute_fits executed
  have numbered : (filled execution).Pairwise fun a b => a.region.id ≠ b.region.id := by
    apply List.Pairwise.filter
    rw [OrderedMap.values, List.pairwise_map]
    apply execution.images.ascending.imp_of_mem
    rintro ⟨id, image⟩ ⟨other, neighbour⟩ member memberOther before same
    have filed := fits.filed ((execution.images.mem_entries_iff id image).1 member)
    have filedOther := fits.filed ((execution.images.mem_entries_iff other neighbour).1 memberOther)
    exact SortKey.ne before (filed.symm.trans (same.trans filedOther))
  constructor
  apply numbered.imp_of_mem
  intro image neighbour member memberOther different
  obtain ⟨⟨id, found⟩, -⟩ := mem_filled.1 member
  obtain ⟨⟨other, foundOther⟩, -⟩ := mem_filled.1 memberOther
  obtain ⟨look, -⟩ := prepared.filled_place member
  obtain ⟨lookOther, -⟩ := prepared.filled_place memberOther
  have room := fits.room found
  have roomOther := fits.room foundOther
  have named := fits.filed found
  have namedOther := fits.filed foundOther
  rw [named] at look different
  rw [namedOther] at lookOther different
  have := prepared.apart different found foundOther look lookOther
  omega

/-- What a load that succeeds leaves on a machine. -/
structure Loaded (core : Core) (base : UInt32) (execution : Spec.Execution)
    (layout : RegionLayout) (before after : Machine) : Prop where
  /-- Every filled region reads as its image. -/
  images : ∀ {id image}, execution.image? id = some image → image.region.unfilled = false →
    ∃ address, layout.addresses.get? id = some address ∧
      ((Transport.read core.chip address image.data.length).runOn after).1 = .ok image.data
  /-- The pointer table is there. -/
  table : ((Transport.read core.chip base PointerTable.size).runOn after).1 =
    .ok layout.tableBytes
  /-- Regions that are not filled are as they were. -/
  unfilled : ∀ {id image}, execution.image? id = some image → image.region.unfilled = true →
    ∃ address, layout.addresses.get? id = some address ∧
      after.memory.read core.chip address.toNat image.region.size.toNat =
        before.memory.read core.chip address.toNat image.region.size.toNat

/-- The writes of a load keep out of each other's way. -/
theorem Prepared.loaded
    (prepared : Prepared core base generator context execution layout loader)
    {before between after : Machine}
    (tableFrame : Memory.SameOutside core.chip base.toNat (base.toNat + PointerTable.size)
      before.memory between.memory)
    (tableAnswers : inMemory base PointerTable.size = true)
    (tableHolds : between.memory.Holds core.chip base.toNat layout.tableBytes)
    (imagesFrame : SameOutsideImages core.chip (addressIn layout) (filled execution)
      between.memory after.memory)
    (imagesHold : ∀ image ∈ filled execution,
      inMemory (addressIn layout image) image.data.length = true ∧
        after.memory.Holds core.chip (addressIn layout image).toNat image.data) :
    Loaded core base execution layout before after := by
  obtain ⟨program, -, executed⟩ := prepared.executed
  have fits := Spec.Program.execute_fits executed
  have tableSize := layout.length_tableBytes
  constructor
  · intro id image found fills
    have member : image ∈ filled execution := mem_filled.2 ⟨⟨id, found⟩, fills⟩
    obtain ⟨answers, holding⟩ := imagesHold image member
    have look := (prepared.filled_place member).1
    rw [fits.filed found] at look
    exact ⟨_, look, read_of_holds answers holding⟩
  · have same : after.memory.read core.chip base.toNat layout.tableBytes.length =
        between.memory.read core.chip base.toNat layout.tableBytes.length := by
      apply imagesFrame.read
      intro image member
      have := (prepared.filled_place member).2
      omega
    rw [← tableSize] at tableAnswers ⊢
    exact read_of_holds tableAnswers (same.trans tableHolds)
  · intro id image found leaves
    obtain ⟨region, address, -, -, look, low, high⟩ := prepared.place found
    have untouched : after.memory.read core.chip address.toNat image.region.size.toNat =
        between.memory.read core.chip address.toNat image.region.size.toNat := by
      apply imagesFrame.read
      intro other member
      obtain ⟨⟨otherId, foundOther⟩, fills⟩ := mem_filled.1 member
      have lookOther := (prepared.filled_place member).1
      rw [fits.filed foundOther] at lookOther
      have different : id ≠ otherId := by
        rintro rfl
        rw [found] at foundOther
        cases foundOther
        rw [leaves] at fills
        cases fills
      have room := fits.room foundOther
      have := prepared.apart different found foundOther look lookOther
      omega
    exact ⟨address, look, untouched.trans (tableFrame.read (.inr low))⟩

/-- What the writes of a load do. -/
theorem deliver_effect (prepared : Prepared core base generator context execution layout loader)
    (site : Site Machine) :
    let ran := (deliver core base execution layout).runOn site
    ran.2.loader = site.loader ∧
      Memory.SameOutside core.chip base.toNat (base.toNat + layout.totalBytes.toNat)
        site.machine.memory ran.2.machine.memory ∧
      ∀ answer, ran.1 = .ok answer →
        answer = (layout,
          (filled execution).map fun image => reportOf core (addressIn layout image) image) ∧
        Loaded core base execution layout site.machine ran.2.machine := by
  have tiles := MemoryMap.layout_laysOut prepared.laidOut
  rw [deliver, Action.runOn_bind, Action.runOn_onMachine]
  have tableEffect := writeBytes_effect core none base layout.tableBytes site.machine
  rcases wroteTable : (writeBytes core none base layout.tableBytes).runOn site.machine with
    ⟨tableResult, between⟩
  rw [wroteTable, layout.length_tableBytes] at tableEffect
  obtain ⟨tableFrame, tableDone⟩ := tableEffect
  have tableInside := tableFrame.mono (Nat.le_refl _)
    (show base.toNat + PointerTable.size ≤ base.toNat + layout.totalBytes.toNat by
      have := tiles.table
      omega)
  cases tableResult with
  | error fault =>
    refine ⟨rfl, tableInside, ?_⟩
    intro answer answered
    cases answered
  | ok count =>
    obtain ⟨-, tableAnswers, tableHolds⟩ := tableDone count rfl
    have imagesEffect := writeImages_effect core
      (fun image member => Locator.get?_addLayout .empty core layout (prepared.filled_place member).1)
      prepared.separate between
    dsimp only
    rw [Action.runOn_bind, Action.runOn_onMachine]
    rcases wroteImages : (writeImages core (.ofLayout core layout) (filled execution)).runOn
      between with ⟨imagesResult, after⟩
    rw [Locator.ofLayout] at wroteImages
    rw [wroteImages] at imagesEffect
    obtain ⟨imagesFrame, imagesDone⟩ := imagesEffect
    have inside : Memory.SameOutside core.chip base.toNat
        (base.toNat + layout.totalBytes.toNat) site.machine.memory after.memory := by
      refine tableInside.trans ?_
      intro chip place outside
      apply imagesFrame
      intro here image member
      have := outside here
      have := (prepared.filled_place member).2
      omega
    cases imagesResult with
    | error fault =>
      refine ⟨rfl, inside, ?_⟩
      intro answer answered
      cases answered
    | ok reports =>
      obtain ⟨reported, imagesHold⟩ := imagesDone reports rfl
      refine ⟨rfl, inside, ?_⟩
      intro answer answered
      cases answered
      exact ⟨by rw [reported],
        prepared.loaded tableFrame tableAnswers tableHolds imagesFrame imagesHold⟩

/-- A load that succeeded has made its images, laid out the core and filled the regions. -/
theorem prepared_loaded_of_load {written : List Written} {site loaded : Site Machine}
    (ran : (load core base generator context).runOn site = (.ok (layout, written), loaded)) :
    ∃ execution, Prepared core base generator context execution layout loaded.loader ∧
      Loaded core base execution layout site.machine loaded.machine := by
  have kept := prepare_steps core base generator context site
  rw [load_eq] at ran
  obtain ⟨⟨execution, made⟩, ready, preparing, delivering⟩ := Action.exists_of_runOn_bind ran
  rw [preparing] at kept
  change ready.machine = site.machine at kept
  have prepared := prepare_prepared preparing
  obtain ⟨sameLoader, -, done⟩ := deliver_effect prepared ready
  rw [delivering] at sameLoader done
  obtain ⟨answered, loaded⟩ := done _ rfl
  have same : layout = made := (Prod.mk.inj answered).1
  subst same
  dsimp only at sameLoader loaded
  rw [kept] at loaded
  rw [← sameLoader] at prepared
  exact ⟨execution, prepared, loaded⟩

/-- A load that has a layout has done all its writes. -/
theorem exists_written_of_layout {ran : Except Fault (RegionLayout × List Written) × Site Machine}
    (answered : ran.1.toOption.map Prod.fst = some layout) :
    ∃ written, ran = (.ok (layout, written), ran.2) := by
  obtain ⟨result, after⟩ := ran
  cases result with
  | error fault => cases answered
  | ok answer =>
    obtain ⟨_, written⟩ := answer
    cases answered
    exact ⟨written, rfl⟩

/-- What a load that succeeded has not written: every byte outside the table and the filled
images. -/
theorem load_untouched {written : List Written} {site loaded : Site Machine}
    (ran : (load core base generator context).runOn site = (.ok (layout, written), loaded)) :
    ∃ execution, Prepared core base generator context execution layout loaded.loader ∧
      ∀ place, (place < base.toNat ∨ base.toNat + PointerTable.size ≤ place) →
        (∀ image ∈ filled execution, place < (addressIn layout image).toNat ∨
          (addressIn layout image).toNat + image.data.length ≤ place) →
        loaded.machine.memory.byteAt core.chip place =
          site.machine.memory.byteAt core.chip place := by
  have kept := prepare_steps core base generator context site
  rw [load_eq] at ran
  obtain ⟨⟨execution, made⟩, ready, preparing, delivering⟩ := Action.exists_of_runOn_bind ran
  rw [preparing] at kept
  change ready.machine = site.machine at kept
  have prepared := prepare_prepared preparing
  obtain ⟨sameLoader, -, done⟩ := deliver_effect prepared ready
  rw [delivering] at sameLoader done
  have same : layout = made := (Prod.mk.inj (done _ rfl).1).1
  subst same
  obtain ⟨count, wrote, writingTable, delivering⟩ := Action.exists_of_runOn_bind delivering
  obtain ⟨reports, finished, writingImages, delivering⟩ := Action.exists_of_runOn_bind delivering
  cases delivering
  have tableFrame := (writeBytes_effect core none base layout.tableBytes ready.machine).1
  have imagesFrame := (writeImages_effect core
    (fun image member => Locator.get?_addLayout .empty core layout (prepared.filled_place member).1)
    prepared.separate wrote.machine).1
  have afterTable : ((writeBytes core none base layout.tableBytes).runOn ready.machine).2 =
      wrote.machine := congrArg (Site.machine ∘ Prod.snd) writingTable
  have afterImages : ((writeImages core (.known (Locator.addLayout .empty core layout))
      (filled execution)).runOn wrote.machine).2 = loaded.machine :=
    congrArg (Site.machine ∘ Prod.snd) writingImages
  rw [afterTable, layout.length_tableBytes, kept] at tableFrame
  rw [afterImages] at imagesFrame
  refine ⟨execution, ?_, ?_⟩
  · change loaded.loader = ready.loader at sameLoader
    rw [sameLoader]
    exact prepared
  · intro place outsideTable outsideImages
    exact (imagesFrame core.chip place fun _ => outsideImages).trans
      (tableFrame core.chip place fun _ => outsideTable)

/-- **What a first load does to memory.** A load that fails before it has a layout leaves the
machine as it was. Once it has one, it changes no byte outside the layout, however it ends; and
if it succeeds, the table and every filled region read back, the regions that are not filled are
as they were, and the report lists the filled regions by number. -/
theorem load_effect (core : Core) (base : UInt32) (generator : Generator κ) (context : κ)
    (site : Site Machine) :
    match (prepare core base generator context).runOn site with
    | (.error fault, failed) =>
      (load core base generator context).runOn site = (.error fault, failed) ∧
        failed.machine = site.machine
    | (.ok (execution, layout), _) =>
      ∃ result after, (load core base generator context).runOn site = (result, after) ∧
        Prepared core base generator context execution layout after.loader ∧
        Memory.SameOutside core.chip base.toNat (base.toNat + layout.totalBytes.toNat)
          site.machine.memory after.machine.memory ∧
        ∀ answer, result = .ok answer →
          answer = (layout,
            (filled execution).map fun image => reportOf core (addressIn layout image) image) ∧
          Loaded core base execution layout site.machine after.machine := by
  have kept := prepare_steps core base generator context site
  rw [load_eq, Action.runOn_bind]
  rcases ran : (prepare core base generator context).runOn site with ⟨result, ready⟩
  rw [ran] at kept
  change ready.machine = site.machine at kept
  cases result with
  | error fault => exact ⟨rfl, kept⟩
  | ok made =>
    obtain ⟨execution, layout⟩ := made
    have prepared := prepare_prepared ran
    have effect := deliver_effect prepared ready
    rcases delivered : (deliver core base execution layout).runOn ready with ⟨result, after⟩
    rw [delivered] at effect
    obtain ⟨sameLoader, frame, done⟩ := effect
    dsimp only at sameLoader frame done
    rw [kept] at frame done
    refine ⟨result, after, delivered, ?_, frame, done⟩
    rw [sameLoader]
    exact prepared

end Deliver

end Site

end MeshControl
