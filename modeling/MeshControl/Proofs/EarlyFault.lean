import MeshControl.Proofs.Region.Confinement
import MeshControl.TagLoading

/-!
# Configuration faults come first

A request that fails because of what was asked has changed nothing: by then it has at most read.
For this an action is cut in two. Up to some point it only looks at things (`Action.Steps`), and
from there on its faults are never about what was asked (`Action.FailsLate`), so a fault that is
must be from before (`Action.FailsEarly`). The second part of a first load looks up the addresses of
its images again, in the layout that has just been written; all of them are there, since the images
were declared ahead of the layout (`failsLate_deliver`).

Main statement: `configuration_fault_first`.
-/

namespace MeshControl

namespace Action

variable {σ α β : Type}

/-- If the action fails because of what was asked, the state after it is related to the one it was
run on. -/
def FailsEarly (R : σ → σ → Prop) (action : Action σ α) : Prop :=
  ∀ state fault, (action.runOn state).1 = .error fault → fault.isConfiguration = true →
    R state (action.runOn state).2

/-- The action does not fail because of what was asked. -/
def FailsLate (action : Action σ α) : Prop :=
  ∀ state fault, (action.runOn state).1 = .error fault → fault.isConfiguration = false

theorem FailsLate.pure (answer : α) : FailsLate (Pure.pure answer : Action σ α) := by
  intro state fault failed
  cases failed

theorem FailsLate.throw {fault : Fault} (late : fault.isConfiguration = false) :
    FailsLate (MonadExcept.throw fault : Action σ α) := by
  intro state other failed
  cases failed
  exact late

theorem FailsLate.bind {action : Action σ α} {next : α → Action σ β} (first : FailsLate action)
    (later : ∀ answer, FailsLate (next answer)) : FailsLate (action >>= next) := by
  intro state fault failed
  have early := first state
  rw [runOn_bind] at failed
  rcases ran : action.runOn state with ⟨result, reached⟩
  rw [ran] at failed early
  cases result with
  | error other =>
    cases failed
    exact early _ rfl
  | ok answer => exact later answer reached fault failed

theorem FailsLate.mapFault {change : Fault → Fault}
    (late : ∀ fault, (change fault).isConfiguration = false) (action : Action σ α) :
    FailsLate (action.mapFault change) := by
  intro state fault failed
  rcases ran : action.runOn state with ⟨result, reached⟩
  cases result with
  | ok answer =>
    rw [runOn_mapFault_of_ok ran] at failed
    cases failed
  | error other =>
    rw [runOn_mapFault_of_error ran] at failed
    cases failed
    exact late other

theorem FailsLate.forM {γ : Type} {body : γ → Action σ Unit}
    (each : ∀ element, FailsLate (body element)) (list : List γ) :
    FailsLate (list.forM body) := by
  induction list with
  | nil => exact .pure ()
  | cons element list ih => exact (each element).bind fun _ => ih

theorem FailsLate.onMachine {action : Action σ α} (late : FailsLate action) :
    FailsLate (Site.onMachine action) :=
  fun site fault failed => late site.machine fault failed

section Early

variable {R : σ → σ → Prop}

theorem FailsLate.failsEarly {action : Action σ α} (late : FailsLate action) :
    FailsEarly R action := by
  intro state fault failed early
  rw [late state fault failed] at early
  cases early

/-- What follows steps has to be looked at only where they can lead to. -/
theorem Steps.bind_failsEarly [IsTrans σ R] {action : Action σ α} {next : α → Action σ β}
    (first : Steps R action)
    (later : ∀ {before answer reached}, action.runOn before = (.ok answer, reached) →
      FailsEarly R (next answer)) : FailsEarly R (action >>= next) := by
  intro state fault failed early
  have step := first state
  rw [runOn_bind] at failed ⊢
  rcases ran : action.runOn state with ⟨result, reached⟩
  rw [ran] at failed step
  cases result with
  | error other => exact step
  | ok answer => exact IsTrans.trans _ _ _ step (later ran reached fault failed early)

/-- What is done to an answer does not matter. -/
theorem FailsEarly.bind_pure {action : Action σ α} (early : FailsEarly R action) (answer : α → β) :
    FailsEarly R (action >>= fun made => Pure.pure (answer made)) := by
  intro state fault failed configuration
  have step := early state fault
  rw [runOn_bind] at failed ⊢
  rcases ran : action.runOn state with ⟨result, reached⟩
  rw [ran] at failed step
  cases result with
  | error other =>
    cases failed
    exact step rfl configuration
  | ok made => cases failed

end Early

end Action

/-! ## Looking and no more -/

/-- A machine was read, but nothing else was asked of it. -/
structure OnlyRead (before after : Watched Machine) : Prop where
  writes : after.writes = before.writes
  exchanges : after.exchanges = before.exchanges
  inner : ∃ reads : List Machine.Operation, (∀ operation ∈ reads, operation matches .read ..) ∧
    after.inner = { before.inner with history := reads ++ before.inner.history }

theorem OnlyRead.refl (state : Watched Machine) : OnlyRead state state :=
  ⟨rfl, rfl, [], nofun, rfl⟩

theorem OnlyRead.trans {first second third : Watched Machine} (early : OnlyRead first second)
    (late : OnlyRead second third) : OnlyRead first third := by
  obtain ⟨before, readBefore, reached⟩ := early.inner
  obtain ⟨after, readAfter, final⟩ := late.inner
  refine ⟨late.writes.trans early.writes, late.exchanges.trans early.exchanges, after ++ before,
    ?_, ?_⟩
  · intro operation member
    rcases List.mem_append.1 member with later | earlier
    · exact readAfter operation later
    · exact readBefore operation earlier
  · rw [final, reached, List.append_assoc]

instance : Std.Refl OnlyRead := ⟨OnlyRead.refl⟩

instance : IsTrans (Watched Machine) OnlyRead := ⟨fun _ _ _ => OnlyRead.trans⟩

/-- The same of the machine of a site. -/
def OnlyReadAt (before after : Site (Watched Machine)) : Prop :=
  OnlyRead before.machine after.machine

instance : Std.Refl OnlyReadAt := ⟨fun site => OnlyRead.refl site.machine⟩

instance : IsTrans (Site (Watched Machine)) OnlyReadAt := ⟨fun _ _ _ => OnlyRead.trans⟩

theorem onlyRead_read (chip : Chip) (address : UInt32) (length : Nat) :
    Action.Steps OnlyRead (Transport.read chip address length : Action (Watched Machine) Bytes) := by
  intro state
  change OnlyRead state { state with inner := (Machine.read chip address length state.inner).2 }
  unfold Machine.read
  split
  · exact ⟨rfl, rfl, [.read chip address length], by simp, rfl⟩
  · exact OnlyRead.refl state

theorem onlyRead_of_sameMachine {α : Type} {action : Action (Site (Watched Machine)) α}
    (same : Action.Steps Site.SameMachine action) : Action.Steps OnlyReadAt action := by
  intro site
  have kept : ((action.runOn site).2).machine = site.machine := same site
  change OnlyRead site.machine (action.runOn site).2.machine
  rw [kept]
  exact OnlyRead.refl site.machine

/-! ## Writing -/

namespace Site

open MeshControl.Action

section Writing

variable {σ : Type} [Transport σ]

theorem failsLate_writeBytes (core : Core) (region : Option RegionId) (address : UInt32)
    (data : Bytes) : FailsLate (writeBytes core region address data : Action σ Nat) := by
  refine (FailsLate.mapFault (fun _ => rfl) _).bind fun count => ?_
  split
  · exact .pure count
  · exact .throw rfl

/-- An image whose address is known is looked up without a fault. -/
theorem failsLate_writeImage_known {core : Core} {image : Spec.Image} {address : UInt32}
    {addresses : OrderedMap (Core × RegionId) UInt32}
    (found : addresses.get? (core, image.region.id) = some address) :
    FailsLate (writeImage core image (.known addresses) : Action σ Written) := by
  have located : (Locator.locate (.known addresses) core image.region.id : Action σ UInt32) =
      pure address := by
    rw [Locator.locate, found]
  rw [writeImage, located, pure_bind]
  exact (failsLate_writeBytes _ _ _ _).bind fun _ => .pure _

theorem failsLate_writeImages {core : Core} {images : List Spec.Image}
    {addresses : OrderedMap (Core × RegionId) UInt32}
    (found : ∀ image ∈ images, ∃ address, addresses.get? (core, image.region.id) = some address) :
    FailsLate (writeImages core (.known addresses) images : Action σ (List Written)) := by
  induction images with
  | nil => exact .pure []
  | cons image rest ih =>
    obtain ⟨address, known⟩ := found image (List.mem_cons_self ..)
    refine (failsLate_writeImage_known known).bind fun _ => ?_
    exact (ih fun other member => found other (List.mem_cons_of_mem _ member)).bind fun _ => .pure _

/-- The images of a load are written to the layout that they were declared for, so no look-up
fails once the table is being written. -/
theorem failsLate_deliver {κ : Type} {core : Core} {base : UInt32} {generator : Generator κ}
    {context : κ} {execution : Spec.Execution} {layout : RegionLayout} {loader : Loader}
    (prepared : Prepared core base generator context execution layout loader) :
    FailsLate (deliver core base execution layout : Action (Site σ) _) := by
  have found : ∀ image ∈ filled execution, ∃ address,
      (Locator.addLayout .empty core layout).get? (core, image.region.id) = some address :=
    fun image member =>
      ⟨_, Locator.get?_addLayout .empty core layout (prepared.filled_place member).1⟩
  refine (failsLate_writeBytes _ _ _ _).onMachine.bind fun _ => ?_
  exact (failsLate_writeImages found).onMachine.bind fun _ => .pure _

end Writing

/-! ## Requests -/

/-- What can be asked of a site. -/
inductive Request (κ : Type) where
  | writeTable (core : Core) (base : UInt32)
  | execute (core : Core) (region : RegionId) (program : Spec.Program) (locator : Locator)
  | load (core : Core) (base : UInt32) (generator : Generator κ) (context : κ)
  | loadTags (tags : List IpTag) (reverseTags : List ReverseTag)

variable {κ : Type}

/-- Do what was asked. -/
def Request.perform {σ : Type} [Transport σ] : Request κ → Action (Site σ) Unit
  | .writeTable core base => Site.writeTable core base >>= fun _ => pure ()
  | .execute core region program locator =>
    Site.execute core region program locator >>= fun _ => pure ()
  | .load core base generator context => Site.load core base generator context >>= fun _ => pure ()
  | .loadTags tags reverseTags => onMachine (MeshControl.loadTags tags reverseTags)

theorem failsEarly_writeTable (core : Core) (base : UInt32) :
    FailsEarly OnlyReadAt (writeTable core base : Action (Site (Watched Machine)) RegionLayout) := by
  have touching : Steps OnlyReadAt (touch core : Action (Site (Watched Machine)) MemoryMap) :=
    fun site => OnlyRead.refl site.machine
  refine touching.bind_failsEarly fun _ => ?_
  refine (Steps.ofExcept _).bind_failsEarly fun _ => ?_
  exact ((failsLate_writeBytes _ _ _ _).onMachine.bind fun _ => .pure _).failsEarly

theorem failsEarly_writeImage (core : Core) (image : Spec.Image) (locator : Locator) :
    FailsEarly OnlyRead (writeImage core image locator : Action (Watched Machine) Written) := by
  have looking : Steps OnlyRead
      (locator.locate core image.region.id : Action (Watched Machine) UInt32) :=
    .locate onlyRead_read locator core image.region.id
  refine looking.bind_failsEarly fun _ => ?_
  exact ((failsLate_writeBytes _ _ _ _).bind fun _ => .pure _).failsEarly

theorem failsEarly_execute (core : Core) (region : RegionId) (program : Spec.Program)
    (locator : Locator) :
    FailsEarly OnlyReadAt
      (execute core region program locator : Action (Site (Watched Machine)) Written) := by
  intro site fault failed early
  obtain same | ⟨-, -, image, -, -, -, -, -, -, wrote⟩ :=
    execute_cases core region program locator site
  · rw [same]
    exact OnlyRead.refl site.machine
  · rw [wrote] at failed ⊢
    exact failsEarly_writeImage core image locator site.machine fault failed early

theorem failsEarly_load (core : Core) (base : UInt32) (generator : Generator κ) (context : κ) :
    FailsEarly OnlyReadAt (load core base generator context : Action (Site (Watched Machine)) _) := by
  rw [load_eq]
  refine (onlyRead_of_sameMachine (prepare_steps core base generator context)).bind_failsEarly ?_
  intro _ _ _ made
  -- the look-ups behind the table are for images of the layout that was just made
  exact (failsLate_deliver (prepare_prepared made)).failsEarly

/-- An objection of the board is not about what was asked. -/
theorem failsLate_objection (objects : Machine → Bool) (reason : String)
    (asked done : Machine → Machine) :
    FailsLate (Watched.unseen fun machine =>
      if objects machine then (.error (.transport reason), asked machine)
      else (.ok (), done machine) : Action (Watched Machine) Unit) := by
  intro state fault failed
  change (if objects state.inner then (Except.error (Fault.transport reason), asked state.inner)
    else (.ok (), done state.inner)).1 = Except.error fault at failed
  split at failed
  · cases failed
    rfl
  · cases failed

/-- Once the tags are checked, only the board can object to them. -/
theorem failsEarly_loadTags (tags : List IpTag) (reverseTags : List ReverseTag) :
    FailsEarly OnlyRead (loadTags tags reverseTags : Action (Watched Machine) Unit) := by
  have clearing (slot : TagSlot) :
      FailsLate (Transport.clearTag slot : Action (Watched Machine) Unit) :=
    failsLate_objection _ _ _ _
  have setting (tag : IpTag) :
      FailsLate (Transport.setIpTag tag : Action (Watched Machine) Unit) :=
    failsLate_objection _ _ _ _
  have reversing (tag : ReverseTag) :
      FailsLate (Transport.setReverseTag tag : Action (Watched Machine) Unit) :=
    failsLate_objection _ _ _ _
  refine (Steps.ofExcept _).bind_failsEarly fun _ => ?_
  exact ((FailsLate.forM clearing _).bind fun _ =>
    (FailsLate.forM setting _).bind fun _ => FailsLate.forM reversing _).failsEarly

theorem Request.failsEarly (request : Request κ) :
    FailsEarly OnlyReadAt (request.perform : Action (Site (Watched Machine)) Unit) := by
  cases request with
  | writeTable core base => exact (failsEarly_writeTable core base).bind_pure _
  | execute core region program locator =>
    exact (failsEarly_execute core region program locator).bind_pure _
  | load core base generator context =>
    exact (failsEarly_load core base generator context).bind_pure _
  | loadTags tags reverseTags =>
    exact fun site => failsEarly_loadTags tags reverseTags site.machine

/-! ## Watching a request changes nothing -/

section Mirrors

variable {σ : Type} [Transport σ]

theorem writeTable_mirrors (core : Core) (base : UInt32) :
    Mirrors (@Watched.site σ) (writeTable core base) (writeTable core base) := by
  have touching : Mirrors (@Watched.site σ) (touch core) (touch core) := fun _ => rfl
  refine touching.bind fun _ => (Mirrors.ofExcept _).bind fun layout => ?_
  exact (Mirrors.writeBytes core none base layout.tableBytes).onMachine.bind fun _ => .pure _

theorem writeImages_mirrors (core : Core) (locator : Locator) (images : List Spec.Image) :
    Mirrors (@Watched.inner σ) (writeImages core locator images)
      (writeImages core locator images) := by
  induction images with
  | nil => exact .pure []
  | cons image rest ih =>
    exact (Mirrors.writeImage core image locator).bind fun _ => ih.bind fun _ => .pure _

theorem load_mirrors (core : Core) (base : UInt32) (generator : Generator κ) (context : κ) :
    Mirrors (@Watched.site σ) (load core base generator context)
      (load core base generator context) := by
  have reserving (declarations : List Declaration) :
      Mirrors (@Watched.site σ) (reserve core declarations) (reserve core declarations) :=
    fun _ => rfl
  refine (reserving _).bind fun _ => (Mirrors.ofExcept _).bind fun _ => ?_
  refine (Mirrors.ofExcept _).bind fun execution => (reserving _).bind fun _ => ?_
  refine (writeTable_mirrors core base).bind fun layout => ?_
  exact (writeImages_mirrors core (.ofLayout core layout) (filled execution)).onMachine.bind
    fun _ => .pure _

theorem loadTags_mirrors (tags : List IpTag) (reverseTags : List ReverseTag) :
    Mirrors (@Watched.inner σ) (loadTags tags reverseTags) (loadTags tags reverseTags) := by
  refine (Mirrors.ofExcept _).bind fun _ => ?_
  refine (Mirrors.forM (fun _ _ => rfl) _).bind fun _ => ?_
  exact (Mirrors.forM (fun _ _ => rfl) _).bind fun _ => .forM (fun _ _ => rfl) _

theorem Request.mirrors (request : Request κ) :
    Mirrors (@Watched.site σ) request.perform request.perform := by
  cases request with
  | writeTable core base => exact (writeTable_mirrors core base).bind fun _ => .pure ()
  | execute core region program locator =>
    exact (execute_mirrors core region program locator).bind fun _ => .pure ()
  | load core base generator context =>
    exact (load_mirrors core base generator context).bind fun _ => .pure ()
  | loadTags tags reverseTags => exact (loadTags_mirrors tags reverseTags).onMachine

end Mirrors

/-- **Configuration faults come first.** A request for tables, images, a first load or tags that
fails because of what was asked has sent no write and no datagram, and has done nothing to the
machine but read it: its log has those reads on top, and for the rest it is as it was, its memory,
its tags and the failures it was told to have among it. This is so for every state of the loader and the machine and
for everything that can be asked. -/
theorem configuration_fault_first (request : Request κ) (site : Site Machine) {fault : Fault}
    (failed : (request.perform.runOn site).1 = .error fault)
    (configuration : fault.isConfiguration = true) :
    let ran := request.perform.runOn site
    let seen := request.perform.runOn
      (⟨site.loader, .start site.machine⟩ : Site (Watched Machine))
    ran = (seen.1, Watched.site seen.2) ∧ seen.2.machine.writes = [] ∧
      seen.2.machine.exchanges = [] ∧
      ∃ reads : List Machine.Operation, (∀ operation ∈ reads, operation matches .read ..) ∧
        ran.2.machine = { site.machine with history := reads ++ site.machine.history } := by
  intro ran seen
  have same : ran = (seen.1, Watched.site seen.2) :=
    request.mirrors (⟨site.loader, .start site.machine⟩ : Site (Watched Machine))
  have failedSeen : seen.1 = .error fault := (congrArg Prod.fst same).symm.trans failed
  have only := request.failsEarly _ fault failedSeen configuration
  obtain ⟨reads, areReads, inner⟩ := only.inner
  refine ⟨same, only.writes, only.exchanges, reads, areReads, ?_⟩
  have machine : ran.2.machine = seen.2.machine.inner :=
    congrArg (fun ran => ran.2.machine) same
  exact machine.trans inner

namespace Sample

/-- A specification for the region that was asked for after the table was written. -/
def lateProgram : Spec.Program :=
  .ofBytes (Bytes.ofWords (Spec.Command.encode (.reserve 3 4 false) ++
    Spec.Command.encode (.focus 3) ++ Spec.Command.encode (.writeArray [1]) ++
    [Spec.commandWord Spec.Opcode.endSpec.code 0 0]))

/-- Its image is to be written to where the table says. -/
def lateRequest : Request Unit :=
  .execute core 3 lateProgram (.pointerTables (.ofList [(core, Machine.memoryBase)]))

theorem lateRequest_fails :
    (lateRequest.perform.runOn shortened).1 = .error (Locator.notReserved core 3) := by
  decide +kernel

end Sample

/-- The table is read twice, and has nothing for the region. The short write is still to come. -/
theorem configuration_fault_first_late :
    (Sample.lateRequest.perform.runOn Sample.shortened).1 =
        .error (Locator.notReserved Sample.core 3) ∧
      (Locator.notReserved Sample.core 3).isConfiguration = true ∧
      ∃ reads : List Machine.Operation, (∀ operation ∈ reads, operation matches .read ..) ∧
        (Sample.lateRequest.perform.runOn Sample.shortened).2.machine =
          { Sample.shortened.machine with
            history := reads ++ Sample.shortened.machine.history } :=
  ⟨Sample.lateRequest_fails, rfl,
    (configuration_fault_first Sample.lateRequest Sample.shortened Sample.lateRequest_fails
      rfl).2.2.2⟩

end Site

end MeshControl
