import MeshControl.Proofs.Action

/-!
# Watching a transport

A watched transport keeps, beside the state it watches, what it was asked to write and to
exchange. It does nothing else: an action answers as it does on the transport itself, and leaves
the same state there (`Action.Mirrors`).
-/

namespace MeshControl

/-- A write that a transport was asked for, and its answer. -/
structure WriteCall where
  chip : Chip
  address : UInt32
  data : Bytes
  answer : Except Fault Nat
  deriving DecidableEq

/-- A datagram that a transport was asked to send. -/
structure ExchangeCall where
  core : Core
  datagram : Bytes
  deriving DecidableEq

/-- A state of a transport, with what it was asked for since it is watched, in order. -/
structure Watched (σ : Type) where
  inner : σ
  writes : List WriteCall
  exchanges : List ExchangeCall

namespace Watched

variable {σ α : Type}

/-- The state that is watched from now on. -/
def start (state : σ) : Watched σ := ⟨state, [], []⟩

/-- The site of the machine that is watched. -/
def site (site : Site (Watched σ)) : Site σ := ⟨site.loader, site.machine.inner⟩

/-- An action of which no record is kept. -/
def unseen (action : Action σ α) : Action (Watched σ) α := fun watched =>
  let (answer, inner) := action.runOn watched.inner
  (answer, { watched with inner })

instance [Transport σ] : Transport (Watched σ) where
  write chip address data := fun watched =>
    let (answer, inner) := (Transport.write chip address data).runOn watched.inner
    (answer, { watched with inner, writes := watched.writes ++ [⟨chip, address, data, answer⟩] })
  read chip address length := unseen (Transport.read chip address length)
  exchange core datagram := fun watched =>
    let (answer, inner) := (Transport.exchange core datagram).runOn watched.inner
    (answer, { watched with inner, exchanges := watched.exchanges ++ [⟨core, datagram⟩] })
  clearTag slot := unseen (Transport.clearTag slot)
  setIpTag tag := unseen (Transport.setIpTag tag)
  setReverseTag tag := unseen (Transport.setReverseTag tag)

variable [Transport σ]

theorem runOn_write (chip : Chip) (address : UInt32) (data : Bytes) (state : Watched σ) :
    let ran := (Transport.write chip address data).runOn state.inner
    (Transport.write chip address data).runOn state =
      (ran.1, ⟨ran.2, state.writes ++ [⟨chip, address, data, ran.1⟩], state.exchanges⟩) :=
  rfl

theorem runOn_exchange (core : Core) (datagram : Bytes) (state : Watched σ) :
    let ran := (Transport.exchange core datagram).runOn state.inner
    (Transport.exchange core datagram).runOn state =
      (ran.1, ⟨ran.2, state.writes, state.exchanges ++ [⟨core, datagram⟩]⟩) :=
  rfl

/-- A checked write is one call, and succeeds if all bytes are acknowledged. -/
theorem runOn_writeBytes (core : Core) (region : Option RegionId) (address : UInt32)
    (data : Bytes) (state : Watched σ) :
    let wrote := (Transport.write core.chip address data).runOn state.inner
    let ran := (Site.writeBytes core region address data).runOn state
    ran.2 = ⟨wrote.2, state.writes ++ [⟨core.chip, address, data, wrote.1⟩], state.exchanges⟩ ∧
      ∀ count, ran.1 = .ok count ↔ wrote.1 = .ok data.length ∧ count = data.length := by
  intro wrote ran
  have called : (Transport.write core.chip address data).runOn state =
      (wrote.1, ⟨wrote.2, state.writes ++ [⟨core.chip, address, data, wrote.1⟩],
        state.exchanges⟩) :=
    runOn_write core.chip address data state
  clear_value wrote
  obtain ⟨answer, inner⟩ := wrote
  dsimp only at called ⊢
  have made : ran = _ := Action.runOn_bind _ _ state
  cases answer with
  | error fault =>
    rw [Action.runOn_mapFault_of_error called] at made
    rw [made]
    exact ⟨rfl, fun count => ⟨nofun, nofun⟩⟩
  | ok accepted =>
    rw [Action.runOn_mapFault_of_ok called] at made
    rw [made]
    dsimp only
    by_cases full : accepted = data.length
    · rw [if_pos full]
      refine ⟨rfl, fun count => ⟨?_, ?_⟩⟩
      · rintro ⟨⟩
        exact ⟨congrArg _ full, full⟩
      · rintro ⟨-, rfl⟩
        rw [full]
        rfl
    · rw [if_neg full]
      exact ⟨rfl, fun count => ⟨nofun, fun ⟨same, _⟩ => absurd (Except.ok.inj same) full⟩⟩

/-! ## What is no write -/

/-- Nothing was written. -/
def SameWrites (before after : Watched σ) : Prop := after.writes = before.writes

omit [Transport σ] in
instance : Std.Refl (@SameWrites σ) := ⟨fun _ => rfl⟩

omit [Transport σ] in
instance : IsTrans (Watched σ) SameWrites := ⟨fun _ _ _ early late => Eq.trans late early⟩

/-- Finding a region writes nothing. -/
theorem locate_steps (locator : Locator) (core : Core) (region : RegionId) :
    Action.Steps SameWrites (locator.locate core region : Action (Watched σ) UInt32) :=
  .locate (fun _ _ _ _ => rfl) locator core region

/-- An image is written with one call to where its region is found, and is written if all bytes are
acknowledged. If the region is not found, nothing is written. -/
theorem runOn_writeImage (core : Core) (image : Spec.Image) (locator : Locator)
    (state : Watched σ) :
    let ran := (Site.writeImage core image locator).runOn state
    (ran.1.isOk = false ∧ ran.2.writes = state.writes) ∨ ∃ address answer,
      ((locator.locate core image.region.id).runOn state).1 = .ok address ∧
        ran.2.writes = state.writes ++ [⟨core.chip, address, image.data, answer⟩] ∧
        (ran.1.isOk = true ↔ answer = .ok image.data.length) := by
  intro ran
  have made : ran = _ := Action.runOn_bind _ _ state
  have looked : ((locator.locate core image.region.id).runOn state).2.writes = state.writes :=
    locate_steps locator core image.region.id state
  rcases found : (locator.locate core image.region.id).runOn state with ⟨result, reached⟩
  rw [found] at made looked
  cases result with
  | error fault =>
    rw [made]
    exact .inl ⟨rfl, looked⟩
  | ok address =>
    right
    dsimp only at made looked
    rw [Action.runOn_bind] at made
    have sent := runOn_writeBytes core (some image.region.id) address image.data reached
    rcases wrote : (Site.writeBytes core (some image.region.id) address image.data).runOn reached
      with ⟨result, final⟩
    rw [wrote] at made sent
    obtain ⟨kept, answered⟩ := sent
    dsimp only at kept answered
    refine ⟨address, ((Transport.write core.chip address image.data).runOn reached.inner).1, rfl,
      ?_, ?_⟩
    · rw [made, ← looked]
      cases result <;> exact congrArg writes kept
    · rw [made]
      cases result with
      | error fault =>
        refine ⟨nofun, fun full => ?_⟩
        cases (answered image.data.length).2 ⟨full, rfl⟩
      | ok count => exact ⟨fun _ => ((answered count).1 rfl).1, fun _ => rfl⟩

end Watched

namespace Action

variable {σ τ α β : Type} {forget : τ → σ}

/-- One action does what another does once part of the state is forgotten. -/
def Mirrors (forget : τ → σ) (image : Action τ α) (action : Action σ α) : Prop :=
  ∀ state, action.runOn (forget state) = ((image.runOn state).1, forget (image.runOn state).2)

theorem Mirrors.bind {image : Action τ α} {action : Action σ α} {next : α → Action τ β}
    {nextAction : α → Action σ β} (first : Mirrors forget image action)
    (later : ∀ answer, Mirrors forget (next answer) (nextAction answer)) :
    Mirrors forget (image >>= next) (action >>= nextAction) := by
  intro state
  rw [runOn_bind, runOn_bind, first state]
  rcases image.runOn state with ⟨result, reached⟩
  cases result with
  | error fault => rfl
  | ok answer => exact later answer reached

theorem Mirrors.pure (answer : α) :
    Mirrors forget (Pure.pure answer : Action τ α) (Pure.pure answer : Action σ α) :=
  fun _ => rfl

theorem Mirrors.throw (fault : Fault) :
    Mirrors forget (MonadExcept.throw fault : Action τ α) (MonadExcept.throw fault : Action σ α) :=
  fun _ => rfl

theorem Mirrors.ofExcept (result : Except Fault α) :
    Mirrors forget (Action.ofExcept result : Action τ α) (Action.ofExcept result : Action σ α) :=
  fun _ => rfl

theorem Mirrors.mapFault {image : Action τ α} {action : Action σ α}
    (mirrors : Mirrors forget image action) (change : Fault → Fault) :
    Mirrors forget (image.mapFault change) (action.mapFault change) := by
  intro state
  have same := mirrors state
  rcases ran : image.runOn state with ⟨result, reached⟩
  rw [ran] at same
  cases result with
  | ok answer => rw [runOn_mapFault_of_ok ran, runOn_mapFault_of_ok same]
  | error fault => rw [runOn_mapFault_of_error ran, runOn_mapFault_of_error same]

theorem Mirrors.forM {γ : Type} {image : γ → Action τ Unit} {action : γ → Action σ Unit}
    (each : ∀ element, Mirrors forget (image element) (action element)) (list : List γ) :
    Mirrors forget (list.forM image) (list.forM action) := by
  induction list with
  | nil => exact .pure ()
  | cons element list ih => exact (each element).bind fun _ => ih

section Watched

variable [Transport σ]

theorem Mirrors.write (chip : Chip) (address : UInt32) (data : Bytes) :
    Mirrors (@Watched.inner σ) (Transport.write chip address data)
      (Transport.write chip address data) :=
  fun _ => rfl

theorem Mirrors.read (chip : Chip) (address : UInt32) (length : Nat) :
    Mirrors (@Watched.inner σ) (Transport.read chip address length)
      (Transport.read chip address length) :=
  fun _ => rfl

theorem Mirrors.exchange (core : Core) (datagram : Bytes) :
    Mirrors (@Watched.inner σ) (Transport.exchange core datagram)
      (Transport.exchange core datagram) :=
  fun _ => rfl

theorem Mirrors.readExact (chip : Chip) (address : UInt32) (length : Nat) :
    Mirrors (@Watched.inner σ) (Transport.readExact chip address length)
      (Transport.readExact chip address length) := by
  refine ((Mirrors.read chip address length).mapFault _).bind fun data => ?_
  split
  · exact .pure data
  · exact .throw _

theorem Mirrors.readWord (chip : Chip) (address : UInt32) :
    Mirrors (@Watched.inner σ) (Transport.readWord chip address)
      (Transport.readWord chip address) :=
  (Mirrors.readExact chip address 4).bind fun _ => .pure _

theorem Mirrors.readPointer (core : Core) (region : RegionId) (base : UInt32) :
    Mirrors (@Watched.inner σ) (Locator.readPointer core region base)
      (Locator.readPointer core region base) := by
  have nonzero (address : UInt32) (fault : Fault) : Mirrors (@Watched.inner σ)
      (if address = 0 then MonadExcept.throw fault >>= fun _ : Unit => Pure.pure address
        else Pure.pure address)
      (if address = 0 then MonadExcept.throw fault >>= fun _ : Unit => Pure.pure address
        else Pure.pure address) := by
    split
    · exact (Mirrors.throw fault).bind fun _ => .pure address
    · exact .pure address
  refine (Mirrors.readWord _ _).bind fun magic => ?_
  split
  · exact (Mirrors.throw _).bind fun _ => (Mirrors.readWord _ _).bind fun _ => nonzero _ _
  · exact (Mirrors.readWord _ _).bind fun _ => nonzero _ _

theorem Mirrors.locate (locator : Locator) (core : Core) (region : RegionId) :
    Mirrors (@Watched.inner σ) (locator.locate core region) (locator.locate core region) := by
  unfold Locator.locate
  split
  · split
    · exact .pure _
    · exact .throw _
  · split
    · split
      · exact .readPointer core region _
      · exact .throw _
    · exact .throw _

theorem Mirrors.writeBytes (core : Core) (region : Option RegionId) (address : UInt32)
    (data : Bytes) : Mirrors (@Watched.inner σ) (Site.writeBytes core region address data)
      (Site.writeBytes core region address data) := by
  refine ((Mirrors.write core.chip address data).mapFault _).bind fun count => ?_
  split
  · exact .pure count
  · exact .throw _

theorem Mirrors.writeImage (core : Core) (image : Spec.Image) (locator : Locator) :
    Mirrors (@Watched.inner σ) (Site.writeImage core image locator)
      (Site.writeImage core image locator) :=
  (Mirrors.locate locator core image.region.id).bind fun _ =>
    (Mirrors.writeBytes core _ _ _).bind fun _ => .pure _

omit [Transport σ] in
theorem Mirrors.onMachine {image : Action (Watched σ) α} {action : Action σ α}
    (mirrors : Mirrors Watched.inner image action) :
    Mirrors Watched.site (Site.onMachine image) (Site.onMachine action) := by
  intro site
  rw [runOn_onMachine, runOn_onMachine, Watched.site, mirrors site.machine]
  rfl

end Watched

end Action

end MeshControl
