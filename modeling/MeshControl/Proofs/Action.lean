import Mathlib.Order.Defs.Unbundled
import MeshControl.Region.Loader

/-!
# Running actions

What an action made of smaller ones answers, and the state it leaves, in terms of what the
smaller ones do. `runOn_bind` is the law; the others are the actions that models are made of.
-/

namespace MeshControl.Action

variable {σ α β : Type}

theorem runOn_bind (action : Action σ α) (next : α → Action σ β) (state : σ) :
    (action >>= next).runOn state =
      match action.runOn state with
      | (.ok answer, reached) => (next answer).runOn reached
      | (.error fault, reached) => (.error fault, reached) := by
  show ExceptT.bindCont next (action state).1 (action state).2 = match action state with
    | (.ok answer, reached) => (next answer).runOn reached
    | (.error fault, reached) => (.error fault, reached)
  rcases action state with ⟨result, reached⟩
  cases result <;> rfl

/-- A sequence that answers did so because both of its parts did. -/
theorem exists_of_runOn_bind {action : Action σ α} {next : α → Action σ β} {state final : σ}
    {answer : β} (ran : (action >>= next).runOn state = (.ok answer, final)) :
    ∃ middle reached, action.runOn state = (.ok middle, reached) ∧
      (next middle).runOn reached = (.ok answer, final) := by
  rw [runOn_bind] at ran
  rcases first : action.runOn state with ⟨result, reached⟩
  rw [first] at ran
  cases result with
  | error fault => cases ran
  | ok middle => exact ⟨middle, reached, rfl, ran⟩

@[simp] theorem runOn_pure (answer : α) (state : σ) :
    (pure answer : Action σ α).runOn state = (.ok answer, state) :=
  rfl

@[simp] theorem runOn_throw (fault : Fault) (state : σ) :
    (throw fault : Action σ α).runOn state = (.error fault, state) :=
  rfl

@[simp] theorem runOn_get (state : σ) : (get : Action σ σ).runOn state = (.ok state, state) :=
  rfl

@[simp] theorem runOn_modify (change : σ → σ) (state : σ) :
    (modify change : Action σ Unit).runOn state = (.ok (), change state) :=
  rfl

@[simp] theorem runOn_ofExcept (result : Except Fault α) (state : σ) :
    (ofExcept result).runOn state = (result, state) :=
  rfl

theorem runOn_forM_cons {γ : Type} (body : γ → Action σ Unit) (element : γ) (list : List γ)
    (state : σ) : ((element :: list).forM body).runOn state =
      (body element >>= fun _ => list.forM body).runOn state :=
  rfl

theorem runOn_mapFault_of_ok {action : Action σ α} {state reached : σ} {answer : α}
    (ran : action.runOn state = (.ok answer, reached)) (change : Fault → Fault) :
    (action.mapFault change).runOn state = (.ok answer, reached) := by
  show mapFault change action state = _
  rw [mapFault, ran]

theorem runOn_mapFault_of_error {action : Action σ α} {state reached : σ} {fault : Fault}
    (ran : action.runOn state = (.error fault, reached)) (change : Fault → Fault) :
    (action.mapFault change).runOn state = (.error (change fault), reached) := by
  show mapFault change action state = _
  rw [mapFault, ran]

/-- An action on the machine of a site leaves its loader alone. -/
theorem runOn_onMachine (action : Action σ α) (site : Site σ) :
    (Site.onMachine action).runOn site =
      ((action.runOn site.machine).1, ⟨site.loader, (action.runOn site.machine).2⟩) :=
  rfl

/-! ## What no action of some kind does -/

section Steps

variable {R : σ → σ → Prop}

/-- Whatever it answers, the action leaves a state that is related to the one it was run on. -/
def Steps (R : σ → σ → Prop) (action : Action σ α) : Prop :=
  ∀ state, R state (action.runOn state).2

theorem Steps.bind [IsTrans σ R] {action : Action σ α} {next : α → Action σ β}
    (first : Steps R action) (later : ∀ answer, Steps R (next answer)) :
    Steps R (action >>= next) := by
  intro state
  have early := first state
  rw [runOn_bind]
  rcases ran : action.runOn state with ⟨result, reached⟩
  rw [ran] at early
  cases result with
  | error fault => exact early
  | ok answer => exact IsTrans.trans _ _ _ early (later answer reached)

theorem Steps.pure [Std.Refl R] (answer : α) : Steps R (Pure.pure answer : Action σ α) :=
  fun state => Std.Refl.refl state

theorem Steps.throw [Std.Refl R] (fault : Fault) : Steps R (MonadExcept.throw fault : Action σ α) :=
  fun state => Std.Refl.refl state

theorem Steps.ofExcept [Std.Refl R] (result : Except Fault α) :
    Steps R (Action.ofExcept result : Action σ α) :=
  fun state => Std.Refl.refl state

/-- What follows a result needs to be looked at for that result only. -/
theorem Steps.ofExcept_bind [Std.Refl R] {result : Except Fault α} {next : α → Action σ β}
    (later : ∀ answer, result = .ok answer → Steps R (next answer)) :
    Steps R (Action.ofExcept result >>= next) := by
  intro state
  rw [runOn_bind, runOn_ofExcept]
  cases result with
  | error fault => exact Std.Refl.refl state
  | ok answer => exact later answer rfl state

theorem Steps.mapFault {action : Action σ α} (steps : Steps R action) (change : Fault → Fault) :
    Steps R (action.mapFault change) := by
  intro state
  have step := steps state
  rcases ran : action.runOn state with ⟨result, reached⟩
  rw [ran] at step
  cases result with
  | ok answer => rwa [runOn_mapFault_of_ok ran]
  | error fault => rwa [runOn_mapFault_of_error ran]

theorem Steps.forM [Std.Refl R] [IsTrans σ R] {γ : Type} {body : γ → Action σ Unit}
    {list : List γ} (each : ∀ element ∈ list, Steps R (body element)) :
    Steps R (list.forM body) := by
  induction list with
  | nil => exact Steps.pure ()
  | cons element list ih =>
    show Steps R (body element >>= fun _ => list.forM body)
    apply (each element (List.mem_cons_self ..)).bind
    intro _
    exact ih fun other member => each other (List.mem_cons_of_mem _ member)

end Steps

/-! ## Look-ups -/

section LookUp

variable [Transport σ] {R : σ → σ → Prop} [Std.Refl R] [IsTrans σ R]
  (reads : ∀ chip address length, Steps R (Transport.read chip address length : Action σ Bytes))

include reads

theorem Steps.readWord (chip : Chip) (address : UInt32) :
    Steps R (Transport.readWord chip address : Action σ UInt32) := by
  refine Steps.bind (Steps.bind ((reads _ _ _).mapFault _) fun data => ?_) fun _ => .pure _
  split
  · exact .pure data
  · exact .throw _

theorem Steps.readPointer (core : Core) (region : RegionId) (base : UInt32) :
    Steps R (Locator.readPointer core region base : Action σ UInt32) := by
  have nonzero (address : UInt32) (fault : Fault) : Steps R
      (if address = 0 then MonadExcept.throw fault >>= fun _ : Unit => Pure.pure address
        else Pure.pure address) := by
    split
    · exact (Steps.throw fault).bind fun _ => .pure address
    · exact .pure address
  refine (Steps.readWord reads _ _).bind fun magic => ?_
  split
  · exact (Steps.throw _).bind fun _ => (Steps.readWord reads _ _).bind fun _ => nonzero _ _
  · exact (Steps.readWord reads _ _).bind fun _ => nonzero _ _

/-- **Finding a region does what reads do**, and no more. -/
theorem Steps.locate (locator : Locator) (core : Core) (region : RegionId) :
    Steps R (locator.locate core region : Action σ UInt32) := by
  unfold Locator.locate
  split
  · split
    · exact .pure _
    · exact .throw _
  · split
    · split
      · exact Steps.readPointer reads core region _
      · exact .throw _
    · exact .throw _

end LookUp

end MeshControl.Action
