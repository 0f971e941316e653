import MeshControl.Machine.Basic

/-!
# The routing tables of a core

A command that a core obeys changes the tables of this core (`Routes.tables_apply`), and leaves it
with not more than one of the two tables that can be installed. Obeying twice is obeying once, so
what cores in turn have obeyed depends on which cores they are, but not on their order
(`Routes.tables_foldl_apply`).
-/

namespace MeshControl.Machine

/-- Which tables a core holds. -/
structure Tables where
  system : Bool
  application : Bool
  saved : Bool
  deriving DecidableEq

/-- The tables of a core that obeys a command. -/
def Tables.obeying (tables : Tables) : Scp.Command → Tables
  | .loadSystemRoutes => ⟨true, false, tables.saved⟩
  | .loadApplicationRoutes => ⟨false, true, tables.saved⟩
  | .saveApplicationRoutes => { tables with saved := true }

theorem Tables.obeying_obeying (tables : Tables) (command : Scp.Command) :
    (tables.obeying command).obeying command = tables.obeying command := by
  cases command <;> rfl

namespace Routes

/-- The tables of a core. -/
def tables (routes : Routes) (core : Core) : Tables :=
  ⟨routes.system.contains core, routes.application.contains core, routes.saved.contains core⟩

theorem ext_tables {first second : Routes}
    (same : ∀ core, first.tables core = second.tables core) : first = second := by
  have system := OrderedSet.ext_contains fun core => congrArg Tables.system (same core)
  have application := OrderedSet.ext_contains fun core => congrArg Tables.application (same core)
  have saved := OrderedSet.ext_contains fun core => congrArg Tables.saved (same core)
  cases first
  cases second
  cases system
  cases application
  cases saved
  rfl

theorem tables_apply (routes : Routes) (core other : Core) (command : Scp.Command) :
    (routes.apply core command).tables other =
      if core = other then (routes.tables other).obeying command else routes.tables other := by
  by_cases same : core = other <;> cases command <;>
    simp [apply, tables, Tables.obeying, OrderedSet.contains_insert, OrderedSet.contains_erase,
      same]

/-- **Cores in turn.** -/
theorem tables_foldl_apply (routes : Routes) (command : Scp.Command) (cores : List Core)
    (core : Core) :
    (cores.foldl (fun routes core => routes.apply core command) routes).tables core =
      if core ∈ cores then (routes.tables core).obeying command else routes.tables core := by
  induction cores generalizing routes with
  | nil => rfl
  | cons first rest ih =>
    rw [List.foldl_cons, ih, tables_apply]
    by_cases same : first = core
    · subst same
      rw [if_pos rfl, Tables.obeying_obeying, ite_self, if_pos (List.mem_cons_self ..)]
    · have member : core ∈ first :: rest ↔ core ∈ rest :=
        List.mem_cons.trans (or_iff_right (Ne.symm same))
      simp only [member, if_neg same]

/-- No core has both tables installed. -/
def Exclusive (routes : Routes) : Prop :=
  ∀ core, ¬ ((routes.tables core).system = true ∧ (routes.tables core).application = true)

theorem Exclusive.none : Exclusive .none :=
  fun _ => nofun

theorem Exclusive.apply {routes : Routes} (exclusive : Exclusive routes) (core : Core)
    (command : Scp.Command) : Exclusive (routes.apply core command) := by
  intro other
  rw [tables_apply]
  split
  · cases command with
    | loadSystemRoutes => exact fun both => Bool.noConfusion both.2
    | loadApplicationRoutes => exact fun both => Bool.noConfusion both.1
    | saveApplicationRoutes => exact exclusive other
  · exact exclusive other

end Routes

/-- Whatever is sent to a core, it has not more than one table installed. -/
theorem exclusive_exchange {machine : Machine} (exclusive : machine.routes.Exclusive) (core : Core)
    (datagram : Bytes) : ((exchange core datagram).runOn machine).2.routes.Exclusive := by
  show (exchange core datagram machine).2.routes.Exclusive
  unfold exchange
  cases Scp.Request.decode datagram with
  | error fault => exact exclusive
  | ok decoded =>
    dsimp only
    split
    · exact exclusive
    · unfold obey
      dsimp only
      split
      · exact exclusive
      · split
        · exact exclusive.apply _ _
        · exact exclusive

end MeshControl.Machine
