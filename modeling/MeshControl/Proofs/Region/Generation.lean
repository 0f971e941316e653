import MeshControl.Proofs.Region.Loading

/-!
# Within one generation

Whatever is asked of a loader for a core, its map only gains declarations until a new generation
begins, and the maps of other cores stay as they are (`Acts.grown`). So a region that is declared
keeps its size and label over any history of a generation (`WithinGeneration.kept`).
-/

namespace MeshControl

namespace Loader

theorem map?_setMap_ne (loader : Loader) {core other : Core} (map : MemoryMap)
    (different : other ≠ core) : (loader.setMap core map).map? other = loader.map? other :=
  OrderedMap.get?_insert_ne _ _ (Ne.symm different)

theorem mapOf_congr {before after : Loader} {core : Core}
    (same : after.map? core = before.map? core) : after.mapOf core = before.mapOf core := by
  rw [mapOf, mapOf, same]

/-- A core that was not touched declares nothing. -/
theorem region?_mapOf (loader : Loader) (core : Core) (id : RegionId) :
    (loader.mapOf core).region? id = (loader.map? core).bind (·.region? id) := by
  rw [mapOf]
  cases loader.map? core with
  | none => rfl
  | some map => rfl

end Loader

namespace MemoryMap

theorem record_generation (map : MemoryMap) (region : Region) :
    (map.record region).generation = map.generation := by
  unfold record
  split
  · rfl
  · rfl

theorem declareAll_generation (map : MemoryMap) (regions : List Region) :
    (map.declareAll regions).2.generation = map.generation := by
  induction regions generalizing map with
  | nil => rfl
  | cons region rest ih =>
    rw [declareAll]
    split
    · rename_i next declared
      obtain ⟨_, -, made⟩ := exists_of_bind_eq_ok declared
      cases made
      exact (ih _).trans (map.record_generation region)
    · rfl

/-- A reservation adds declarations, whether or not it succeeds. -/
theorem reserve_extends (map : MemoryMap) (regions : List Region) :
    (map.reserve regions).2.Extends map ∧
      (map.reserve regions).2.generation = map.generation := by
  unfold reserve
  split
  · exact ⟨map.declareAll_extends regions, map.declareAll_generation regions⟩
  · exact ⟨fun found => found, rfl⟩

end MemoryMap

namespace Site

variable {σ κ α : Type}

/-- On one core declarations are added, in the same generation; other cores keep their maps. -/
structure Grown (core : Core) (before after : Site σ) : Prop where
  kept : (after.loader.mapOf core).Extends (before.loader.mapOf core)
  generation : (after.loader.mapOf core).generation = (before.loader.mapOf core).generation
  others : ∀ other, other ≠ core → after.loader.map? other = before.loader.map? other

theorem Grown.of_same {core : Core} {before after : Site σ} (same : after.loader = before.loader) :
    Grown core before after := by
  constructor
  · rw [same]
    exact fun found => found
  · rw [same]
  · intro other _
    rw [same]

instance (core : Core) : Std.Refl (@Grown σ core) := ⟨fun _ => .of_same rfl⟩

instance (core : Core) : IsTrans (Site σ) (Grown core) := by
  refine ⟨fun first second third early late => ⟨?_, ?_, ?_⟩⟩
  · exact fun found => late.kept (early.kept found)
  · exact late.generation.trans early.generation
  · exact fun other different => (late.others other different).trans (early.others other different)

/-! ## One request -/

theorem reserve_steps (core : Core) (declarations : List Declaration) :
    Action.Steps (Grown core) (reserve core declarations : Action (Site σ) Unit) := by
  intro site
  have made : ((reserve core declarations).runOn site).2.loader = site.loader.setMap core
      ((site.loader.mapOf core).reserve (declarations.map Declaration.region)).2 :=
    rfl
  obtain ⟨kept, generation⟩ :=
    (site.loader.mapOf core).reserve_extends (declarations.map Declaration.region)
  constructor
  · rw [made, Loader.mapOf_setMap]
    exact kept
  · rw [made, Loader.mapOf_setMap]
    exact generation
  · intro other different
    rw [made]
    exact Loader.map?_setMap_ne _ _ different

theorem touch_steps (core : Core) :
    Action.Steps (Grown core) (touch core : Action (Site σ) MemoryMap) := by
  intro site
  have made : ((touch core).runOn site).2.loader =
      site.loader.setMap core (site.loader.mapOf core) :=
    rfl
  constructor
  · rw [made, Loader.mapOf_setMap]
    exact fun found => found
  · rw [made, Loader.mapOf_setMap]
  · intro other different
    rw [made]
    exact Loader.map?_setMap_ne _ _ different

variable [Transport σ]

/-- What executing a specification does: it writes the image if there is one to write. -/
theorem runOn_execute (core : Core) (region : RegionId) (program : Spec.Program)
    (locator : Locator) (site : Site σ) :
    (execute core region program locator).runOn site =
      match (site.loader.map? core).bind (·.region? region) with
      | none => (.error (Locator.notReserved core region), site)
      | some reserved =>
        match imageFor core region reserved.size program with
        | .error fault => (.error fault, site)
        | .ok image => (onMachine (writeImage core image locator)).runOn site := by
  rw [execute, Action.runOn_bind, Action.runOn_get]
  dsimp only
  cases (site.loader.map? core).bind (·.region? region) with
  | none => rfl
  | some reserved =>
    dsimp only
    rw [Action.runOn_bind, Action.runOn_ofExcept]
    cases imageFor core region reserved.size program <;> rfl

/-- Executing a specification declares nothing. -/
theorem execute_loader (core : Core) (region : RegionId) (program : Spec.Program)
    (locator : Locator) (site : Site σ) :
    ((execute core region program locator).runOn site).2.loader = site.loader := by
  rw [runOn_execute]
  cases (site.loader.map? core).bind (·.region? region) with
  | none => rfl
  | some reserved =>
    dsimp only
    cases imageFor core region reserved.size program <;> rfl

/-- What can be asked of a loader for a core, with the site that this leaves. -/
inductive Acts (core : Core) : Site σ → Site σ → Prop where
  | reserve (declarations : List Declaration) (site : Site σ) :
    Acts core site ((reserve core declarations).runOn site).2
  | writeTable (base : UInt32) (site : Site σ) :
    Acts core site ((writeTable core base).runOn site).2
  | execute (region : RegionId) (program : Spec.Program) (locator : Locator) (site : Site σ) :
    Acts core site ((execute core region program locator).runOn site).2
  | load {κ : Type} (base : UInt32) (generator : Generator κ) (context : κ) (site : Site σ) :
    Acts core site ((load core base generator context).runOn site).2

/-- A relation between sites that every part of a request for a core keeps to. -/
structure Keeps (core : Core) (R : Site σ → Site σ → Prop) : Prop where
  reserve : ∀ declarations, Action.Steps R (reserve core declarations)
  touch : Action.Steps R (touch core)
  sameLoader : ∀ {before after}, after.loader = before.loader → R before after

/-- A request keeps to what its parts keep to. -/
theorem Acts.related {core : Core} {R : Site σ → Site σ → Prop} [IsTrans (Site σ) R]
    (keeps : Keeps core R) {before after : Site σ} (acts : Acts core before after) :
    R before after := by
  have refl : Std.Refl R := ⟨fun _ => keeps.sameLoader rfl⟩
  have machineOnly : ∀ {α : Type} (action : Action σ α), Action.Steps R (onMachine action) :=
    fun _ _ => keeps.sameLoader rfl
  have table : ∀ base, Action.Steps R (Site.writeTable core base) := by
    intro base
    refine keeps.touch.bind fun map => ?_
    refine (Action.Steps.ofExcept _).bind fun layout => ?_
    exact (machineOnly _).bind fun _ => .pure layout
  cases acts with
  | reserve declarations => exact keeps.reserve declarations before
  | writeTable base => exact table base before
  | execute region program locator => exact keeps.sameLoader (execute_loader ..)
  | load base generator context =>
    have whole : Action.Steps R (Site.load core base generator context) := by
      refine (keeps.reserve _).bind fun _ => ?_
      refine (Action.Steps.ofExcept _).bind fun program => ?_
      refine (Action.Steps.ofExcept _).bind fun execution => ?_
      refine (keeps.reserve _).bind fun _ => ?_
      refine (table base).bind fun layout => ?_
      exact (machineOnly _).bind fun written => .pure (layout, written)
    exact whole before

/-- **One request**, successful or not, adds declarations to its core and changes no other. -/
theorem Acts.grown {core : Core} {before after : Site σ} (acts : Acts core before after) :
    Grown core before after :=
  acts.related ⟨reserve_steps core, touch_steps core, .of_same⟩

/-! ## Any history -/

/-- Sites that are reached in one generation of a core's map: by requests for any cores, by new
generations of other cores, and by whatever happens to the machine. -/
inductive WithinGeneration (core : Core) (opened : Site σ) : Site σ → Prop where
  | start : WithinGeneration core opened opened
  | acts {actor : Core} {site next : Site σ} (before : WithinGeneration core opened site)
    (acts : Acts actor site next) : WithinGeneration core opened next
  | newGeneration {other : Core} {site : Site σ} (before : WithinGeneration core opened site)
    (different : other ≠ core) :
    WithinGeneration core opened { site with loader := site.loader.newGeneration other }
  | machine {site : Site σ} (before : WithinGeneration core opened site) (machine : σ) :
    WithinGeneration core opened { site with machine }

/-- **Declarations last** as long as a generation does. -/
theorem WithinGeneration.kept {core : Core} {opened site : Site σ}
    (history : WithinGeneration core opened site) :
    (site.loader.mapOf core).Extends (opened.loader.mapOf core) ∧
      (site.loader.mapOf core).generation = (opened.loader.mapOf core).generation := by
  induction history with
  | start => exact ⟨fun found => found, rfl⟩
  | @acts actor site next _ acts ih =>
    have grown := acts.grown
    by_cases same : core = actor
    · subst same
      exact ⟨fun found => grown.kept (ih.1 found), grown.generation.trans ih.2⟩
    · rw [Loader.mapOf_congr (grown.others core same)]
      exact ih
  | @newGeneration other site _ different ih =>
    have same : (site.loader.newGeneration other).mapOf core = site.loader.mapOf core :=
      Loader.mapOf_congr (Loader.map?_setMap_ne _ _ (Ne.symm different))
    rw [same]
    exact ih
  | machine _ _ ih => exact ih

end Site

end MeshControl
