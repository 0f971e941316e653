import MeshControl.Proofs.Action
import MeshControl.Reload

/-!
# What a reload leaves alone

Keeping copies changes files and nothing else (`SameButFiles`). A visit to one vertex changes
no other, and vertices stay filed under their labels (`Beside`).
-/

namespace MeshControl.Reload

variable {σ α : Type}

/-! ## Folders -/

/-- The folders of a pass, and the disk once they are made. -/
def makeFolders (settings : Settings) (files : FileTree) : Except Fault Folders × FileTree :=
  match Archive.uniqueFolder settings.imageParent Archive.reloadFolder files with
  | (.error fault, files) => (.error fault, files)
  | (.ok images, files) =>
    match Archive.uniqueFolder settings.reportParent Archive.reloadFolder files with
    | (.error fault, files) => (.error fault, files)
    | (.ok reports, files) => (.ok ⟨images, reports⟩, files)

/-- Whatever is done with two folders is done once they are made. -/
theorem runOn_withFolders (settings : Settings) (use : Folders → Action (State σ) α)
    (state : State σ) :
    Action.runOn (do
      let images ← makeFolder settings.imageParent
      let reports ← makeFolder settings.reportParent
      use ⟨images, reports⟩) state =
      match makeFolders settings state.files with
      | (.error fault, files) => (.error fault, { state with files })
      | (.ok folders, files) => (use folders).runOn { state with files } := by
  have runs (parent : String) (state : State σ) : (makeFolder parent).runOn state =
      ((Archive.uniqueFolder parent Archive.reloadFolder state.files).1,
        { state with
          files := (Archive.uniqueFolder parent Archive.reloadFolder state.files).2 }) := rfl
  rw [Action.runOn_bind, runs, makeFolders]
  rcases Archive.uniqueFolder settings.imageParent Archive.reloadFolder state.files with
    ⟨images, made⟩
  cases images with
  | error fault => rfl
  | ok images =>
    dsimp only
    rw [Action.runOn_bind, runs]
    rcases Archive.uniqueFolder settings.reportParent Archive.reloadFolder made with
      ⟨reports, made⟩
    cases reports <;> rfl

/-! ## Files -/

/-- Two states that differ at most in their files. -/
def SameButFiles (before after : State σ) : Prop := ∃ files, after = { before with files }

instance : Std.Refl (@SameButFiles σ) := ⟨fun state => ⟨state.files, rfl⟩⟩

instance : IsTrans (State σ) SameButFiles := by
  constructor
  rintro first _ _ ⟨files, rfl⟩ ⟨next, rfl⟩
  exact ⟨next, rfl⟩

theorem writeFile_steps (path : String) (data : Bytes) :
    Action.Steps SameButFiles (writeFile path data : Action (State σ) Unit) := by
  intro state
  show SameButFiles state (writeFile path data state).2
  unfold writeFile
  cases state.files.writeFile path data with
  | ok files => exact ⟨files, rfl⟩
  | error fault => exact ⟨state.files, rfl⟩

theorem keepCopies_steps (plan : Plan) (folders : Folders) (core : Core)
    (execution : Spec.Execution) (image : Spec.Image) :
    Action.Steps SameButFiles (keepCopies plan folders core execution image : Action (State σ) _) := by
  unfold keepCopies
  refine Action.Steps.bind (writeFile_steps _ _) fun _ => ?_
  split
  · exact writeFile_steps _ _
  · exact Action.Steps.pure _

/-! ## Other vertices -/

/-- Every vertex is filed under its own label. -/
def Keyed (vertices : OrderedMap String Vertex) : Prop :=
  ∀ name vertex, vertices.get? name = some vertex → vertex.label = name

theorem Keyed.empty : Keyed .empty := fun _ _ found => nomatch found

theorem Keyed.insert {vertices : OrderedMap String Vertex} (keyed : Keyed vertices)
    {name : String} {vertex : Vertex} (named : vertex.label = name) :
    Keyed (vertices.insert name vertex) := by
  intro other found look
  rw [OrderedMap.get?_insert] at look
  by_cases same : name = other
  · rw [if_pos same] at look
    cases look
    exact named.trans same
  · rw [if_neg same] at look
    exact keyed other found look

/-- Vertices stay filed under their labels, and only the one of `name` may change. -/
structure Beside (name : String) (before after : State σ) : Prop where
  keyed : Keyed before.vertices → Keyed after.vertices
  others : ∀ other, other ≠ name → after.vertices.get? other = before.vertices.get? other

theorem Beside.of_same {name : String} {before after : State σ}
    (same : after.vertices = before.vertices) : Beside name before after := by
  constructor
  · rw [same]
    exact id
  · intro other _
    rw [same]

instance (name : String) : Std.Refl (@Beside σ name) := ⟨fun _ => .of_same rfl⟩

instance (name : String) : IsTrans (State σ) (Beside name) := by
  refine ⟨fun first second third early late => ⟨?_, ?_⟩⟩
  · intro keyed
    exact late.keyed (early.keyed keyed)
  · intro other different
    exact (late.others other different).trans (early.others other different)

theorem runOn_onSite (action : Action (Site σ) α) (state : State σ) :
    (onSite action).runOn state =
      ((action.runOn state.site).1, { state with site := (action.runOn state.site).2 }) :=
  rfl

theorem onSite_steps (name : String) (action : Action (Site σ) α) :
    Action.Steps (Beside name) (onSite action) :=
  fun _ => .of_same rfl

theorem SameButFiles.beside {name : String} {before after : State σ}
    (same : SameButFiles before after) : Beside name before after := by
  obtain ⟨files, rfl⟩ := same
  exact .of_same rfl

theorem runOn_markReloaded {source : Source} {state : State σ}
    (filed : state.vertices.get? source.label = some (.source source)) (id : RegionId) :
    (Reload.markReloaded source.label id).runOn state = (.ok (), { state with
      vertices := state.vertices.insert source.label (.source (source.markReloaded [id])) }) := by
  rw [Reload.markReloaded, Action.runOn_modify, filed]

theorem markReloaded_steps (label : String) (region : RegionId) :
    Action.Steps (Beside label) (markReloaded label region : Action (State σ) Unit) := by
  intro state
  rw [markReloaded, Action.runOn_modify]
  cases filed : state.vertices.get? label with
  | none => exact .of_same rfl
  | some vertex =>
    cases vertex with
    | gatherer _ => exact .of_same rfl
    | plain _ => exact .of_same rfl
    | source source =>
      constructor
      · intro keyed
        exact keyed.insert (keyed label (.source source) filed)
      · intro other different
        exact OrderedMap.get?_insert_ne _ _ (Ne.symm different)

section

variable [Transport σ]

theorem reloadRegion_steps (plan : Plan) (folders : Folders) (label : String) (core : Core)
    (execution : Spec.Execution) (region : RegionId) :
    Action.Steps (Beside label)
      (reloadRegion plan folders label core execution region : Action (State σ) Unit) := by
  unfold reloadRegion
  cases execution.image? region with
  | none => exact Action.Steps.throw _
  | some image =>
    refine Action.Steps.bind (onSite_steps _ _) fun _ => ?_
    refine Action.Steps.bind (fun state => ?_) fun _ => markReloaded_steps _ _
    exact (keepCopies_steps plan folders core execution image state).beside

theorem reloadSource_steps (plan : Plan) (folders : Folders) (source : Source) :
    Action.Steps (Beside source.label)
      (reloadSource plan folders source : Action (State σ) Nat) := by
  unfold reloadSource
  cases plan.placements.get? source.label with
  | none => exact Action.Steps.throw _
  | some core =>
    refine Action.Steps.bind (Action.Steps.ofExcept _) fun program => ?_
    refine Action.Steps.bind (Action.Steps.ofExcept _) fun execution => ?_
    refine Action.Steps.bind (onSite_steps _ _) fun _ => ?_
    refine Action.Steps.bind (Action.Steps.forM fun region _ => ?_) fun _ => Action.Steps.pure _
    exact reloadRegion_steps plan folders source.label core execution region

/-- A visit to a source. -/
theorem runOn_visit {plan : Plan} {folders : Folders} {label : String} {source : Source}
    {state : State σ} (filed : state.vertices.get? label = some (.source source)) :
    (visit plan folders label).runOn state =
      (if source.needsReload then reloadSource plan folders source else pure 0).runOn state := by
  rw [visit, Action.runOn_bind, Action.runOn_get]
  dsimp only
  rw [filed]
  rfl

/-- What a visit does to other vertices. -/
theorem visit_beside (plan : Plan) (folders : Folders) (name : String) {state : State σ}
    (keyed : Keyed state.vertices) :
    Beside name state ((visit plan folders name).runOn state).2 := by
  rw [visit, Action.runOn_bind, Action.runOn_get]
  dsimp only
  cases filed : state.vertices.get? name with
  | none => exact .of_same rfl
  | some vertex =>
    cases vertex with
    | gatherer _ => exact .of_same rfl
    | plain _ => exact .of_same rfl
    | source source =>
      have label : source.label = name := keyed name (.source source) filed
      show Beside name state (Action.runOn
        (if source.needsReload then reloadSource plan folders source else pure 0) state).2
      split
      · rw [← label]
        exact reloadSource_steps plan folders source state
      · exact .of_same rfl

/-- **A pass** visits the vertices once its folders are made. -/
theorem runOn_pass (plan : Plan) (labels : List String) (state : State σ) :
    (pass plan labels).runOn state =
      match makeFolders plan.settings state.files with
      | (.error fault, files) => (.error fault, { state with files })
      | (.ok folders, files) =>
        (visitAll plan ⟨0, 0, 0, folders⟩ labels).runOn { state with files } :=
  runOn_withFolders plan.settings (fun folders => visitAll plan ⟨0, 0, 0, folders⟩ labels) state

end

end MeshControl.Reload
