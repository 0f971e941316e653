import MeshControl.Proofs.Archive.Searching
import MeshControl.Proofs.Reload.Copies

/-!
# The folders of passes

A pass looks for free names and makes its folders there, and nothing is removed from the disk
afterwards. So a folder that was made is there whenever a later one is, and no two passes share one,
nor do the images and the listings of one pass (`folders_fresh`).

Folders are told apart by what exists under their paths. They are also different entries of the disk,
unless a path goes up out of a directory that was missing: then there was nothing under the path,
but making the missing directory opens a way to a folder that may have been there all along.
-/

namespace MeshControl.Reload

open Archive

variable {σ : Type} {first files next : FileTree}

/-- A folder that a pass made: where it was to lie, its path, and the disk before it was made. -/
structure Opened where
  parent : String
  path : String
  before : FileTree

/-- The folder that is made below a directory, unless the disk fails. -/
def openedBelow (parent : String) (files : FileTree) : List Opened :=
  match (uniqueFolder parent reloadFolder files).1 with
  | .ok path => [⟨parent, path, files⟩]
  | .error _ => []

/-- The folders that a pass makes. Without the first it does not try the second. -/
def opened (settings : Settings) (files : FileTree) : List Opened :=
  match uniqueFolder settings.imageParent reloadFolder files with
  | (.ok path, made) =>
    ⟨settings.imageParent, path, files⟩ :: openedBelow settings.reportParent made
  | (.error _, _) => []

/-- The state that a pass leads to, done or failed. -/
def State.after [Transport σ] (state : State σ) (plan : Plan) (labels : List String) : State σ :=
  ((pass plan labels).runOn state).2

/-- The states that passes lead to, done or failed, from some disk on, with all folders that were
made. Between passes anything may happen that removes nothing from the disk. -/
inductive Passes [Transport σ] (first : FileTree) : State σ → List Opened → Prop where
  | start {state : State σ} (begun : state.files = first) : Passes first state []
  | between {before after : State σ} {made : List Opened} (passes : Passes first before made)
    (keeps : before.files.Keeps after.files) : Passes first after made
  | pass {state : State σ} {made : List Opened} (passes : Passes first state made) (plan : Plan)
    (labels : List String) :
    Passes first (state.after plan labels) (made ++ opened plan.settings state.files)

/-- A later folder was made where there was none, when the earlier one was there. -/
structure Anew (first files : FileTree) (early late : Opened) : Prop where
  met : late.before.pathExists early.path = true
  free : late.before.pathExists late.path = false
  apart : first.Grounded → late.before.Traces late.parent →
    files.locate early.path ≠ files.locate late.path

theorem Anew.path_ne {early late : Opened} (anew : Anew first files early late) :
    early.path ≠ late.path := by
  intro same
  have met := anew.met
  rw [same, anew.free] at met
  cases met

/-- The path of a folder leads to a directory. -/
def Opened.Leads (files : FileTree) (folder : Opened) : Prop :=
  ∃ place, files.locate folder.path = .ok place ∧ files.node? place = some .directory

/-- What is known of a disk and of the folders that passes made there. -/
structure Fresh (first files : FileTree) (made : List Opened) : Prop where
  keeps : first.Keeps files
  leads : ∀ folder ∈ made, folder.Leads files
  anew : made.Pairwise (Anew first files)

variable {made : List Opened}

theorem Opened.Leads.pathExists {folder : Opened} (leads : folder.Leads files) :
    files.pathExists folder.path = true := by
  obtain ⟨place, located, -⟩ := leads
  rw [FileTree.pathExists, located]
  rfl

theorem Opened.Leads.of_keeps {folder : Opened} (leads : folder.Leads files)
    (keeps : files.Keeps next) : folder.Leads next := by
  obtain ⟨place, located, directory⟩ := leads
  exact ⟨place, keeps.locate located, keeps.directories place directory⟩

theorem Fresh.of_keeps (fresh : Fresh first files made) (keeps : files.Keeps next) :
    Fresh first next made where
  keeps := fresh.keeps.trans keeps
  leads folder member := (fresh.leads folder member).of_keeps keeps
  anew := by
    refine fresh.anew.imp_of_mem fun {early late} isEarly isLate anew => { anew with
      apart := fun grounded traces => ?_ }
    obtain ⟨here, located, -⟩ := fresh.leads early isEarly
    obtain ⟨there, located', -⟩ := fresh.leads late isLate
    have apart := anew.apart grounded traces
    rw [located, located'] at apart
    rw [keeps.locate located, keeps.locate located']
    exact apart

/-! ## One folder -/

/-- The names that are tried for the folders of passes are plain. -/
theorem candidate_plain (count : Nat) : candidate reloadFolder count ≠ "" ∧
    '/' ∉ (candidate reloadFolder count).toList ∧ candidate reloadFolder count ≠ ".." := by
  cases count with
  | zero => decide
  | succ count =>
    rw [candidate_succ]
    refine ⟨fun nothing => ?_, ?_, (append_mark_plain reloadFolder (count + 1)).2⟩
    · exact mark_ne_empty _ (String.append_eq_empty_iff.1 nothing).2
    · rw [String.toList_append, List.mem_append, not_or]
      exact ⟨by decide, slash_not_mem_mark (count + 1)⟩

/-- **One more folder** is different from all earlier ones. -/
theorem Fresh.add (fresh : Fresh first files made) (parent : String) :
    Fresh first (uniqueFolder parent reloadFolder files).2 (made ++ openedBelow parent files) := by
  obtain ⟨taken, search, -, named⟩ := exists_firstFree files parent reloadFolder
  obtain ⟨grows, ended⟩ := uniqueFolder_effect files parent reloadFolder
  rw [named] at ended
  have kept := fresh.of_keeps grows.keeps
  obtain ⟨done, leads⟩ | ⟨fault, -, failed⟩ := ended
  · rw [openedBelow, done]
    refine ⟨kept.keeps, ?_, ?_⟩
    · intro folder member
      rcases List.mem_append.1 member with early | last
      · exact kept.leads folder early
      · rw [List.mem_singleton.1 last]
        exact leads
    · refine List.pairwise_append.2 ⟨kept.anew, List.pairwise_singleton .., ?_⟩
      intro early isEarly late isLate
      rw [List.mem_singleton.1 isLate]
      have there := fresh.leads early isEarly
      refine ⟨there.pathExists, search.free, fun grounded traces same => ?_⟩
      -- If both led to one directory, it was there before the later folder was made.
      obtain ⟨place, located, directory⟩ := there
      rw [grows.keeps.locate located] at same
      obtain ⟨filled, flat, notUp⟩ := candidate_plain taken
      have before := FileTree.locate_of_there grows (fresh.keeps.grounded grounded) traces filled
        flat notUp same.symm (by rw [directory]; rfl)
      have free := search.free
      rw [FileTree.pathExists, before] at free
      cases free
  · rw [openedBelow, failed, List.append_nil]
    exact kept

/-! ## Passes -/

/-- **The folders of a pass.** -/
theorem Fresh.addAll (fresh : Fresh first files made) (settings : Settings) :
    Fresh first (makeFolders settings files).2 (made ++ opened settings files) := by
  have images := fresh.add settings.imageParent
  rw [openedBelow] at images
  rw [makeFolders, opened]
  rcases making : uniqueFolder settings.imageParent reloadFolder files with ⟨result, between⟩
  rw [making] at images
  cases result with
  | error fault => exact images
  | ok path =>
    have reports := images.add settings.reportParent
    rw [List.append_assoc, openedBelow] at reports
    dsimp only
    rw [openedBelow]
    rcases making' : uniqueFolder settings.reportParent reloadFolder between with ⟨result, after⟩
    rw [making'] at reports
    cases result with
    | error fault => exact reports
    | ok path => exact reports

theorem opened_of_makeFolders {settings : Settings} {folders : Folders}
    (ran : makeFolders settings files = (.ok folders, next)) :
    (opened settings files).map (·.path) = [folders.images, folders.reports] := by
  rw [makeFolders] at ran
  rw [opened]
  rcases making : uniqueFolder settings.imageParent reloadFolder files with ⟨result, between⟩
  rw [making] at ran
  cases result with
  | error fault => cases ran
  | ok images =>
    dsimp only at ran ⊢
    rw [List.map_cons, openedBelow]
    rcases making' : uniqueFolder settings.reportParent reloadFolder between with ⟨result, after⟩
    rw [making'] at ran
    cases result with
    | error fault => cases ran
    | ok reports =>
      cases ran
      rfl

variable [Transport σ]

/-- A pass removes nothing once its folders are made. -/
theorem pass_keeps (plan : Plan) (labels : List String) (state : State σ) :
    (makeFolders plan.settings state.files).2.Keeps (state.after plan labels).files := by
  rw [State.after, runOn_pass]
  rcases makeFolders plan.settings state.files with ⟨result, files⟩
  cases result with
  | error fault => exact .refl files
  | ok folders =>
    obtain ⟨copies, writes, -⟩ :=
      copying_visitAll plan labels ⟨0, 0, 0, folders⟩ { state with files }
    exact writes.keeps

/-- **Passes in turn.** -/
theorem Passes.fresh {state : State σ} (passes : Passes first state made) :
    Fresh first state.files made := by
  induction passes with
  | start begun => exact ⟨begun ▸ .refl first, nofun, .nil⟩
  | between _ keeps ih => exact ih.of_keeps keeps
  | pass _ plan labels ih => exact (ih.addAll plan.settings).of_keeps (pass_keeps plan labels _)

theorem folders_of_visitAll (plan : Plan) {labels : List String} {summary total : Summary}
    {state after : State σ}
    (ran : (visitAll plan summary labels).runOn state = (.ok total, after)) :
    total.folders = summary.folders := by
  induction labels generalizing summary state with
  | nil =>
    cases ran
    rfl
  | cons label rest ih =>
    obtain ⟨count, middle, -, later⟩ := Action.exists_of_runOn_bind ran
    exact (ih later :)

/-- A pass that is done tells the folders that it made. -/
theorem opened_of_pass {plan : Plan} {labels : List String} {state : State σ} {summary : Summary}
    (ran : ((pass plan labels).runOn state).1 = .ok summary) :
    (opened plan.settings state.files).map (·.path) =
      [summary.folders.images, summary.folders.reports] := by
  rw [runOn_pass] at ran
  rcases making : makeFolders plan.settings state.files with ⟨result, files⟩
  rw [making] at ran
  cases result with
  | error fault => cases ran
  | ok folders => rw [opened_of_makeFolders making, folders_of_visitAll plan (Prod.ext ran rfl)]

/-- **Passes never share a folder.** Below any directory, a folder gets the plain name or the least
number that makes it free, and what is on the disk stays as it is. The search for the name ends by
itself, and a word is enough to count it unless the disk has that many entries. So over any passes,
done or failed, every folder was made where there was none, when all earlier ones were there. -/
theorem folders_fresh :
    (∀ (tree : FileTree) (parent name : String), tree.places.length < UInt32.size - 1 →
      ∃ taken, FirstFree tree parent name taken ∧ taken + 1 < UInt32.size ∧
        (∀ limit, taken ≤ limit → countTaken tree parent name 0 limit = taken) ∧
        let path := Path.join parent (candidate name taken)
        let made := uniqueFolder parent name tree
        tree.Grows made.2 ∧
          ((made.1 = .ok path ∧
              ∃ place, made.2.locate path = .ok place ∧ made.2.node? place = some .directory) ∨
            ∃ fault, (tree.makeDirectories path).1 = .error fault ∧
              made.1 = .error (.operation (.reportDirectory path fault.message)))) ∧
    ∀ (first : FileTree) (state : State σ) (made : List Opened), Passes first state made →
      (made.map (·.path)).Nodup ∧ (∀ folder ∈ made, folder.Leads state.files) ∧
        made.Pairwise (Anew first state.files) ∧
        ∀ plan labels summary, ((pass plan labels).runOn state).1 = .ok summary →
          (opened plan.settings state.files).map (·.path) =
            [summary.folders.images, summary.folders.reports] := by
  constructor
  · intro tree parent name few
    obtain ⟨taken, search, bound, named⟩ := exists_firstFree tree parent name
    have effect := uniqueFolder_effect tree parent name
    rw [named] at effect
    exact ⟨taken, search, by omega, fun limit => search.countTaken_eq, effect⟩
  · intro first state made passes
    have fresh := passes.fresh
    have distinct : (made.map (·.path)).Nodup :=
      List.pairwise_map.2 (fresh.anew.imp Anew.path_ne)
    exact ⟨distinct, fresh.leads, fresh.anew, fun plan labels summary => opened_of_pass⟩

/-! ## A pass that is made again -/

namespace Repeated

/-- Both parents are the same directory. -/
def plan : Plan :=
  { Interrupted.plan with settings := ⟨"out", "./out", false, "host"⟩ }

/-- No vertex is placed yet. -/
def unplaced : Plan := { plan with placements := .empty }

def labels : List String := ["first"]

/-- The state after a pass that failed. -/
def once : State Machine := Interrupted.state.after unplaced labels

/-- The state after a further pass. -/
def twice : State Machine := once.after plan labels

/-- The folders of both passes. -/
def folders : List Opened :=
  opened unplaced.settings Interrupted.state.files ++ opened plan.settings once.files

theorem failed : Passes .host once (opened unplaced.settings Interrupted.state.files) := by
  have start : Passes .host Interrupted.state [] := .start rfl
  have next := start.pass unplaced labels
  rwa [List.nil_append] at next

theorem passes : Passes .host twice folders := failed.pass plan labels

theorem fails : ((pass unplaced labels).runOn Interrupted.state).1 =
    .error (.configuration (.vertexNotPlaced "first")) := by
  decide +kernel

def summary : Summary :=
  ⟨1, 1, 1, "out/reloaded_data_regions_2", "./out/reloaded_data_regions_3"⟩

theorem reloads : ((pass plan labels).runOn once).1 = .ok summary := by decide +kernel

theorem parents_and_paths : folders.map (fun folder => (folder.parent, folder.path)) =
    [("out", "out/reloaded_data_regions"), ("./out", "./out/reloaded_data_regions_1"),
      ("out", "out/reloaded_data_regions_2"), ("./out", "./out/reloaded_data_regions_3")] := by
  decide +kernel

/-- Neither parent goes up. -/
theorem traces (files : FileTree) {folder : Opened} (member : folder ∈ folders) :
    files.Traces folder.parent := by
  refine FileTree.traces_of_not_mem files ?_
  have listed : (folder.parent, folder.path) ∈
      folders.map (fun folder => (folder.parent, folder.path)) := List.mem_map_of_mem member
  rw [parents_and_paths] at listed
  have down : ∀ pair ∈ [("out", "out/reloaded_data_regions"),
      ("./out", "./out/reloaded_data_regions_1"), ("out", "out/reloaded_data_regions_2"),
      ("./out", "./out/reloaded_data_regions_3")], ".." ∉ Path.ofText pair.1 := by decide
  exact down _ listed

end Repeated

/-- A pass that fails and one that is done, with the same directory for images and listings. -/
theorem folders_fresh_repeated :
    FileTree.host.places.length < UInt32.size - 1 ∧
      ((pass Repeated.unplaced Repeated.labels).runOn Interrupted.state).1 =
        .error (.configuration (.vertexNotPlaced "first")) ∧
      ((pass Repeated.plan Repeated.labels).runOn Repeated.once).1 = .ok Repeated.summary ∧
      Passes .host Repeated.twice Repeated.folders ∧
      (∃ taken, FirstFree .host "out" reloadFolder taken ∧ taken + 1 < UInt32.size) ∧
      (opened Repeated.plan.settings Repeated.once.files).map (·.path) =
        ["out/reloaded_data_regions_2", "./out/reloaded_data_regions_3"] ∧
      (Repeated.folders.map (·.path)).Nodup ∧
      Repeated.folders.Pairwise fun early late =>
        Repeated.twice.files.locate early.path ≠ Repeated.twice.files.locate late.path := by
  have few : FileTree.host.places.length < UInt32.size - 1 := by decide
  obtain ⟨taken, search, word, -⟩ :=
    (@folders_fresh Machine _).1 .host "out" reloadFolder few
  obtain ⟨-, -, -, told⟩ := folders_fresh.2 .host Repeated.once _ Repeated.failed
  obtain ⟨distinct, -, anew, -⟩ := folders_fresh.2 .host Repeated.twice _ Repeated.passes
  have apart := anew.imp_of_mem fun {_ late} _ isLate anew =>
    anew.apart FileTree.grounded_host (Repeated.traces late.before isLate)
  exact ⟨few, Repeated.fails, Repeated.reloads, Repeated.passes, ⟨taken, search, word⟩,
    told Repeated.plan Repeated.labels Repeated.summary Repeated.reloads, distinct, apart⟩

end MeshControl.Reload
