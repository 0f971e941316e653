import MeshControl.Proofs.Reload.Accounting

/-!
# The files of a pass

All that a pass does to the disk, once its folders are made, is to write copies one after the other
(`copying_visitAll`). A copy is named after the machine, the core and the region. Whatever the machine
is called, copies of different regions lie in different files, and none takes the place of another
(`copies_apart`).
-/

namespace MeshControl.Reload

/-- A file that a pass writes for a region: its bytes, or the listing that goes with them. -/
structure Copy where
  core : Core
  region : RegionId
  listing : Bool
  data : Bytes

section

variable {plan : Plan} {folders : Folders} {before middle after : FileTree}
  {copies later : List Copy}

namespace Copy

/-- The region of a copy, and which of its two files the copy is. -/
def key (copy : Copy) : (Core × RegionId) × Bool := ((copy.core, copy.region), copy.listing)

/-- Where a copy is kept. -/
def path (plan : Plan) (folders : Folders) (copy : Copy) : String :=
  let stem := Archive.artifactStem plan.settings.hostname copy.core copy.region
  if copy.listing then Path.join folders.reports s!"{stem}.txt"
  else Path.join folders.images s!"{stem}.dat"

theorem path_congr {copy other : Copy} (same : copy.key = other.key) :
    copy.path plan folders = other.path plan folders := by
  obtain ⟨regions, kinds⟩ := Prod.mk.inj same
  obtain ⟨cores, numbers⟩ := Prod.mk.inj regions
  rw [path, path, cores, numbers, kinds]

/-- **Different copies have different names**, whatever the machine is called. -/
theorem lastName_ne {copy other : Copy} (different : copy.key ≠ other.key) :
    (Path.ofText (copy.path plan folders)).getLast? ≠
      (Path.ofText (other.path plan folders)).getLast? := by
  obtain ⟨core, region, listing, data⟩ := copy
  obtain ⟨core', region', listing', data'⟩ := other
  have regions (same : listing = listing') : core = core' → region ≠ region' := by
    rintro rfl rfl
    exact different (by rw [key, key, same])
  cases listing with
  | false =>
    cases listing' with
    | false => exact Archive.lastName_ne _ _ ".dat" (by decide) (regions rfl)
    | true => exact Archive.lastName_listing_ne _ _ _ _ _ _ _
  | true =>
    cases listing' with
    | false => exact (Archive.lastName_listing_ne _ _ _ _ _ _ _).symm
    | true => exact Archive.lastName_ne _ _ ".txt" (by decide) (regions rfl)

end Copy

/-! ## Copies that are written in turn -/

/-- What becomes of a disk when copies are written one after the other. -/
inductive Writes (plan : Plan) (folders : Folders) (before : FileTree) :
    List Copy → FileTree → Prop where
  | none : Writes plan folders before [] before
  | more {middle after : FileTree} {copies : List Copy} {copy : Copy}
    (writes : Writes plan folders before copies middle)
    (wrote : middle.writeFile (copy.path plan folders) copy.data = .ok after) :
    Writes plan folders before (copies ++ [copy]) after

theorem Writes.trans (early : Writes plan folders before copies middle)
    (late : Writes plan folders middle later after) :
    Writes plan folders before (copies ++ later) after := by
  induction late with
  | none => rwa [List.append_nil]
  | more _ wrote ih =>
    rw [← List.append_assoc]
    exact ih.more wrote

/-- Writing copies removes nothing. -/
theorem Writes.keeps (writes : Writes plan folders before copies after) : before.Keeps after := by
  induction writes with
  | none => exact .refl before
  | more _ wrote ih =>
    obtain ⟨-, parent, name, -, leads, free, rfl⟩ := FileTree.writeFile_eq_ok wrote
    exact ih.trans (FileTree.keeps_put leads.directory free)

/-- A copy that no later one replaces is there. -/
theorem Writes.stored {copy : Copy} (writes : Writes plan folders before copies after)
    {early : List Copy} (listed : copies = early ++ copy :: later)
    (last : ∀ other ∈ later, other.key ≠ copy.key) :
    after.Stored (copy.path plan folders) copy.data := by
  induction writes generalizing later with
  | none => exact absurd listed.symm (by simp)
  | @more _ _ _ written _ wrote ih =>
    cases List.eq_nil_or_concat later with
    | inl nothing =>
      subst nothing
      obtain ⟨-, same⟩ := List.append_inj' listed rfl
      cases same
      exact FileTree.stored_of_writeFile wrote
    | inr more =>
      obtain ⟨between, final, rfl⟩ := more
      rw [List.concat_eq_append] at listed last
      rw [← List.cons_append, ← List.append_assoc] at listed
      obtain ⟨rest, same⟩ := List.append_inj' listed rfl
      cases same
      have stored := ih rest fun other member => last other (List.mem_append_left _ member)
      exact stored.writeFile wrote
        (Copy.lastName_ne (last written (List.mem_append_right _ (List.mem_singleton_self _)))).symm

/-- Every copy has its file, if perhaps with the data of a later one of the same region. -/
theorem Writes.exists_stored {copy : Copy} (writes : Writes plan folders before copies after)
    (member : copy ∈ copies) : ∃ data, after.Stored (copy.path plan folders) data := by
  induction writes with
  | none => cases member
  | @more _ _ _ written _ wrote ih =>
    by_cases same : copy.key = written.key
    · rw [Copy.path_congr same]
      exact ⟨_, FileTree.stored_of_writeFile wrote⟩
    · rcases List.mem_append.1 member with early | last
      · obtain ⟨data, stored⟩ := ih early
        exact ⟨data, stored.writeFile wrote (Copy.lastName_ne same)⟩
      · exact absurd (congrArg Copy.key (List.mem_singleton.1 last)) same

end

/-! ## What a pass writes -/

/-- How many of some copies are images. -/
def images (copies : List Copy) : Nat := copies.countP fun copy => !copy.listing

theorem images_append (copies later : List Copy) :
    images (copies ++ later) = images copies + images later :=
  List.countP_append

/-- When `count` regions were written before, the action writes copies, does nothing else to the
disk, and answers what counts one more region for each image. -/
def Copying {σ α : Type} (plan : Plan) (folders : Folders) (count : Nat) (counted : α → Nat)
    (action : Action (State σ) α) : Prop :=
  ∀ state, ∃ copies, Writes plan folders state.files copies (action.runOn state).2.files ∧
    ∀ answer, (action.runOn state).1 = .ok answer → count + images copies = counted answer

section

variable {σ α : Type} {plan : Plan} {folders : Folders}

section

variable {β : Type} {count : Nat} {counted : α → Nat} {total : β → Nat}

theorem Copying.bind {first : Action (State σ) α} {next : α → Action (State σ) β}
    (early : Copying plan folders count counted first)
    (late : ∀ answer, Copying plan folders (counted answer) total (next answer)) :
    Copying plan folders count total (first >>= next) := by
  intro state
  obtain ⟨copies, writes, counts⟩ := early state
  rw [Action.runOn_bind]
  rcases ran : first.runOn state with ⟨result, middle⟩
  rw [ran] at writes counts
  cases result with
  | error fault => exact ⟨copies, writes, nofun⟩
  | ok answer =>
    obtain ⟨later, writesLater, countsLater⟩ := late answer middle
    refine ⟨copies ++ later, writes.trans writesLater, fun last answered => ?_⟩
    have now := counts answer rfl
    have after := countsLater last answered
    rw [images_append]
    omega

/-- An action that leaves the disk alone. -/
theorem Copying.still {action : Action (State σ) α}
    (same : ∀ state, (action.runOn state).2.files = state.files)
    (counts : ∀ state answer, (action.runOn state).1 = .ok answer → counted answer = count) :
    Copying plan folders count counted action := by
  intro state
  refine ⟨[], ?_, fun answer answered => (counts state answer answered).symm⟩
  rw [same]
  exact .none

theorem Copying.throw (fault : Fault) :
    Copying plan folders count counted (MonadExcept.throw fault : Action (State σ) α) :=
  .still (fun _ => rfl) nofun

theorem Copying.pure {answer : α} (counts : counted answer = count) :
    Copying plan folders count counted (Pure.pure answer : Action (State σ) α) :=
  .still (fun _ => rfl) fun _ _ same => Except.ok.inj same ▸ counts

theorem Copying.ofExcept (result : Except Fault α) :
    Copying plan folders count (fun _ => count) (Action.ofExcept result : Action (State σ) α) :=
  .still (fun _ => rfl) fun _ _ _ => rfl

end

theorem copying_writeFile (copy : Copy) (count : Nat) :
    Copying plan folders count (fun _ => count + images [copy])
      (writeFile (copy.path plan folders) copy.data : Action (State σ) Unit) := by
  intro state
  obtain ⟨message, ran⟩ | ⟨files, wrote, ran⟩ :=
    writeFile_cases (copy.path plan folders) copy.data state
  · rw [ran]
    exact ⟨[], .none, nofun⟩
  · rw [ran]
    exact ⟨[] ++ [copy], Writes.none.more wrote, fun _ _ => rfl⟩

theorem copying_keepCopies (core : Core) (execution : Spec.Execution) (image : Spec.Image)
    (count : Nat) : Copying plan folders count (fun _ => count + 1)
      (keepCopies plan folders core execution image : Action (State σ) Unit) := by
  refine (copying_writeFile ⟨core, image.region.id, false, image.data⟩ count).bind fun _ => ?_
  split
  · exact copying_writeFile ⟨core, image.region.id, true, execution.text.toUTF8.toList⟩ (count + 1)
  · exact .pure rfl

theorem copying_onSite (action : Action (Site σ) α) (count : Nat) :
    Copying plan folders count (fun _ => count) (onSite action) :=
  .still (fun _ => rfl) fun _ _ _ => rfl

theorem copying_markReloaded (label : String) (region : RegionId) (count : Nat) :
    Copying plan folders count (fun _ => count)
      (markReloaded label region : Action (State σ) Unit) := by
  refine .still (fun state => ?_) fun _ _ _ => rfl
  rw [markReloaded, Action.runOn_modify]
  dsimp only
  split <;> rfl

variable [Transport σ]

theorem copying_reloadRegion (label : String) (core : Core) (execution : Spec.Execution)
    (region : RegionId) (count : Nat) : Copying plan folders count (fun _ => count + 1)
      (reloadRegion plan folders label core execution region : Action (State σ) Unit) := by
  unfold reloadRegion
  cases execution.image? region with
  | none => exact .throw _
  | some image =>
    refine (copying_onSite _ count).bind fun _ => ?_
    exact (copying_keepCopies core execution image count).bind fun _ =>
      copying_markReloaded label region (count + 1)

/-- **Regions in turn.** -/
theorem copying_reloadRegions (label : String) (core : Core) (execution : Spec.Execution)
    (regions : List RegionId) (count : Nat) :
    Copying plan folders count (fun _ => count + regions.length)
      (regions.forM (reloadRegion plan folders label core execution) : Action (State σ) Unit) := by
  induction regions generalizing count with
  | nil => exact .pure rfl
  | cons region rest ih =>
    have later := ih (count + 1)
    rw [Nat.add_assoc, Nat.add_comm 1] at later
    exact (copying_reloadRegion label core execution region count).bind fun _ => later

theorem copying_reloadSource (source : Source) (count : Nat) :
    Copying plan folders count (fun written => count + written)
      (reloadSource plan folders source : Action (State σ) Nat) := by
  unfold reloadSource
  cases plan.placements.get? source.label with
  | none => exact .throw _
  | some core =>
    refine (Copying.ofExcept _).bind fun program => ?_
    refine (Copying.ofExcept _).bind fun execution => ?_
    refine (copying_onSite _ count).bind fun _ => ?_
    exact (copying_reloadRegions source.label core execution source.dirty.toList count).bind
      fun _ => .pure rfl

theorem copying_visit (label : String) (count : Nat) :
    Copying plan folders count (fun written => count + written)
      (visit plan folders label : Action (State σ) Nat) := by
  have nothing : Copying plan folders count (fun written => count + written)
      (pure 0 : Action (State σ) Nat) := .pure rfl
  intro state
  rw [visit, Action.runOn_bind, Action.runOn_get]
  dsimp only
  cases (state.vertices.get? label).bind Vertex.reloadable? with
  | none => exact nothing state
  | some source =>
    dsimp only
    split
    · exact copying_reloadSource source count state
    · exact nothing state

/-- **A pass writes copies**, with an image of every region that it counts, and does nothing else to
the disk. -/
theorem copying_visitAll (plan : Plan) (labels : List String) (summary : Summary) :
    Copying plan summary.folders summary.regionsWritten (·.regionsWritten)
      (visitAll plan summary labels : Action (State σ) Summary) := by
  induction labels generalizing summary with
  | nil => exact .pure rfl
  | cons label rest ih =>
    exact (copying_visit label summary.regionsWritten).bind fun count => ih { summary with
      visited := summary.visited + 1
      reloaded := summary.reloaded + if count = 0 then 0 else 1
      regionsWritten := summary.regionsWritten + count }

end

/-- **Names never collide.** The name of a file tells machine, core and region apart. So the files
that a pass writes for different regions, and the two that it writes for one, are different entries
of the disk, and each reads back unless it was written again for the same region. -/
theorem copies_apart {σ : Type} [Transport σ] (plan : Plan) (labels : List String)
    (state : State σ) :
    (∀ hostname hostname' core core' region region',
      Archive.artifactStem hostname core region = Archive.artifactStem hostname' core' region' ↔
        hostname = hostname' ∧ core = core' ∧ region = region') ∧
    ∀ folders files, makeFolders plan.settings state.files = (.ok folders, files) →
      let ran := (pass plan labels).runOn state
      ∃ copies, Writes plan folders files copies ran.2.files ∧
        (∀ summary, ran.1 = .ok summary → images copies = summary.regionsWritten) ∧
        (∀ first ∈ copies, ∀ second ∈ copies, first.key ≠ second.key →
          ∃ here there, ran.2.files.locate (first.path plan folders) = .ok here ∧
            ran.2.files.locate (second.path plan folders) = .ok there ∧ here ≠ there) ∧
        ∀ early copy late, copies = early ++ copy :: late →
          (∀ other ∈ late, other.key ≠ copy.key) →
          ran.2.files.contents (copy.path plan folders) = .ok copy.data := by
  constructor
  · intro hostname hostname' core core' region region'
    constructor
    · exact Archive.artifactStem_inj
    · rintro ⟨rfl, rfl, rfl⟩
      rfl
  · intro folders files made
    rw [runOn_pass, made]
    intro ran
    obtain ⟨copies, writes, counts⟩ :=
      copying_visitAll plan labels ⟨0, 0, 0, folders⟩ { state with files }
    refine ⟨copies, writes, fun summary answered => ?_, ?_, ?_⟩
    · exact (Nat.zero_add _).symm.trans (counts summary answered)
    · intro first isFirst second isSecond different
      obtain ⟨_, stored⟩ := writes.exists_stored isFirst
      obtain ⟨_, stored'⟩ := writes.exists_stored isSecond
      obtain ⟨here, located, -, last⟩ := stored.exists_locate
      obtain ⟨there, located', -, last'⟩ := stored'.exists_locate
      refine ⟨here, there, located, located', ?_⟩
      rintro rfl
      exact Copy.lastName_ne different (last.symm.trans last')
    · exact fun early copy late listed last => (writes.stored listed last).contents

/-! ## A machine that is called like a file -/

namespace Namesake

def plan : Plan :=
  { Interrupted.plan with
    settings := ⟨"images", "reports", true, "host_dataSpec_0_0_1_0"⟩ }

/-- No write falls short. -/
def state : State Machine := { Interrupted.state with site := ⟨.empty, .start⟩ }

def labels : List String := ["first", "second"]

def folders : Folders := ⟨"images/reloaded_data_regions", "reports/reloaded_data_regions"⟩

theorem opens : (makeFolders plan.settings state.files).1 = .ok folders := by decide +kernel

set_option maxRecDepth 20000 in
theorem reloads : ((pass plan labels).runOn state).1 = .ok ⟨2, 2, 2, folders⟩ := by
  decide +kernel

end Namesake

/-- Regions of two cores, for a machine whose name ends like that of a file. -/
theorem copies_apart_namesake :
    let ran := (pass Namesake.plan Namesake.labels).runOn Namesake.state
    let made := makeFolders Namesake.plan.settings Namesake.state.files
    made.1 = .ok Namesake.folders ∧ ran.1 = .ok ⟨2, 2, 2, Namesake.folders⟩ ∧
      ∃ copies, Writes Namesake.plan Namesake.folders made.2 copies ran.2.files ∧
        images copies = 2 ∧
        ∀ first ∈ copies, ∀ second ∈ copies, first.key ≠ second.key →
          ∃ here there,
            ran.2.files.locate (first.path Namesake.plan Namesake.folders) = .ok here ∧
            ran.2.files.locate (second.path Namesake.plan Namesake.folders) = .ok there ∧
            here ≠ there := by
  have opens := Namesake.opens
  have reloads := Namesake.reloads
  obtain ⟨copies, writes, counts, different, -⟩ :=
    (copies_apart Namesake.plan Namesake.labels Namesake.state).2 Namesake.folders _
      (Prod.ext opens rfl)
  exact ⟨opens, reloads, copies, writes, counts _ reloads, different⟩

end MeshControl.Reload
