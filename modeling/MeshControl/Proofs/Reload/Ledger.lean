import MeshControl.Proofs.Archive.Naming
import MeshControl.Proofs.Archive.Storing
import MeshControl.Proofs.Reload.Frame
import MeshControl.Proofs.Watching

/-!
# Keeping account of a reload

What is due is a list of stale regions (`agenda`). A run over it makes a list of writes
(`Delivery`), of which only the last can have failed, and an `Account` says how writes, stale
regions and files go together: whatever was acknowledged is no longer stale and has its copy, and
nothing else has changed. Accounts of runs in turn add up (`Accounted.bind`), so each function of
a reload needs only its own.

A run that could not keep its copies has no account. It answers with the fault of the disk.
-/

namespace MeshControl.Reload

variable {σ α β : Type}

/-! ## A pass that is watched -/

/-- The state with its transport watched from now on. -/
def State.watched (state : State σ) : State (Watched σ) :=
  ⟨state.vertices, ⟨state.site.loader, .start state.site.machine⟩, state.files⟩

/-- The state that is watched. -/
def State.unwatched (state : State (Watched σ)) : State σ :=
  ⟨state.vertices, Watched.site state.site, state.files⟩

section

theorem onSite_mirrors {image : Action (Site (Watched σ)) α} {action : Action (Site σ) α}
    (mirrors : Action.Mirrors Watched.site image action) :
    Action.Mirrors State.unwatched (onSite image) (onSite action) := by
  intro state
  have same := mirrors state.site
  rw [runOn_onSite, runOn_onSite]
  exact congrArg (fun ran => (ran.1, { state.unwatched with site := ran.2 })) same

theorem writeFile_mirrors (path : String) (data : Bytes) :
    Action.Mirrors (@State.unwatched σ) (writeFile path data) (writeFile path data) := by
  intro state
  show writeFile path data state.unwatched =
    ((writeFile path data state).1, State.unwatched (writeFile path data state).2)
  rw [writeFile, writeFile, show state.unwatched.files = state.files from rfl]
  cases state.files.writeFile path data <;> rfl

theorem keepCopies_mirrors (plan : Plan) (folders : Folders) (core : Core)
    (execution : Spec.Execution) (image : Spec.Image) :
    Action.Mirrors (@State.unwatched σ) (keepCopies plan folders core execution image)
      (keepCopies plan folders core execution image) := by
  refine (writeFile_mirrors _ _).bind fun _ => ?_
  split
  · exact writeFile_mirrors _ _
  · exact .pure _

theorem markReloaded_mirrors (label : String) (region : RegionId) :
    Action.Mirrors (@State.unwatched σ) (markReloaded label region) (markReloaded label region) := by
  intro state
  rw [markReloaded, markReloaded, Action.runOn_modify, Action.runOn_modify,
    show state.unwatched.vertices = state.vertices from rfl]
  cases state.vertices.get? label with
  | none => rfl
  | some vertex => cases vertex <;> rfl

variable [Transport σ]

theorem reloadRegion_mirrors (plan : Plan) (folders : Folders) (label : String) (core : Core)
    (execution : Spec.Execution) (region : RegionId) :
    Action.Mirrors (@State.unwatched σ) (reloadRegion plan folders label core execution region)
      (reloadRegion plan folders label core execution region) := by
  unfold reloadRegion
  cases execution.image? region with
  | none => exact .throw _
  | some image =>
    refine (onSite_mirrors (Action.Mirrors.writeImage _ _ _).onMachine).bind fun _ => ?_
    exact (keepCopies_mirrors plan folders core execution image).bind fun _ =>
      markReloaded_mirrors _ _

theorem reloadSource_mirrors (plan : Plan) (folders : Folders) (source : Source) :
    Action.Mirrors (@State.unwatched σ) (reloadSource plan folders source)
      (reloadSource plan folders source) := by
  unfold reloadSource
  cases plan.placements.get? source.label with
  | none => exact .throw _
  | some core =>
    refine (Action.Mirrors.ofExcept _).bind fun program => ?_
    refine (Action.Mirrors.ofExcept _).bind fun execution => ?_
    refine (onSite_mirrors fun _ => rfl).bind fun _ => ?_
    have each := @reloadRegion_mirrors σ _ plan folders source.label core execution
    exact (Action.Mirrors.forM each _).bind fun _ => .pure _

theorem visit_mirrors (plan : Plan) (folders : Folders) (label : String) :
    Action.Mirrors (@State.unwatched σ) (visit plan folders label) (visit plan folders label) := by
  intro state
  rw [visit, visit, Action.runOn_bind, Action.runOn_bind, Action.runOn_get, Action.runOn_get]
  dsimp only
  rw [show state.unwatched.vertices = state.vertices from rfl]
  cases (state.vertices.get? label).bind Vertex.reloadable? with
  | none => rfl
  | some source =>
    dsimp only
    split
    · exact reloadSource_mirrors plan folders source state
    · rfl

theorem visitAll_mirrors (plan : Plan) (labels : List String) (summary : Summary) :
    Action.Mirrors (@State.unwatched σ) (visitAll plan summary labels)
      (visitAll plan summary labels) := by
  induction labels generalizing summary with
  | nil => exact .pure _
  | cons label rest ih => exact (visit_mirrors plan _ label).bind fun count => ih _

/-- Watching a pass changes nothing. -/
theorem pass_mirrors (plan : Plan) (labels : List String) :
    Action.Mirrors (@State.unwatched σ) (pass plan labels) (pass plan labels) := by
  have makes (parent : String) :
      Action.Mirrors (@State.unwatched σ) (makeFolder parent) (makeFolder parent) :=
    fun _ => rfl
  exact (makes _).bind fun images => (makes _).bind fun reports => visitAll_mirrors plan labels _

theorem pass_watched (plan : Plan) (labels : List String) (state : State σ) :
    ((pass plan labels).runOn state).1 = ((pass plan labels).runOn state.watched).1 :=
  congrArg Prod.fst (pass_mirrors plan labels state.watched)

end

/-! ## What is due and what is done -/

/-- The stale regions of the vertex of a label, by number. -/
def staleRegions (vertices : OrderedMap String Vertex) (label : String) : List RegionId :=
  match (vertices.get? label).bind Vertex.reloadable? with
  | some source => source.dirty.toList
  | none => []

/-- The stale regions of vertices in turn. -/
def agenda (vertices : OrderedMap String Vertex) (labels : List String) :
    List (String × RegionId) :=
  labels.flatMap fun label => (staleRegions vertices label).map (label, ·)

/-- A region that was written, and how the write was answered. -/
structure Delivery where
  label : String
  region : RegionId
  core : Core
  address : UInt32
  data : Bytes
  answer : Except Fault Nat

namespace Delivery

/-- The delivery of an image. -/
def ofImage (label : String) (core : Core) (image : Spec.Image) (address : UInt32)
    (answer : Except Fault Nat) : Delivery :=
  ⟨label, image.region.id, core, address, image.data, answer⟩

/-- What was delivered. -/
def key (delivery : Delivery) : String × RegionId := (delivery.label, delivery.region)

/-- The write that the transport was asked for. -/
def call (delivery : Delivery) : WriteCall :=
  ⟨delivery.core.chip, delivery.address, delivery.data, delivery.answer⟩

/-- All bytes were acknowledged. -/
def Acknowledged (delivery : Delivery) : Prop := delivery.answer = .ok delivery.data.length

end Delivery

/-- What the source of a label makes of its regions for the next run. -/
def Makes (plan : Plan) (vertices : OrderedMap String Vertex) (label : String)
    (execution : Spec.Execution) : Prop :=
  ∃ source program, vertices.get? label = some (.source source) ∧
    source.generate plan.context = .ok program ∧ program.execute = .ok execution

/-- A delivery is to a core and an address that the plan gives for a stale region, and of the
bytes that the source makes for it. -/
structure Delivery.Due (σ : Type) [Transport σ] (plan : Plan)
    (vertices : OrderedMap String Vertex) (delivery : Delivery) : Prop where
  stale : delivery.region ∈ staleRegions vertices delivery.label
  placed : plan.placements.get? delivery.label = some delivery.core
  made : ∃ execution image, Makes plan vertices delivery.label execution ∧
    execution.image? delivery.region = some image ∧ delivery.data = image.data
  located : ∃ machine : σ,
    ((plan.locator.locate delivery.core delivery.region).runOn machine).1 = .ok delivery.address

/-- The path of the copy of a region's bytes. -/
def imageCopy (plan : Plan) (images : String) (core : Core) (region : RegionId) : String :=
  Path.join images s!"{Archive.artifactStem plan.settings.hostname core region}.dat"

/-! ## Keeping copies -/

theorem writeFile_cases (path : String) (data : Bytes) (state : State σ) :
    (∃ message, (writeFile path data).runOn state =
      (.error (.operation (.disk message)), state)) ∨
    ∃ files, state.files.writeFile path data = .ok files ∧
      (writeFile path data).runOn state = (.ok (), { state with files }) := by
  cases wrote : state.files.writeFile path data with
  | error fault =>
    refine .inl ⟨fault.message, ?_⟩
    show writeFile path data state = _
    rw [writeFile, wrote]
  | ok files =>
    refine .inr ⟨files, rfl, ?_⟩
    show writeFile path data state = _
    rw [writeFile, wrote]

/-- Unless the disk fails, the copy of a region is there after it was kept, and so are those of
other regions. -/
theorem keepCopies_effect (plan : Plan) (folders : Folders) (core : Core)
    (execution : Spec.Execution) (image : Spec.Image) (state : State σ) :
    let ran := (keepCopies plan folders core execution image).runOn state
    (∃ message, ran.1 = .error (.operation (.disk message))) ∨
      ran.1 = .ok () ∧
        ran.2.files.Stored (imageCopy plan folders.images core image.region.id) image.data ∧
        ∀ other region data, (other = core → region ≠ image.region.id) →
          state.files.Stored (imageCopy plan folders.images other region) data →
          ran.2.files.Stored (imageCopy plan folders.images other region) data := by
  intro ran
  have made : ran = _ := Action.runOn_bind _ _ state
  obtain ⟨message, failed⟩ | ⟨files, wrote, written⟩ := writeFile_cases
    (imageCopy plan folders.images core image.region.id) image.data state
  · left
    rw [imageCopy] at failed
    rw [failed] at made
    rw [made]
    exact ⟨message, rfl⟩
  rw [imageCopy] at written
  rw [written] at made
  have here := FileTree.stored_of_writeFile wrote
  have others : ∀ other region data, (other = core → region ≠ image.region.id) →
      state.files.Stored (imageCopy plan folders.images other region) data →
      files.Stored (imageCopy plan folders.images other region) data := by
    intro other region data different stored
    exact stored.writeFile wrote (Archive.lastName_ne _ _ ".dat" (by decide) different)
  dsimp only at made
  by_cases listings : plan.settings.listings = true
  · rw [if_pos listings] at made
    obtain ⟨message, failed⟩ | ⟨listed, wroteListing, written⟩ := writeFile_cases
      (Path.join folders.reports
        s!"{Archive.artifactStem plan.settings.hostname core image.region.id}.txt")
      execution.text.toUTF8.toList { state with files }
    · left
      rw [failed] at made
      rw [made]
      exact ⟨message, rfl⟩
    right
    rw [written] at made
    rw [made]
    have stays : ∀ other region data,
        files.Stored (imageCopy plan folders.images other region) data →
        listed.Stored (imageCopy plan folders.images other region) data :=
      fun other region data stored =>
        stored.writeFile wroteListing (Archive.lastName_listing_ne _ _ _ _ _ _ _)
    exact ⟨rfl, stays _ _ _ here, fun other region data different stored =>
      stays _ _ _ (others other region data different stored)⟩
  · right
    rw [if_neg listings] at made
    rw [made]
    exact ⟨rfl, here, others⟩

section

variable [Transport σ] {plan : Plan} {folders : Folders} {origin : OrderedMap String Vertex}
  {due more : List (String × RegionId)} {before middle after : State (Watched σ)}
  {done later : List Delivery} {attempt : Option Delivery} {finished : Bool}

/-! ## Accounts -/

/-- How what a run did goes together: the deliveries that are done, and the one that failed, if
the run ended with one. -/
structure Account (plan : Plan) (folders : Folders) (origin : OrderedMap String Vertex)
    (due : List (String × RegionId)) (before : State (Watched σ)) (done : List Delivery)
    (attempt : Option Delivery) (after : State (Watched σ)) (finished : Bool) : Prop where
  writes : after.site.machine.writes =
    before.site.machine.writes ++ (done ++ attempt.toList).map Delivery.call
  acknowledged : ∀ delivery ∈ done, delivery.Acknowledged
  refused : ∀ delivery ∈ attempt, ¬ delivery.Acknowledged
  /-- Deliveries are made in the order in which they are due, -/
  order : (done ++ attempt.toList).map Delivery.key <+: due
  /-- ... and a run that answers makes all of them. -/
  complete : finished = true → done.map Delivery.key = due
  made : ∀ delivery ∈ done ++ attempt.toList, delivery.Due σ plan origin
  fresh : ∀ delivery ∈ done ++ attempt.toList,
    delivery.region ∈ staleRegions before.vertices delivery.label
  stale : ∀ label region, region ∈ staleRegions after.vertices label ↔
    region ∈ staleRegions before.vertices label ∧
      ∀ delivery ∈ done, delivery.key ≠ (label, region)
  keyed : Keyed before.vertices → Keyed after.vertices
  /-- Vertices of which nothing was delivered are the same. -/
  others : ∀ label, (∀ delivery ∈ done, delivery.label ≠ label) →
    after.vertices.get? label = before.vertices.get? label
  copies : ∀ delivery ∈ done,
    after.files.Stored (imageCopy plan folders.images delivery.core delivery.region) delivery.data
  /-- Copies of other regions are still there. -/
  kept : ∀ core region data, (∀ delivery ∈ done, core = delivery.core → region ≠ delivery.region) →
    before.files.Stored (imageCopy plan folders.images core region) data →
    after.files.Stored (imageCopy plan folders.images core region) data

/-- Regions of different vertices are on different cores. -/
def Plan.Parts (plan : Plan) (due more : List (String × RegionId)) : Prop :=
  ∀ early ∈ due, ∀ late ∈ more, early.1 ≠ late.1 →
    ∀ core, plan.placements.get? early.1 = some core → plan.placements.get? late.1 ≠ some core

namespace Account

/-- Deliveries that are made later are of other regions. -/
theorem key_ne (early : Account plan folders origin due before done none middle true)
    (late : Account plan folders origin more middle later attempt after finished)
    {first : Delivery} (isEarly : first ∈ done) {second : Delivery}
    (isLate : second ∈ later ++ attempt.toList) : first.key ≠ second.key := by
  have stale := late.fresh second isLate
  exact ((early.stale _ _).1 stale).2 first isEarly

/-- Those to one core are of different regions. -/
theorem region_ne (early : Account plan folders origin due before done none middle true)
    (late : Account plan folders origin more middle later attempt after finished)
    (parts : plan.Parts due more) {first : Delivery} (isEarly : first ∈ done) {second : Delivery}
    (isLate : second ∈ later) (same : first.core = second.core) :
    first.region ≠ second.region := by
  have placed := (early.made first (List.mem_append_left _ isEarly)).placed
  have placedLate := (late.made second (List.mem_append_left _ isLate)).placed
  have listed : first.key ∈ due :=
    early.order.subset (List.mem_map_of_mem (List.mem_append_left _ isEarly))
  have listedLate : second.key ∈ more :=
    late.order.subset (List.mem_map_of_mem (List.mem_append_left _ isLate))
  by_cases labels : first.label = second.label
  · intro regions
    apply early.key_ne late isEarly (List.mem_append_left _ isLate)
    rw [Delivery.key, Delivery.key, labels, regions]
  · rw [← same] at placedLate
    exact absurd placedLate (parts _ listed _ listedLate labels _ placed)

/-- **Accounts add up.** -/
theorem trans (early : Account plan folders origin due before done none middle true)
    (late : Account plan folders origin more middle later attempt after finished)
    (parts : plan.Parts due more) :
    Account plan folders origin (due ++ more) before (done ++ later) attempt after finished where
  writes := by
    have writes := early.writes
    rw [Option.toList_none, List.append_nil] at writes
    rw [late.writes, writes]
    simp only [List.map_append, List.append_assoc]
  acknowledged delivery member :=
    (List.mem_append.1 member).elim (early.acknowledged delivery) (late.acknowledged delivery)
  refused := late.refused
  order := by
    rw [List.append_assoc, List.map_append, early.complete rfl]
    exact (List.prefix_append_right_inj due).2 late.order
  complete ended := by rw [List.map_append, early.complete rfl, late.complete ended]
  made delivery member := by
    rw [List.append_assoc, List.mem_append] at member
    exact member.elim (fun first => early.made delivery (List.mem_append_left _ first))
      (late.made delivery)
  fresh delivery member := by
    rw [List.append_assoc, List.mem_append] at member
    rcases member with first | second
    · exact early.fresh delivery (List.mem_append_left _ first)
    · exact ((early.stale _ _).1 (late.fresh delivery second)).1
  stale label region := by
    rw [late.stale, early.stale, and_assoc]
    exact and_congr_right fun _ => List.forall_mem_append.symm
  keyed filed := late.keyed (early.keyed filed)
  others label absent := by
    rw [late.others label fun delivery member => absent delivery (List.mem_append_right _ member)]
    exact early.others label fun delivery member => absent delivery (List.mem_append_left _ member)
  copies delivery member := by
    rcases List.mem_append.1 member with first | second
    · exact late.kept _ _ _
        (fun other isLate same => early.region_ne late parts first isLate same)
        (early.copies delivery first)
    · exact late.copies delivery second
  kept core region data different stored := by
    apply late.kept core region data
    · exact fun delivery member => different delivery (List.mem_append_right _ member)
    · exact early.kept core region data
        (fun delivery member => different delivery (List.mem_append_left _ member)) stored

/-- A run that has ended early has done nothing of what would have come after. -/
theorem stop (early : Account plan folders origin due before done attempt after false)
    (more : List (String × RegionId)) :
    Account plan folders origin (due ++ more) before done attempt after false :=
  { early with
    order := early.order.trans (List.prefix_append due more)
    complete := nofun }

end Account

/-! ## Runs with an account -/

/-- A run has an account of what is due, unless the disk failed. -/
def Accounted (plan : Plan) (folders : Folders) (origin : OrderedMap String Vertex)
    (due : List (String × RegionId)) (before : State (Watched σ))
    (ran : Except Fault α × State (Watched σ)) : Prop :=
  (∃ message, ran.1 = .error (.operation (.disk message))) ∨
    ∃ done attempt, Account plan folders origin due before done attempt ran.2 ran.1.isOk

/-- **Runs in turn.** The second is due what it is due after the first is done. -/
theorem Accounted.bind {first : Action (State (Watched σ)) α}
    {next : α → Action (State (Watched σ)) β} (parts : plan.Parts due more)
    (early : Accounted plan folders origin due before (first.runOn before))
    (late : ∀ answer middle done, first.runOn before = (.ok answer, middle) →
      Account plan folders origin due before done none middle true →
      Accounted plan folders origin more middle ((next answer).runOn middle)) :
    Accounted plan folders origin (due ++ more) before ((first >>= next).runOn before) := by
  rw [Action.runOn_bind]
  rcases ran : first.runOn before with ⟨result, middle⟩
  rw [ran] at early
  obtain ⟨message, failed⟩ | ⟨done, attempt, account⟩ := early
  · dsimp only at failed
    subst failed
    exact .inl ⟨message, rfl⟩
  cases result with
  | error fault => exact .inr ⟨done, attempt, account.stop more⟩
  | ok answer =>
    -- All that was due is done, which leaves nothing that could have failed.
    have none : attempt = none := by
      have shorter := account.order.length_le
      rw [← account.complete rfl, List.length_map, List.length_map, List.length_append] at shorter
      cases attempt with
      | none => rfl
      | some delivery =>
        rw [Option.toList_some, List.length_singleton] at shorter
        omega
    subst none
    obtain ⟨message, failed⟩ | ⟨later, attempt, next⟩ := late answer middle done ran account
    · exact .inl ⟨message, failed⟩
    · exact .inr ⟨done ++ later, attempt, account.trans next parts⟩

/-- Nothing of what an account speaks of has changed. -/
structure Untouched (before after : State (Watched σ)) : Prop where
  vertices : after.vertices = before.vertices
  files : after.files = before.files
  writes : after.site.machine.writes = before.site.machine.writes

/-- The account of a run that changed no vertex and no file, with the write that failed if there
was one. -/
theorem Account.still (vertices : after.vertices = before.vertices)
    (files : after.files = before.files)
    (writes : after.site.machine.writes =
      before.site.machine.writes ++ attempt.toList.map Delivery.call)
    (failed : ∀ delivery ∈ attempt.toList, ¬ delivery.Acknowledged ∧ delivery.Due σ plan origin ∧
      delivery.region ∈ staleRegions before.vertices delivery.label)
    (order : attempt.toList.map Delivery.key <+: due) (nothing : finished = true → due = []) :
    Account plan folders origin due before [] attempt after finished where
  writes := writes
  acknowledged := nofun
  refused delivery member := (failed delivery (Option.mem_toList.2 member)).1
  order := order
  complete ended := (nothing ended).symm
  made delivery member := (failed delivery member).2.1
  fresh delivery member := (failed delivery member).2.2
  stale label region := by
    rw [vertices]
    exact ⟨fun member => ⟨member, nofun⟩, And.left⟩
  keyed filed := by rwa [vertices]
  others label _ := by rw [vertices]
  copies := nofun
  kept core region data _ stored := by rwa [files]

/-- The account of a run that did nothing. It has not answered, or there was nothing to do. -/
theorem Account.idle (same : Untouched before after) (nothing : finished = true → due = []) :
    Account plan folders origin due before [] none after finished := by
  refine .still same.vertices same.files ?_ nofun List.nil_prefix nothing
  rw [same.writes]
  exact (List.append_nil _).symm

/-- A run that does nothing, of which nothing is due. -/
theorem Accounted.idle {ran : Except Fault α × State (Watched σ)} (same : Untouched before ran.2)
    (nothing : ran.1.isOk = true → due = []) :
    Accounted plan folders origin due before ran :=
  .inr ⟨[], none, .idle same nothing⟩

end

end MeshControl.Reload
