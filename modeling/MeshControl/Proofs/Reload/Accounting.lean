import MeshControl.Machine.Basic
import MeshControl.Proofs.Ordered.Insertion
import MeshControl.Proofs.Reload.Ledger
import MeshControl.Proofs.Spec.Images

/-!
# What a pass did

A pass is told by its writes. They are for the regions that were stale when it began, vertex by
vertex and by number, each at most once. Those that were acknowledged in full are no longer stale
and have their copies. The others are as stale as they were, so the next pass takes them up
(`pass_accounts`).
-/

namespace MeshControl.Reload

variable {σ : Type} {vertices : OrderedMap String Vertex}

/-! ## Stale regions -/

theorem staleRegions_of_source {label : String} {source : Source}
    (filed : vertices.get? label = some (.source source)) :
    staleRegions vertices label = source.dirty.toList := by
  rw [staleRegions, filed]
  rfl

theorem staleRegions_congr {next : OrderedMap String Vertex} {label : String}
    (same : next.get? label = vertices.get? label) :
    staleRegions next label = staleRegions vertices label := by
  rw [staleRegions, staleRegions, same]

/-- Regions are listed by number. -/
theorem staleRegions_ascending (vertices : OrderedMap String Vertex) (label : String) :
    (staleRegions vertices label).Pairwise (· < ·) := by
  unfold staleRegions
  split
  · rename_i source _
    exact source.dirty.members.keys_ascending.imp fun before =>
      UInt8.lt_iff_toNat_lt.2 (of_decide_eq_true before)
  · exact .nil

theorem exists_source_of_stale {label : String} {region : RegionId}
    (stale : region ∈ staleRegions vertices label) :
    ∃ source, vertices.get? label = some (.source source) := by
  unfold staleRegions at stale
  cases filed : vertices.get? label with
  | none =>
    rw [filed] at stale
    cases stale
  | some vertex =>
    rw [filed] at stale
    cases vertex with
    | source source => exact ⟨source, rfl⟩
    | gatherer => cases stale
    | plain => cases stale

/-- What is stale once a region is marked. -/
theorem mem_staleRegions_mark {label : String} {source : Source}
    (filed : vertices.get? label = some (.source source)) (id : RegionId) (name : String)
    (region : RegionId) :
    region ∈ staleRegions (vertices.insert label (.source (source.markReloaded [id]))) name ↔
      region ∈ staleRegions vertices name ∧ (label, id) ≠ (name, region) := by
  by_cases same : label = name
  · subst same
    rw [staleRegions_of_source filed, staleRegions_of_source (OrderedMap.get?_insert_self ..),
      OrderedSet.mem_toList_iff, OrderedSet.mem_toList_iff, Source.markReloaded,
      OrderedSet.contains_eraseAll, Bool.and_eq_true, decide_eq_true_iff, List.mem_singleton,
      and_comm, ne_eq, Prod.mk.injEq, @eq_comm _ id]
    simp only [true_and]
  · rw [staleRegions_congr (OrderedMap.get?_insert_ne _ _ same)]
    simp [same]

section

variable [Transport σ] {plan : Plan} {folders : Folders} {origin : OrderedMap String Vertex}
  {before after : State (Watched σ)} {label : String} {core : Core} {execution : Spec.Execution}

/-! ## One region -/

/-- The account of a write that failed. -/
theorem Account.attempted {delivery : Delivery} (vertices : after.vertices = before.vertices)
    (files : after.files = before.files)
    (writes : after.site.machine.writes = before.site.machine.writes ++ [delivery.call])
    (refused : ¬ delivery.Acknowledged) (due : delivery.Due σ plan origin)
    (fresh : delivery.region ∈ staleRegions before.vertices delivery.label) :
    Account plan folders origin [delivery.key] before [] (some delivery) after false :=
  .still vertices files writes (List.forall_mem_singleton.2 ⟨refused, due, fresh⟩) List.prefix_rfl
    nofun

/-- The account of a write that succeeded, with the region marked and its copy kept. -/
theorem Account.delivered {delivery : Delivery} {source : Source}
    (filed : before.vertices.get? delivery.label = some (.source source))
    (named : source.label = delivery.label)
    (vertices : after.vertices = before.vertices.insert delivery.label
      (.source (source.markReloaded [delivery.region])))
    (writes : after.site.machine.writes = before.site.machine.writes ++ [delivery.call])
    (acknowledged : delivery.Acknowledged) (due : delivery.Due σ plan origin)
    (fresh : delivery.region ∈ staleRegions before.vertices delivery.label)
    (copy : after.files.Stored (imageCopy plan folders.images delivery.core delivery.region)
      delivery.data)
    (kept : ∀ core region data, (core = delivery.core → region ≠ delivery.region) →
      before.files.Stored (imageCopy plan folders.images core region) data →
      after.files.Stored (imageCopy plan folders.images core region) data) :
    Account plan folders origin [delivery.key] before [delivery] none after true where
  writes := writes
  acknowledged := List.forall_mem_singleton.2 acknowledged
  refused := nofun
  order := List.prefix_rfl
  complete _ := rfl
  made := List.forall_mem_singleton.2 due
  fresh := List.forall_mem_singleton.2 fresh
  stale name region := by
    rw [vertices, mem_staleRegions_mark filed, List.forall_mem_singleton]
    rfl
  keyed keyed := by
    rw [vertices]
    exact keyed.insert named
  others name different := by
    rw [vertices]
    exact OrderedMap.get?_insert_ne _ _ (different delivery (List.mem_singleton_self _))
  copies := List.forall_mem_singleton.2 copy
  kept core region data different :=
    kept core region data (different delivery (List.mem_singleton_self _))

/-- What follows a write that succeeded. -/
theorem keepCopies_accounted {source : Source} {image : Spec.Image} {site : Site (Watched σ)}
    {address : UInt32} {answer : Except Fault Nat}
    (filed : before.vertices.get? source.label = some (.source source)) :
    let delivery := Delivery.ofImage source.label core image address answer
    site.machine.writes = before.site.machine.writes ++ [delivery.call] →
      delivery.Acknowledged → delivery.Due σ plan origin →
      delivery.region ∈ staleRegions before.vertices delivery.label →
      Accounted plan folders origin [delivery.key] before
        ((keepCopies plan folders core execution image >>= fun _ =>
          markReloaded source.label image.region.id).runOn { before with site }) := by
  intro delivery writes acknowledged due fresh
  rw [Action.runOn_bind]
  have files := keepCopies_steps plan folders core execution image { before with site }
  have effect := keepCopies_effect plan folders core execution image { before with site }
  rcases keeping : (keepCopies plan folders core execution image).runOn { before with site } with
    ⟨result, copied⟩
  rw [keeping] at files effect
  obtain ⟨now, rfl⟩ := files
  obtain ⟨message, rfl⟩ | ⟨rfl, copy, kept⟩ := effect
  · exact .inl ⟨message, rfl⟩
  · right
    dsimp only
    rw [runOn_markReloaded]
    · exact ⟨[delivery], none, .delivered filed rfl rfl writes acknowledged due fresh copy kept⟩
    · exact filed

/-- **One region** is delivered, or its write fails, or there is none. -/
theorem reloadRegion_accounted (keyed : Keyed before.vertices)
    (placed : plan.placements.get? label = some core) (makes : Makes plan origin label execution)
    {region : RegionId} (due : region ∈ staleRegions origin label)
    (fresh : region ∈ staleRegions before.vertices label) :
    Accounted plan folders origin [(label, region)] before
      ((reloadRegion plan folders label core execution region).runOn before) := by
  obtain ⟨source, filed⟩ := exists_source_of_stale fresh
  obtain rfl : source.label = label := keyed label (.source source) filed
  rw [reloadRegion]
  cases found : execution.image? region with
  | none => exact .idle ⟨rfl, rfl, rfl⟩ nofun
  | some image =>
    obtain rfl : image.region.id = region := by
      obtain ⟨_, _, -, -, executed⟩ := makes
      exact (Spec.Program.execute_fits executed).filed found
    dsimp only
    rw [Action.runOn_bind, runOn_onSite, Action.runOn_onMachine]
    have sent := Watched.runOn_writeImage core image plan.locator before.site.machine
    have mirrors := Action.Mirrors.locate plan.locator core image.region.id before.site.machine
    rcases wrote : (Site.writeImage core image plan.locator).runOn before.site.machine with
      ⟨result, machine⟩
    rw [wrote] at sent
    obtain ⟨lost, same⟩ | ⟨address, answer, located, writes, full⟩ := sent
    · cases result with
      | ok report => cases lost
      | error fault => exact .idle ⟨rfl, rfl, same⟩ nofun
    let delivery := Delivery.ofImage source.label core image address answer
    have isDue : delivery.Due σ plan origin :=
      ⟨due, placed, ⟨execution, image, makes, found, rfl⟩, before.site.machine.inner,
        (congrArg Prod.fst mirrors).trans located⟩
    cases result with
    | error fault =>
      have refused : ¬ delivery.Acknowledged := by
        intro acknowledged
        cases full.2 acknowledged
      have account : Account plan folders origin [delivery.key] before [] (some delivery)
          { before with site := ⟨before.site.loader, machine⟩ } false :=
        .attempted rfl rfl writes refused isDue fresh
      exact .inr ⟨[], some delivery, account⟩
    | ok report => exact keepCopies_accounted filed writes (full.1 rfl) isDue fresh

/-- **Regions in turn.** -/
theorem reloadRegions_accounted (keyed : Keyed before.vertices)
    (placed : plan.placements.get? label = some core) (makes : Makes plan origin label execution)
    {regions : List RegionId} (distinct : regions.Nodup)
    (due : ∀ region ∈ regions, region ∈ staleRegions origin label)
    (fresh : ∀ region ∈ regions, region ∈ staleRegions before.vertices label) :
    Accounted plan folders origin (regions.map (label, ·)) before
      ((regions.forM (reloadRegion plan folders label core execution)).runOn before) := by
  induction regions generalizing before with
  | nil => exact .idle ⟨rfl, rfl, rfl⟩ fun _ => rfl
  | cons region rest ih =>
    obtain ⟨absent, distinct⟩ := List.nodup_cons.1 distinct
    obtain ⟨first, due⟩ := List.forall_mem_cons.1 due
    obtain ⟨firstFresh, fresh⟩ := List.forall_mem_cons.1 fresh
    rw [Action.runOn_forM_cons]
    show Accounted plan folders origin ([(label, region)] ++ rest.map (label, ·)) before _
    refine Accounted.bind ?_ (reloadRegion_accounted keyed placed makes first firstFresh) ?_
    · intro early isEarly late isLate different
      obtain ⟨other, -, rfl⟩ := List.mem_map.1 isLate
      cases List.mem_singleton.1 isEarly
      exact absurd rfl different
    · intro _ middle done _ account
      apply ih (account.keyed keyed) distinct due
      intro other member
      refine (account.stale label other).2 ⟨fresh other member, fun delivery isDone same => ?_⟩
      have listed : delivery.key ∈ [(label, region)] :=
        account.complete rfl ▸ List.mem_map_of_mem isDone
      rw [same, List.mem_singleton] at listed
      cases listed
      exact absent member

/-! ## One vertex -/

theorem reloadSource_accounted {source : Source} (keyed : Keyed before.vertices)
    (filed : before.vertices.get? source.label = some (.source source))
    (begun : origin.get? source.label = some (.source source)) :
    Accounted plan folders origin (source.dirty.toList.map (source.label, ·)) before
      ((reloadSource plan folders source).runOn before) := by
  rw [reloadSource]
  cases placed : plan.placements.get? source.label with
  | none => exact .idle ⟨rfl, rfl, rfl⟩ nofun
  | some core =>
    dsimp only
    rw [Action.runOn_bind, Action.runOn_ofExcept]
    cases generated : source.generate plan.context with
    | error fault => exact .idle ⟨rfl, rfl, rfl⟩ nofun
    | ok program =>
      dsimp only
      rw [Action.runOn_bind, Action.runOn_ofExcept]
      cases executed : program.execute with
      | error fault => exact .idle ⟨rfl, rfl, rfl⟩ nofun
      | ok execution =>
        have makes : Makes plan origin source.label execution :=
          ⟨source, program, begun, generated, executed⟩
        have none (due : List (String × RegionId)) : plan.Parts [] due := nofun
        have last (due : List (String × RegionId)) : plan.Parts due [] := fun _ _ _ => nofun
        show Accounted plan folders origin ([] ++ _) before _
        refine Accounted.bind (none _) (.idle ⟨rfl, rfl, rfl⟩ fun _ => rfl) ?_
        intro _ middle _ reserved _
        have same : Untouched before middle := by
          obtain rfl := congrArg Prod.snd reserved
          exact ⟨rfl, rfl, rfl⟩
        rw [← List.append_nil (source.dirty.toList.map _)]
        refine Accounted.bind (last _) ?_ fun _ _ _ _ _ => .idle ⟨rfl, rfl, rfl⟩ fun _ => rfl
        apply reloadRegions_accounted _ placed makes source.dirty.members.keys_nodup
        · intro region member
          rwa [staleRegions_of_source begun]
        · intro region member
          rwa [same.vertices, staleRegions_of_source filed]
        · rwa [same.vertices]

omit [Transport σ] in
theorem toList_dirty {source : Source} (clean : ¬ source.needsReload = true) :
    source.dirty.toList = [] := by
  rw [Source.needsReload, Bool.not_eq_true, Bool.not_eq_false'] at clean
  rw [OrderedSet.toList, OrderedMap.keys, List.isEmpty_iff.1 clean]
  rfl

/-- **One vertex.** -/
theorem visit_accounted (keyed : Keyed before.vertices)
    (begun : origin.get? label = before.vertices.get? label) :
    Accounted plan folders origin ((staleRegions origin label).map (label, ·)) before
      ((visit plan folders label).runOn before) := by
  rw [visit, Action.runOn_bind, Action.runOn_get]
  dsimp only
  cases filed : before.vertices.get? label with
  | none => exact .idle ⟨rfl, rfl, rfl⟩ fun _ => by rw [staleRegions, begun, filed]; rfl
  | some vertex =>
    cases vertex with
    | gatherer _ => exact .idle ⟨rfl, rfl, rfl⟩ fun _ => by rw [staleRegions, begun, filed]; rfl
    | plain _ => exact .idle ⟨rfl, rfl, rfl⟩ fun _ => by rw [staleRegions, begun, filed]; rfl
    | source source =>
      obtain rfl : source.label = label := keyed label (.source source) filed
      rw [filed] at begun
      rw [staleRegions_of_source begun]
      show Accounted plan folders origin _ before (Action.runOn
        (if source.needsReload then reloadSource plan folders source else pure 0) before)
      by_cases needs : source.needsReload = true
      · rw [if_pos needs]
        exact reloadSource_accounted keyed filed begun
      · rw [if_neg needs]
        exact .idle ⟨rfl, rfl, rfl⟩ fun _ => by rw [toList_dirty needs]; rfl

/-- A visit answers how many regions were stale. -/
theorem visit_count {count : Nat}
    (ran : (visit plan folders label).runOn before = (.ok count, after)) :
    count = (staleRegions before.vertices label).length := by
  rw [visit, Action.runOn_bind, Action.runOn_get] at ran
  dsimp only at ran
  unfold staleRegions
  cases filed : (before.vertices.get? label).bind Vertex.reloadable? with
  | none =>
    rw [filed] at ran
    cases ran
    rfl
  | some source =>
    rw [filed] at ran
    dsimp only at ran ⊢
    by_cases needs : source.needsReload = true
    · rw [if_pos needs, reloadSource] at ran
      cases placed : plan.placements.get? source.label with
      | none =>
        rw [placed] at ran
        cases ran
      | some core =>
        rw [placed] at ran
        obtain ⟨_, _, -, ran⟩ := Action.exists_of_runOn_bind ran
        obtain ⟨_, _, -, ran⟩ := Action.exists_of_runOn_bind ran
        obtain ⟨_, _, -, ran⟩ := Action.exists_of_runOn_bind ran
        obtain ⟨_, _, -, ran⟩ := Action.exists_of_runOn_bind ran
        cases ran
        rfl
    · rw [if_neg needs] at ran
      cases ran
      rw [toList_dirty needs]
      rfl

/-! ## One vertex after another -/

/-- No two vertices are placed on one core. -/
def Plan.Apart (plan : Plan) (labels : List String) : Prop :=
  labels.Pairwise fun first second => ∀ core,
    plan.placements.get? first = some core → plan.placements.get? second ≠ some core

omit [Transport σ] in
theorem mem_agenda {labels : List String} {key : String × RegionId} :
    key ∈ agenda vertices labels ↔ key.1 ∈ labels ∧ key.2 ∈ staleRegions vertices key.1 := by
  rw [agenda, List.mem_flatMap]
  constructor
  · rintro ⟨label, listed, member⟩
    obtain ⟨region, stale, rfl⟩ := List.mem_map.1 member
    exact ⟨listed, stale⟩
  · rintro ⟨listed, stale⟩
    exact ⟨key.1, listed, List.mem_map_of_mem stale⟩

/-- The vertices that are yet to be visited are as they were. -/
theorem Account.rest {due : List RegionId} {done : List Delivery} {attempt : Option Delivery}
    (account : Account plan folders origin (due.map (label, ·)) before done attempt after true)
    {labels : List String} (apart : plan.Apart (label :: labels)) {other : String}
    (listed : other ∈ labels) : after.vertices.get? other = before.vertices.get? other := by
  apply account.others
  rintro delivery isDone rfl
  have member := List.mem_append_left attempt.toList isDone
  obtain ⟨_, -, same⟩ := List.mem_map.1 (account.order.subset (List.mem_map_of_mem member))
  obtain rfl : label = delivery.label := congrArg Prod.fst same
  have placed := (account.made delivery member).placed
  exact (List.pairwise_cons.1 apart).1 _ listed _ placed placed

/-- **Vertices in turn.** A pass that comes to its end has counted what was due. -/
theorem visitAll_accounted {labels : List String} (keyed : Keyed before.vertices)
    (apart : plan.Apart labels)
    (begun : ∀ label ∈ labels, origin.get? label = before.vertices.get? label)
    (summary : Summary) :
    let ran := (visitAll plan summary labels).runOn before
    Accounted plan summary.folders origin (agenda origin labels) before ran ∧
      ∀ total, ran.1 = .ok total → total = { summary with
        visited := summary.visited + labels.length
        reloaded := summary.reloaded +
          labels.countP fun label => !(staleRegions origin label).isEmpty
        regionsWritten := summary.regionsWritten + (agenda origin labels).length } := by
  induction labels generalizing before summary with
  | nil =>
    refine ⟨.idle ⟨rfl, rfl, rfl⟩ fun _ => rfl, ?_⟩
    rintro total ⟨⟩
    rfl
  | cons label rest ih =>
    obtain ⟨here, begun⟩ := List.forall_mem_cons.1 begun
    have first : Accounted plan summary.folders origin
        ((staleRegions origin label).map (label, ·)) before
        ((visit plan summary.folders label).runOn before) :=
      visit_accounted keyed here
    -- What is due of the vertices that are left is what was due when the pass began.
    have later (count : Nat) {middle : State (Watched σ)} {done : List Delivery}
        {attempt : Option Delivery}
        (account : Account plan summary.folders origin ((staleRegions origin label).map (label, ·))
          before done attempt middle true) :=
      ih (account.keyed keyed) (List.pairwise_cons.1 apart).2
        (fun other listed => (begun other listed).trans (account.rest apart listed).symm)
        { summary with
          visited := summary.visited + 1
          reloaded := summary.reloaded + if count = 0 then 0 else 1
          regionsWritten := summary.regionsWritten + count }
    constructor
    · refine Accounted.bind ?_ first fun count middle done _ account => (later count account).1
      intro early isEarly late isLate _
      obtain ⟨_, -, rfl⟩ := List.mem_map.1 isEarly
      exact (List.pairwise_cons.1 apart).1 _ (mem_agenda.1 isLate).1
    · intro total answered
      obtain ⟨count, middle, visited, ran⟩ := Action.exists_of_runOn_bind
        (Prod.ext answered rfl : (visitAll plan summary (label :: rest)).runOn before = (_, _))
      rw [visited] at first
      obtain ⟨_, failed⟩ | ⟨done, attempt, account⟩ := first
      · cases failed
      · have counted := visit_count visited
        rw [← staleRegions_congr here] at counted
        rw [(later count account).2 total (congrArg Prod.fst ran), agenda, agenda,
          List.flatMap_cons, List.length_append, List.length_map, List.countP_cons, counted,
          List.length_cons, Summary.mk.injEq]
        dsimp only
        have one : (if (staleRegions origin label).length = 0 then 0 else 1) =
            if (!(staleRegions origin label).isEmpty) = true then 1 else 0 := by
          cases staleRegions origin label <;> rfl
        refine ⟨?_, ?_, ?_, rfl⟩ <;> omega

/-! ## A pass -/

/-- What is due of vertices that are placed is due once. -/
theorem agenda_parts {labels : List String} (apart : plan.Apart labels) {sent : List Delivery}
    {rest : List (String × RegionId)}
    (order : agenda vertices labels = sent.map Delivery.key ++ rest)
    (due : ∀ delivery ∈ sent, delivery.Due σ plan vertices) :
    (sent.map Delivery.key).Nodup ∧ ∀ delivery ∈ sent, delivery.key ∉ rest := by
  -- A label may be listed twice if it is not placed. Then nothing of it was sent.
  have once : (agenda vertices labels).Pairwise fun early late =>
      early = late → plan.placements.get? early.1 = none := by
    rw [agenda, List.pairwise_flatMap]
    constructor
    · intro label _
      rw [List.pairwise_map]
      refine (staleRegions_ascending vertices label).imp fun less same => ?_
      exact absurd (congrArg Prod.snd same) (UInt8.ne_of_lt less)
    · refine apart.imp fun {first second} apart early isEarly late isLate same => ?_
      obtain ⟨_, -, rfl⟩ := List.mem_map.1 isEarly
      obtain ⟨_, -, rfl⟩ := List.mem_map.1 isLate
      obtain rfl : first = second := congrArg Prod.fst same
      cases placed : plan.placements.get? first with
      | none => rfl
      | some core => exact absurd placed (apart core placed)
  rw [order, List.pairwise_append] at once
  obtain ⟨among, -, across⟩ := once
  constructor
  · rw [List.Nodup]
    rw [List.pairwise_map] at among ⊢
    refine among.imp_of_mem fun {first second} isSent _ once same => ?_
    have placed := (due first isSent).placed
    rw [show plan.placements.get? first.label = none from once same] at placed
    cases placed
  · intro delivery isSent listed
    have placed := (due delivery isSent).placed
    rw [show plan.placements.get? delivery.label = none from
      across _ (List.mem_map_of_mem isSent) _ listed rfl] at placed
    cases placed

/-- What a pass over vertices did, told from the state it began in: the deliveries that are done,
the one that failed if there was one, and what was due later than these. -/
structure Tally (plan : Plan) (labels : List String) (state : State σ)
    (result : Except Fault Summary) (after : State (Watched σ)) (done : List Delivery)
    (attempt : Option Delivery) (later : List (String × RegionId)) : Prop where
  /-- The writes of the pass, in the order in which they were made. -/
  writes : after.site.machine.writes = (done ++ attempt.toList).map Delivery.call
  /-- They are for regions that were stale, vertex by vertex and by number, -/
  order : agenda state.vertices labels = (done ++ attempt.toList).map Delivery.key ++ later
  ascending : ∀ label, (staleRegions state.vertices label).Pairwise (· < ·)
  /-- ... at most one for each. -/
  once : ((done ++ attempt.toList).map Delivery.key).Nodup
  due : ∀ delivery ∈ done ++ attempt.toList, delivery.Due σ plan state.vertices
  acknowledged : ∀ delivery ∈ done, delivery.Acknowledged
  refused : ∀ delivery ∈ attempt, ¬ delivery.Acknowledged
  /-- A region stops being stale exactly if it was delivered, -/
  stale : ∀ label region, region ∈ staleRegions after.vertices label ↔
    region ∈ staleRegions state.vertices label ∧ (label, region) ∉ done.map Delivery.key
  /-- ... and then has its copy in the folder of the pass. -/
  copies : ∀ delivery ∈ done, ∃ images,
    (Archive.uniqueFolder plan.settings.imageParent Archive.reloadFolder state.files).1 =
        .ok images ∧
      after.files.contents (imageCopy plan images delivery.core delivery.region) =
        .ok delivery.data
  /-- Where a pass ends early, the region it failed on and all later ones are still stale, -/
  left : ∀ key ∈ attempt.toList.map Delivery.key ++ later,
    key.2 ∈ staleRegions after.vertices key.1
  /-- ... and the later ones were not written. -/
  unwritten : ∀ key ∈ later, key ∉ (done ++ attempt.toList).map Delivery.key
  /-- A pass that comes to its end has left nothing, and its counts are right. -/
  finished : ∀ summary, result = .ok summary →
    attempt = none ∧ later = [] ∧
      (∀ label ∈ labels, staleRegions after.vertices label = []) ∧
      summary.regionsWritten = after.site.machine.writes.length ∧
      summary.regionsWritten = (agenda state.vertices labels).length ∧
      summary.reloaded = labels.countP (fun label => !(staleRegions state.vertices label).isEmpty) ∧
      summary.visited = labels.length ∧
      (Archive.uniqueFolder plan.settings.imageParent Archive.reloadFolder state.files).1 =
        .ok summary.folders.images

/-- The tally of a pass that has an account. -/
theorem Account.tally {labels : List String} {state : State σ} {result : Except Fault Summary}
    {done : List Delivery} {attempt : Option Delivery} (apart : plan.Apart labels)
    (account : Account plan folders state.vertices (agenda state.vertices labels) before done
      attempt after result.isOk)
    (vertices : before.vertices = state.vertices) (writes : before.site.machine.writes = [])
    (opened : ∀ delivery ∈ done, (Archive.uniqueFolder plan.settings.imageParent
      Archive.reloadFolder state.files).1 = .ok folders.images)
    (counted : ∀ summary, result = .ok summary →
      summary = ⟨labels.length,
          labels.countP fun label => !(staleRegions state.vertices label).isEmpty,
          (agenda state.vertices labels).length, folders⟩ ∧
        (Archive.uniqueFolder plan.settings.imageParent Archive.reloadFolder state.files).1 =
          .ok folders.images) :
    ∃ later, Tally plan labels state result after done attempt later := by
  obtain ⟨later, order⟩ := account.order
  obtain ⟨once, unwritten⟩ := agenda_parts apart order.symm account.made
  have split : agenda state.vertices labels =
      done.map Delivery.key ++ (attempt.toList.map Delivery.key ++ later) := by
    rw [← order, List.map_append, List.append_assoc]
  obtain ⟨-, left⟩ := agenda_parts apart split fun delivery isDone =>
    account.made delivery (List.mem_append_left _ isDone)
  have written : after.site.machine.writes = (done ++ attempt.toList).map Delivery.call := by
    rw [account.writes, writes, List.nil_append]
  have stale (label : String) (region : RegionId) : region ∈ staleRegions after.vertices label ↔
      region ∈ staleRegions state.vertices label ∧ (label, region) ∉ done.map Delivery.key := by
    rw [account.stale, vertices, List.mem_map]
    simp only [not_exists, not_and, ne_eq]
  refine ⟨later, {
    writes := written
    order := order.symm
    ascending := staleRegions_ascending _
    once
    due := account.made
    acknowledged := account.acknowledged
    refused := account.refused
    stale
    copies := ?_
    left := ?_
    unwritten := ?_
    finished := ?_ }⟩
  · exact fun delivery isDone => ⟨folders.images, opened delivery isDone,
      (account.copies delivery isDone).contents⟩
  · intro key listed
    have member : key ∈ agenda state.vertices labels := by
      rw [split]
      exact List.mem_append_right _ listed
    refine (stale key.1 key.2).2 ⟨(mem_agenda.1 member).2, fun isDone => ?_⟩
    obtain ⟨delivery, isDone, same⟩ := List.mem_map.1 isDone
    have same : delivery.key = key := same
    rw [← same] at listed
    exact left delivery isDone listed
  · intro key listed sent
    obtain ⟨delivery, isSent, rfl⟩ := List.mem_map.1 sent
    exact unwritten delivery isSent listed
  · rintro summary rfl
    obtain ⟨rfl, folder⟩ := counted summary rfl
    have all := account.complete rfl
    rw [all, List.self_eq_append_right, List.append_eq_nil_iff, List.map_eq_nil_iff,
      Option.toList_eq_nil_iff] at split
    obtain ⟨rfl, rfl⟩ := split
    rw [Option.toList_none, List.append_nil] at written
    refine ⟨rfl, rfl, ?_, ?_, rfl, rfl, rfl, folder⟩
    · intro label listed
      rw [List.eq_nil_iff_forall_not_mem]
      intro region member
      obtain ⟨before, undone⟩ := (stale label region).1 member
      rw [all] at undone
      exact undone (mem_agenda.2 ⟨listed, before⟩)
    · rw [written, ← all, List.length_map, List.length_map]

/-- A pass ends for want of a folder, or visits the vertices once both are made. -/
theorem pass_cases (plan : Plan) (labels : List String) (state : State σ) :
    (∃ files fault, (pass plan labels).runOn state = (.error fault, { state with files })) ∨
      ∃ files folders,
        (Archive.uniqueFolder plan.settings.imageParent Archive.reloadFolder state.files).1 =
            .ok folders.images ∧
          (pass plan labels).runOn state =
            (visitAll plan ⟨0, 0, 0, folders⟩ labels).runOn { state with files } := by
  rw [runOn_pass, makeFolders]
  rcases Archive.uniqueFolder plan.settings.imageParent Archive.reloadFolder state.files with
    ⟨images, made⟩
  cases images with
  | error fault => exact .inl ⟨made, fault, rfl⟩
  | ok images =>
    dsimp only
    rcases Archive.uniqueFolder plan.settings.reportParent Archive.reloadFolder made with
      ⟨reports, made⟩
    cases reports with
    | error fault => exact .inl ⟨made, fault, rfl⟩
    | ok reports => exact .inr ⟨made, ⟨images, reports⟩, rfl, rfl⟩

/-- **A pass tells exactly what it did**, whether it comes to its end or fails, and wherever it
fails, as long as the copies can be kept. -/
theorem pass_accounts {labels : List String} {state : State σ} (keyed : Keyed state.vertices)
    (apart : plan.Apart labels)
    (kept : ∀ message,
      ((pass plan labels).runOn state).1 ≠ .error (.operation (.disk message))) :
    let seen := (pass plan labels).runOn state.watched
    (pass plan labels).runOn state = (seen.1, seen.2.unwatched) ∧
      ∃ done attempt later, Tally plan labels state seen.1 seen.2 done attempt later := by
  intro seen
  refine ⟨pass_mirrors plan labels state.watched, ?_⟩
  rw [pass_watched] at kept
  obtain ⟨files, fault, ended⟩ | ⟨files, folders, opened, visits⟩ :=
    pass_cases plan labels state.watched
  · rw [show seen = _ from ended]
    have account : Account plan ⟨"", ""⟩ state.vertices (agenda state.vertices labels)
        { state.watched with files } [] none { state.watched with files } false :=
      .idle ⟨rfl, rfl, rfl⟩ nofun
    exact ⟨[], none, account.tally apart rfl rfl nofun nofun⟩
  · have begun : Keyed ({ state.watched with files } : State (Watched σ)).vertices := keyed
    rw [show seen = _ from visits]
    obtain ⟨⟨message, failed⟩ | ⟨done, attempt, account⟩, counted⟩ := visitAll_accounted
      begun apart (fun _ _ => rfl) ⟨0, 0, 0, folders⟩
    · rw [visits] at kept
      exact absurd failed (kept message)
    · refine ⟨done, attempt, account.tally apart rfl rfl (fun _ _ => opened) ?_⟩
      intro summary answered
      refine ⟨(counted summary answered).trans ?_, opened⟩
      simp only [Nat.zero_add]
      rfl

end

/-! ## A pass that fails at the second of three vertices -/

namespace Interrupted

/-- Four keys, and nothing to send. -/
def settings (label : String) : Source.Settings where
  label
  count := 4
  key := some 0x10000

/-- What is built from that, once its window has moved: the timing is stale. -/
def source (label : String) : Source where
  label
  board := none
  live := none
  keys := ⟨4, some ⟨0x10000, 0xFFFFFFFC⟩, some ⟨0x10000, .upper⟩⟩
  checkKeys := false
  sending := none
  recording := none
  dirty := .ofList [SourceRegion.timing.id]

theorem built (label : String) :
    ∃ made, Source.build (settings label) = .ok made ∧ made.windowChanged = source label := by
  have keys : Key.Allocation.resolve 4 (some 0x10000) none =
      .ok ⟨4, some ⟨0x10000, 0xFFFFFFFC⟩, some ⟨0x10000, .upper⟩⟩ := rfl
  refine ⟨{ source label with dirty := .empty }, ?_, rfl⟩
  show (Key.Allocation.resolve 4 (some 0x10000) none >>= _) = _
  rw [keys]
  rfl

def labels : List String := ["first", "second", "third"]

/-- The cores of one chip. -/
def core (p : UInt8) (exists_on_chip : Chip.hasCore p = true) : Core :=
  ⟨⟨0, 0⟩, p, exists_on_chip⟩

/-- Each source has a core, and its timing has an address there. -/
def plan : Plan :=
  ⟨⟨"images", "reports", true, "host"⟩,
    .known (.ofList [((core 1 rfl, 0), 0x60000000), ((core 2 rfl, 0), 0x60000100),
      ((core 3 rfl, 0), 0x60000200)]),
    .ofList [("first", core 1 rfl), ("second", core 2 rfl), ("third", core 3 rfl)],
    { timing := .standard }⟩

/-- Half of the write to the second source is going to be lost. -/
def state : State Machine :=
  ⟨.ofList (labels.map fun label => (label, .source (source label))),
    ⟨.empty, Machine.start.shorten ⟨0, 0⟩ 0x60000100⟩, .host⟩

def fault : Fault :=
  .operation (.writeFailed (core 2 rfl) (some 0) 0x60000100 "6 of 12 bytes acknowledged")

theorem keyed : Keyed state.vertices := by
  have filed (vertices : OrderedMap String Vertex) (keyed : Keyed vertices) (label : String) :
      Keyed (vertices.insert label (.source (source label))) :=
    keyed.insert rfl
  exact filed _ (filed _ (filed _ .empty "first") "second") "third"

theorem apart : plan.Apart labels := by
  have distinct : labels.Pairwise fun first second =>
      plan.placements.get? first ≠ plan.placements.get? second := by
    decide
  exact distinct.imp fun different core placed placed' => different (placed.trans placed'.symm)

set_option maxRecDepth 20000 in
theorem fails :
    let seen := (pass plan labels).runOn state.watched
    seen.1 = .error fault ∧ seen.2.site.machine.writes.map (·.answer) = [.ok 12, .ok 6] ∧
      labels.map (staleRegions seen.2.vertices) = [[], [0], [0]] := by
  decide +kernel

end Interrupted

/-- The first source is delivered, the second failed, the third was not come to. -/
theorem pass_accounts_interrupted :
    let seen := (pass Interrupted.plan Interrupted.labels).runOn Interrupted.state.watched
    (∀ label, ∃ made, Source.build (Interrupted.settings label) = .ok made ∧
        made.windowChanged = Interrupted.source label) ∧
      Keyed Interrupted.state.vertices ∧ Interrupted.plan.Apart Interrupted.labels ∧
      (∀ message, ((pass Interrupted.plan Interrupted.labels).runOn Interrupted.state).1 ≠
        .error (.operation (.disk message))) ∧
      seen.1 = .error Interrupted.fault ∧
      seen.2.site.machine.writes.map (·.answer) = [.ok 12, .ok 6] ∧
      Interrupted.labels.map (staleRegions seen.2.vertices) = [[], [0], [0]] ∧
      ∃ done attempt later, Tally Interrupted.plan Interrupted.labels Interrupted.state seen.1
        seen.2 done attempt later := by
  obtain ⟨failed, answers, stale⟩ := Interrupted.fails
  have kept : ∀ message, ((pass Interrupted.plan Interrupted.labels).runOn Interrupted.state).1 ≠
      .error (.operation (.disk message)) := by
    rw [pass_watched, failed]
    exact nofun
  exact ⟨Interrupted.built, Interrupted.keyed, Interrupted.apart, kept, failed, answers, stale,
    (pass_accounts Interrupted.keyed Interrupted.apart kept).2⟩

end MeshControl.Reload
