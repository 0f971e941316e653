import MeshControl.Proofs.Vertex.Specification

/-!
# Where vertices send to

A vertex that sends to a host has the slot of a tag in its configuration. It searches the tags of
the run for one, and takes the first that it finds. A source looks for its own host and port, so it
finds a tag that goes there. A gatherer looks for the tags of its class on its port and does not
look at the host: its events go where the first of them goes, and that is its own host only if no
tag with another one comes before (`Vertex.slot_reaches_iff`).
-/

namespace MeshControl

/-- A slot of the run's tags forwards to an endpoint. -/
def Context.Reaches (context : Context) (slot : UInt32) (host : IpAddress) (port : UInt16) : Prop :=
  ∃ tag ∈ context.ipTags, tag.slot.toUInt32 = slot ∧ tag.host = host ∧ tag.port = port

/-- The place of the slot among the words of a configuration. -/
def slotPlace : Nat := 9

namespace Source

/-- The slot of a source is that of a tag to the endpoint of its notifications. -/
theorem reaches_of_configuration {source : Source} {context : Context} {sending : Sending}
    {words : List UInt32} (sends : source.sending = some sending)
    (configured : source.configurationWords context = .ok words) :
    ∃ slot, words[slotPlace]? = some slot ∧
      context.Reaches slot sending.notification.host sending.notification.port := by
  unfold configurationWords at configured
  simp only [sends] at configured
  obtain ⟨tag, looked, configured⟩ := exists_of_bind_eq_ok configured
  cases configured
  unfold findNotificationTag at looked
  split at looked
  · rename_i tag' found
    cases looked
    have suits := List.find?_some found
    rw [Bool.and_eq_true, decide_eq_true_iff, decide_eq_true_iff] at suits
    refine ⟨tag.slot.toUInt32, ?_, tag, List.mem_of_find?_eq_some found, rfl, suits⟩
    cases (source.routedKeys context).overlay <;> cases (source.routedKeys context).pattern <;> rfl
  · cases looked

end Source

namespace Gatherer

/-- The first tag of the gatherers' class on the port of a gatherer. -/
def firstTag? (gatherer : Gatherer) (context : Context) : Option IpTag :=
  (context.ipTags.filter fun tag => tag.traffic = traffic ∧ tag.port = gatherer.port).head?

theorem findTag_eq_ok {gatherer : Gatherer} {context : Context} {tag : IpTag}
    (found : gatherer.findTag context = .ok tag) : gatherer.firstTag? context = some tag := by
  unfold findTag at found
  split at found
  · rename_i other first
    cases found
    rw [firstTag?, List.head?_filter, ← first]
    congr 1
    funext tag
    exact Bool.decide_and ..
  · cases found

/-- The slot of a gatherer is that of the first tag of its class on its port. -/
theorem slot_of_configuration {gatherer : Gatherer} {context : Context} {words : List UInt32}
    (configured : gatherer.configurationWords context = .ok words) :
    ∃ tag, gatherer.firstTag? context = some tag ∧
      words[slotPlace]? = some tag.slot.toUInt32 := by
  obtain ⟨tag, found, made⟩ := exists_of_bind_eq_ok configured
  cases made
  refine ⟨tag, findTag_eq_ok found, ?_⟩
  cases gatherer.halfPrefix <;> rfl

/-- What the first tag is like. -/
theorem firstTag?_spec {gatherer : Gatherer} {context : Context} {tag : IpTag}
    (first : gatherer.firstTag? context = some tag) :
    tag ∈ context.ipTags ∧ tag.traffic = traffic ∧ tag.port = gatherer.port := by
  have listed := List.mem_filter.1 (List.mem_of_head? first)
  exact ⟨listed.1, of_decide_eq_true listed.2⟩

end Gatherer

namespace Vertex

/-- The number of the configuration region, which is the same for all vertices. -/
def configurationRegion : RegionId := 1

/-- The tag that a vertex asks for, if it sends to a host and the slot is fixed. -/
def tag? : Vertex → Option IpTag
  | .source origin => origin.notificationTag
  | .gatherer sink => some sink.ipTag
  | .plain _ => none

/-- The tags of a run are those that some vertices ask for, in any order and in slots of their
own. -/
structure Tagged (context : Context) (vertices : List Vertex) : Prop where
  tags : context.ipTags.Perm (vertices.filterMap tag?)
  slots : (context.ipTags.map IpTag.slot).Nodup

/-- The endpoint of a vertex is reached whatever comes before its own tag. -/
def Leads (vertex : Vertex) (context : Context) : Prop :=
  match vertex with
  | .gatherer sink => ∃ first, sink.firstTag? context = some first ∧ first.host = sink.host
  | .source _ | .plain _ => True

section

variable {context : Context} {vertices : List Vertex} {vertex : Vertex} {tag : IpTag}
  {generator : Site.Generator Context}

theorem Tagged.mem_ipTags (tagged : Tagged context vertices) (member : vertex ∈ vertices)
    (asks : vertex.tag? = some tag) : tag ∈ context.ipTags :=
  tagged.tags.mem_iff.2 (List.mem_filterMap.2 ⟨vertex, member, asks⟩)

/-- What a source with a fixed slot asks for. -/
theorem exists_sending_of_tag? {source : Source} (asks : (Vertex.source source).tag? = some tag) :
    ∃ sending, source.sending = some sending ∧ tag.host = sending.notification.host ∧
      tag.port = sending.notification.port ∧ tag.traffic = "DEFAULT" := by
  change source.notificationTag = some tag at asks
  unfold Source.notificationTag at asks
  obtain ⟨sending, sends, asks⟩ := Option.bind_eq_some_iff.1 asks
  obtain ⟨slot, -, asks⟩ := Option.bind_eq_some_iff.1 asks
  cases asks
  exact ⟨sending, sends, rfl, rfl, rfl⟩

/-- No vertex whose tag was allocated lacks one. -/
theorem Tagged.generate_ne (tagged : Tagged context vertices) (member : vertex ∈ vertices)
    (asks : vertex.tag? = some tag) (kind : vertex.generator? = some generator) :
    generator.generate context ≠
      .error (.configuration (.missingNotificationTag vertex.label)) := by
  have allocated := tagged.mem_ipTags member asks
  cases vertex with
  | source origin =>
    cases kind
    obtain ⟨sending, sends, host, port, -⟩ := exists_sending_of_tag? asks
    have outcome := origin.generate_cases context
    unfold Source.lacks at outcome
    rw [sends] at outcome
    dsimp only at outcome
    intro failed
    change origin.generate context = _ at failed
    by_cases unkeyed : origin.keys.pattern = none ∧ context.routed = none
    · rw [if_pos unkeyed] at outcome
      cases failed.symm.trans outcome
    · rw [if_neg unkeyed, if_pos ⟨tag, allocated, host, port⟩] at outcome
      obtain ⟨words, buffer, makes⟩ := outcome
      obtain ⟨program, execution, generated, -⟩ := makes.generate_spec
      cases failed.symm.trans generated
  | gatherer sink =>
    cases kind
    cases asks
    have outcome := sink.generate_cases context
    unfold Gatherer.lacks at outcome
    rw [if_pos ⟨sink.ipTag, allocated, rfl, rfl⟩] at outcome
    obtain ⟨program, execution, generated, -⟩ := outcome
    intro failed
    cases failed.symm.trans generated
  | plain label => cases kind

/-- Only gatherers ask for tags of their class. -/
theorem Tagged.exists_gatherer (tagged : Tagged context vertices) (member : tag ∈ context.ipTags)
    (gathers : tag.traffic = Gatherer.traffic) :
    ∃ sink, Vertex.gatherer sink ∈ vertices ∧ tag = sink.ipTag := by
  obtain ⟨vertex, listed, asks⟩ := List.mem_filterMap.1 (tagged.tags.mem_iff.1 member)
  cases vertex with
  | source origin =>
    obtain ⟨-, -, -, -, other⟩ := exists_sending_of_tag? asks
    rw [other] at gathers
    exact absurd gathers (by decide)
  | gatherer sink => exact ⟨sink, listed, (Option.some.inj asks).symm⟩
  | plain label => cases asks

/-- The slot of the first tag leads to the host of that tag alone, since no other tag has it. -/
theorem Tagged.reaches_first_iff (tagged : Tagged context vertices) {sink : Gatherer}
    {first : IpTag} (isFirst : sink.firstTag? context = some first) :
    context.Reaches first.slot.toUInt32 sink.host sink.port ↔ first.host = sink.host := by
  obtain ⟨listed, -, port⟩ := Gatherer.firstTag?_spec isFirst
  constructor
  · rintro ⟨other, hasOther, sameSlot, sameHost, -⟩
    have slot : other.slot = first.slot := UInt8.toUInt32_inj.1 sameSlot
    have same := List.inj_on_of_nodup_map tagged.slots hasOther listed slot
    rw [← same, sameHost]
  · intro sameHost
    exact ⟨first, listed, rfl, sameHost, port⟩

/-- The words that a vertex has made of its configuration. -/
def Configures (vertex : Vertex) (context : Context) (words : List UInt32) : Prop :=
  match vertex with
  | .source origin => origin.configurationWords context = .ok words
  | .gatherer sink => sink.configurationWords context = .ok words
  | .plain _ => False

/-- The configuration region holds the words of the configuration. -/
theorem exists_configuration (kind : vertex.generator? = some generator)
    {program : Spec.Program} (made : generator.generate context = .ok program) :
    ∃ execution image words, program.execute = .ok execution ∧
      execution.image? configurationRegion = some image ∧ Bytes.words image.data = words ∧
      vertex.Configures context words := by
  cases vertex with
  | source origin =>
    cases kind
    obtain ⟨words, buffer, makes⟩ := Source.exists_makes_of_generate made
    obtain ⟨other, execution, generated, executed, fills⟩ := makes.generate_spec
    cases generated.symm.trans made
    have filled : execution.Fills origin.regions fun id =>
        Bytes.ofWords (origin.wordsOf context words buffer id) := fills
    have found := filled.image?_of_mem origin.regions_numbered.2
      Source.Has.configuration.mem_regions
    exact ⟨execution, _, words, executed, found, Bytes.words_ofWords words, makes.configuration⟩
  | gatherer sink =>
    cases kind
    obtain ⟨words, configured⟩ := Gatherer.exists_words_of_generate made
    obtain ⟨other, execution, generated, executed, fills⟩ := Gatherer.generate_fills configured
    cases generated.symm.trans made
    have listed : (⟨Gatherer.configurationRegion, 48, "CONFIG", false⟩ : Region) ∈
        Gatherer.regions := by simp [Gatherer.regions]
    have found := fills.image?_of_mem Gatherer.regions_numbered.2 listed
    exact ⟨execution, _, words, executed, found, Bytes.words_ofWords words, configured⟩
  | plain label => cases kind

/-- **Where a vertex sends to.** The tags of a run are those that its vertices ask for, in any
order, each in a slot of its own. Then no vertex misses a tag, and the slot in the configuration of
one that makes a specification is that of a tag on its own port. It forwards to the vertex's own
endpoint exactly if the vertex is a source, or the first of the gatherers' tags on its port goes to
its host; so it does if the gatherers on its port all have its host. -/
theorem slot_reaches_iff (tagged : Tagged context vertices) (member : vertex ∈ vertices)
    (asks : vertex.tag? = some tag) (kind : vertex.generator? = some generator) :
    generator.generate context ≠
        .error (.configuration (.missingNotificationTag vertex.label)) ∧
      ∀ {program}, generator.generate context = .ok program →
        ∃ execution image slot, program.execute = .ok execution ∧
          execution.image? configurationRegion = some image ∧
          (Bytes.words image.data)[slotPlace]? = some slot ∧
          (∃ host, context.Reaches slot host tag.port) ∧
          (context.Reaches slot tag.host tag.port ↔ vertex.Leads context) ∧
          ((∀ other, Vertex.gatherer other ∈ vertices → other.port = tag.port →
            other.host = tag.host) → context.Reaches slot tag.host tag.port) := by
  refine ⟨tagged.generate_ne member asks kind, ?_⟩
  intro program made
  obtain ⟨execution, image, words, executed, found, rfl, configures⟩ :=
    exists_configuration kind made
  cases vertex with
  | source origin =>
    obtain ⟨sending, sends, host, port, -⟩ := exists_sending_of_tag? asks
    obtain ⟨slot, here, reaches⟩ := Source.reaches_of_configuration sends configures
    rw [← host, ← port] at reaches
    exact ⟨execution, image, slot, executed, found, here, ⟨_, reaches⟩,
      iff_of_true reaches trivial, fun _ => reaches⟩
  | gatherer sink =>
    cases asks
    obtain ⟨first, isFirst, here⟩ := Gatherer.slot_of_configuration configures
    obtain ⟨listed, gathers, port⟩ := Gatherer.firstTag?_spec isFirst
    have only := tagged.reaches_first_iff isFirst
    refine ⟨execution, image, first.slot.toUInt32, executed, found, here,
      ⟨first.host, first, listed, rfl, rfl, port⟩, ?_, ?_⟩
    · refine only.trans ⟨fun same => ⟨first, isFirst, same⟩, ?_⟩
      rintro ⟨other, isOther, same⟩
      cases isFirst.symm.trans isOther
      exact same
    · intro sameHosts
      obtain ⟨other, hasOther, rfl⟩ := tagged.exists_gatherer listed gathers
      exact only.2 (sameHosts other hasOther port)
  | plain label => cases asks

end

namespace Shared

/-- Two gatherers on one port, with hosts of their own. -/
def near : Gatherer := { label := "near", host := .loopback, slot := 1 }

def far : Gatherer := { label := "far", host := ⟨10, 0, 0, 2⟩, slot := 2 }

/-- A source that notifies a third endpoint. -/
def source : Source where
  label := "source"
  board := none
  live := none
  keys := ⟨1, some ⟨0x10000, 0xFFFFFFFF⟩, some ⟨0x10000, .upper⟩⟩
  checkKeys := false
  sending := some ⟨.shared [], 64, 16, ⟨.loopback, 17896, some 3⟩⟩
  recording := none
  dirty := .empty

def vertices : List Vertex := [.gatherer near, .source source, .gatherer far]

/-- A run with the tags of all three, the last first. -/
def context : Context where
  timing := ⟨1000, 1, 0, some 100⟩
  ipTags := [{ board := none, slot := 3, host := .loopback, port := 17896, strip := true },
    near.ipTag, far.ipTag]

theorem tagged : Tagged context vertices := by
  refine ⟨?_, by decide⟩
  show List.Perm [_, near.ipTag, far.ipTag] [near.ipTag, _, far.ipTag]
  exact .swap ..

end Shared

/-- The second gatherer on a port sends to the host of the first. -/
theorem slot_reaches_iff_shared :
    Tagged Shared.context Shared.vertices ∧ .gatherer Shared.far ∈ Shared.vertices ∧
      (Vertex.gatherer Shared.far).tag? = some Shared.far.ipTag ∧
      (Vertex.gatherer Shared.far).generator? = some Shared.far.generator ∧
      ∃ program execution image slot, Shared.far.generator.generate Shared.context = .ok program ∧
        program.execute = .ok execution ∧ execution.image? configurationRegion = some image ∧
        (Bytes.words image.data)[slotPlace]? = some slot ∧
        ¬ Shared.context.Reaches slot Shared.far.host Shared.far.port := by
  have member : .gatherer Shared.far ∈ Shared.vertices := by simp [Shared.vertices]
  refine ⟨Shared.tagged, member, rfl, rfl, ?_⟩
  obtain ⟨-, reaches⟩ := slot_reaches_iff Shared.tagged member
    (rfl : _ = some Shared.far.ipTag) (rfl : _ = some Shared.far.generator)
  cases made : Shared.far.generator.generate Shared.context with
  | error fault =>
    have makes : (Shared.far.generator.generate Shared.context).isOk = true := by decide +kernel
    rw [made] at makes
    cases makes
  | ok program =>
    obtain ⟨execution, image, slot, executed, found, here, -, iff, -⟩ := reaches made
    refine ⟨program, execution, image, slot, rfl, executed, found, here, ?_⟩
    rw [show Shared.far.ipTag.host = Shared.far.host from rfl] at iff
    rw [show Shared.far.port = Shared.far.ipTag.port from rfl, iff]
    rintro ⟨first, isFirst, same⟩
    have others : Shared.far.firstTag? Shared.context = some Shared.near.ipTag := by decide
    cases others.symm.trans isFirst
    exact absurd same (by decide)

end Vertex

end MeshControl
