import Mathlib.Data.List.TakeWhile
import MeshControl.Proofs.SendBuffer.Filling
import MeshControl.Proofs.Stream.Delivery
import MeshControl.Proofs.Vertex.Generation
import MeshControl.Proofs.Vertex.Routing

/-!
# What a send buffer holds at the start of a run

The specification of a source fills the send buffer with the first ticks that fit into it; the
stream of the same source starts with an initial fill of its own. The specification stops at a tick
that is too large for the buffer, where the stream drops such ticks first. So the two agree unless
the first tick is too large and some later one is not (`image_eq_initialFill_iff`).
-/

namespace MeshControl

open SendBuffer (Entry packTicks)
open MeshControl.Stream (hasRoom)

namespace SendBuffer

/-- Packed ticks are whole words. -/
theorem ofWords_words_packTicks (space : Nat) (entries : List Entry) :
    Bytes.ofWords (Bytes.words (packTicks space entries).bytes) =
      (packTicks space entries).bytes := by
  obtain ⟨taken, left, -, packed⟩ := packTicks_packed space entries
  apply Bytes.ofWords_words
  rw [packed.bytes]
  exact four_dvd_length_encode taken

/-- Nothing is packed exactly if there is no first tick that fits. -/
theorem packTicks_eq_nil_iff {space : Nat} {entries : List Entry}
    (full : ∀ entry ∈ entries, entry.2 ≠ []) :
    (packTicks space entries).bytes = [] ↔
      ∀ entry ∈ entries.head?, space < tickSize entry.2.length := by
  obtain ⟨taken, left, split, packed⟩ := packTicks_packed space entries
  constructor
  · intro none entry first
    by_contra fits
    obtain ⟨rest, rfl⟩ : ∃ rest, entries = entry :: rest := by
      cases entries with
      | nil => cases first
      | cons head rest =>
        cases first
        exact ⟨rest, rfl⟩
    have some := packed.taken_ne_nil split (Nat.not_lt.1 fits)
    apply encode_ne_nil (fun other member => full other ?_) some
    · rw [← packed.bytes, none]
    · rw [split]
      exact List.mem_append_left _ member
  · intro large
    cases entries with
    | nil => rfl
    | cons entry rest =>
      have tooLarge := large entry rfl
      rw [packTicks, if_neg (Nat.not_le.2 tooLarge)]

/-- Once the ticks at the start that are too large are left out, nothing is packed exactly if all
are too large. -/
theorem packTicks_dropWhile_eq_nil_iff {capacity : UInt32} {entries : List Entry}
    (full : ∀ entry ∈ entries, entry.2 ≠ []) :
    (packTicks capacity.toNat (entries.dropWhile fun entry => !hasRoom capacity entry)).bytes = [] ↔
      ∀ entry ∈ entries, hasRoom capacity entry = false := by
  have none : (∀ entry ∈ entries, hasRoom capacity entry = false) ↔
      (entries.dropWhile fun entry => !hasRoom capacity entry) = [] := by
    simp [List.dropWhile_eq_nil_iff]
  rw [none, packTicks_eq_nil_iff fun entry member =>
    full entry ((List.dropWhile_sublist _).subset member)]
  constructor
  · intro small
    cases kept : entries.dropWhile fun entry => !hasRoom capacity entry with
    | nil => rfl
    | cons entry others =>
      -- The first tick that is kept has room, and is too large.
      have fits := List.head?_dropWhile_not (fun entry => !hasRoom capacity entry) entries
      rw [kept] at fits small
      have roomy : hasRoom capacity entry = true := by simpa using fits
      exact absurd (of_decide_eq_true roomy) (Nat.not_le.2 (small entry rfl))
  · intro gone entry first
    rw [gone] at first
    cases first

/-- Leaving out the ticks at the start that are too large makes no difference exactly if there are
none, or if there are no others. -/
theorem packTicks_eq_dropWhile_iff {capacity : UInt32} {entries : List Entry}
    (full : ∀ entry ∈ entries, entry.2 ≠ []) :
    (packTicks capacity.toNat entries).bytes =
        (packTicks capacity.toNat (entries.dropWhile fun entry => !hasRoom capacity entry)).bytes ↔
      (∀ entry ∈ entries.head?, hasRoom capacity entry = true) ∨
        ∀ entry ∈ entries, hasRoom capacity entry = false := by
  cases entries with
  | nil => exact iff_of_true rfl (.inr fun entry member => nomatch member)
  | cons first rest =>
    cases room : hasRoom capacity first with
    | true =>
      refine iff_of_true ?_ (.inl ?_)
      · rw [List.dropWhile_cons_of_neg (by simp [room])]
      · rintro entry ⟨⟩
        exact room
    | false =>
      have tooLarge : ∀ entry ∈ (first :: rest).head?, capacity.toNat < tickSize entry.2.length := by
        rintro entry ⟨⟩
        exact Nat.not_le.1 (of_decide_eq_false room)
      rw [(packTicks_eq_nil_iff full).2 tooLarge, eq_comm, packTicks_dropWhile_eq_nil_iff full]
      refine ⟨.inr, ?_⟩
      rintro (fits | none)
      · have roomy := fits first rfl
        rw [room] at roomy
        cases roomy
      · exact none

/-- A filled buffer has ticks of the window only. -/
theorem ticksFrom_fill {τ : Type} (buffer : SendBuffer) (tickOf : τ → Option Tick)
    (timing : Timing) (schedule : Schedule τ) (base : Key) (count : UInt32) :
    let filled := (buffer.fill tickOf timing schedule base count).1
    filled.ticksFrom timing.first = filled.ticks.entries := by
  intro filled
  rw [ticksFrom, OrderedMap.entriesFrom, List.filter_eq_self]
  rintro ⟨tick, keys⟩ member
  obtain ⟨⟨first, -⟩, -⟩ := (mem_entries_fill ..).1 member
  rw [before_word]
  simpa using first

end SendBuffer

/-! ## The stream -/

namespace Stream.Streamer

/-- A chunk for the whole buffer starts with the first tick that the core has room for. -/
theorem takeTicks_whole (streamer : Streamer) (entries : List Entry) :
    (streamer.takeTicks streamer.flow.capacity.toNat entries).1.getD [] =
      (packTicks streamer.flow.capacity.toNat
        (entries.dropWhile fun entry => !hasRoom streamer.flow.capacity entry)).bytes := by
  induction entries generalizing streamer with
  | nil => rfl
  | cons entry rest ih =>
    obtain ⟨tick, keys⟩ := entry
    rw [takeTicks, List.dropWhile_cons]
    by_cases fits : SendBuffer.tickSize keys.length ≤ streamer.flow.capacity.toNat
    · have room : hasRoom streamer.flow.capacity (tick, keys) = true := decide_eq_true fits
      rw [if_pos fits, room, Bool.not_true, if_neg Bool.false_ne_true]
      exact Option.getD_some
    · have large : hasRoom streamer.flow.capacity (tick, keys) = false := decide_eq_false fits
      rw [if_neg fits, if_pos (Nat.not_le.1 fits), large, Bool.not_false, if_pos rfl]
      exact ih { streamer with
        next := rest.head?.map Prod.fst
        dropped := streamer.dropped + 1 }

/-- The initial fill of a fresh stream. -/
theorem initialFill_start (buffer : SendBuffer) (capacity threshold : UInt32) :
    (start buffer (.start capacity threshold)).initialFill.1 =
      .ok (packTicks capacity.toNat
        (buffer.ticks.entries.dropWhile fun entry => !hasRoom capacity entry)).bytes := by
  have fresh := takeTicks_whole (start buffer (.start capacity threshold)) buffer.ticks.entries
  rw [initialFill]
  show Except.ok (((start buffer (.start capacity threshold)).take capacity.toNat).1.getD []) = _
  congr 1
  rw [take]
  cases entries : buffer.ticks.entries with
  | nil =>
    have next : (start buffer (.start capacity threshold)).next = none := by
      rw [start, SendBuffer.firstTick?, OrderedMap.firstKey?, entries]
      rfl
    rw [next]
    rfl
  | cons entry rest =>
    have next : (start buffer (.start capacity threshold)).next = some entry.1 := by
      rw [start, SendBuffer.firstTick?, OrderedMap.firstKey?, entries]
      rfl
    have all : buffer.ticksFrom entry.1 = entry :: rest :=
      OrderedMap.entriesFrom_of_split (entries.trans (List.nil_append _).symm)
    rw [next]
    rw [entries] at fresh
    dsimp only
    rw [show (start buffer (.start capacity threshold)).buffer = buffer from rfl, all]
    exact fresh

end Stream.Streamer

namespace Source

/-- The image of the send buffer is what is packed from the first tick of the window on. -/
theorem data_imageOf_sendBuffer (source : Source) (context : Context) (words : List UInt32)
    (buffer : SendBuffer) (region : Region) (named : region.id = SourceRegion.sendBuffer.id) :
    (source.imageOf context words (some buffer) region).data =
      (buffer.pack context.timing.first buffer.capacity.toNat).bytes := by
  show Bytes.ofWords (source.wordsOf context words (some buffer) region.id) = _
  rw [named]
  exact SendBuffer.ofWords_words_packTicks ..

/-- **The two ways of preparing a send buffer.** Whenever a source with a schedule makes a
specification, it executes to an image of the send buffer, and the source's stream has an initial
fill. The image holds the first ticks up to the first that does not fit; the initial fill starts
with the first tick that the buffer has room for at all. They are the same exactly if there is
room for the first tick, or for none. -/
theorem image_eq_initialFill_iff {source : Source} {sending : Sending}
    (sends : source.sending = some sending) {context : Context} {program : Spec.Program}
    (made : source.generate context = .ok program) :
    ∃ execution image buffer streamer bytes,
      program.execute = .ok execution ∧
      execution.image? SourceRegion.sendBuffer.id = some image ∧
      source.fillSendBuffer context = .ok (some buffer) ∧
      source.streamer context = .ok (some streamer) ∧
      streamer.initialFill.1 = .ok bytes ∧
      image.data = (packTicks sending.capacity.toNat buffer.ticks.entries).bytes ∧
      bytes = (packTicks sending.capacity.toNat
        (buffer.ticks.entries.dropWhile fun entry => !hasRoom sending.capacity entry)).bytes ∧
      (image.data = bytes ↔
        (∀ entry ∈ buffer.ticks.entries.head?, hasRoom sending.capacity entry = true) ∨
          ∀ entry ∈ buffer.ticks.entries, hasRoom sending.capacity entry = false) := by
  obtain ⟨words, filled, makes⟩ := exists_makes_of_generate made
  obtain ⟨program', execution, generated, executed, images⟩ := makes.generate_spec
  rw [made] at generated
  cases generated
  obtain ⟨none, -⟩ | ⟨other, buffer, same, rfl, capacity, full⟩ := makes.buffer_cases
  · rw [sends] at none
    cases none
  rw [sends] at same
  cases same
  obtain ⟨own, pattern, present, -, spelled⟩ := exists_of_fillSendBuffer makes.sending
  rw [sends] at present
  cases present
  have window : buffer.ticksFrom context.timing.first = buffer.ticks.entries := by
    rw [spelled]
    exact SendBuffer.ticksFrom_fill ..
  have listed : (source.regions.find? fun region => region.id = SourceRegion.sendBuffer.id) =
      some (SourceRegion.sendBuffer.sized sending.capacity) := by
    unfold regions
    rw [sends]
    rfl
  have found := images SourceRegion.sendBuffer.id
  rw [listed, Option.map_some] at found
  have image := source.data_imageOf_sendBuffer context words buffer
    (SourceRegion.sendBuffer.sized sending.capacity) rfl
  rw [SendBuffer.pack, window, capacity] at image
  have streams : source.streamer context =
      .ok (some (.start buffer (.start sending.capacity sending.threshold))) := by
    unfold streamer
    rw [sends, makes.sending]
    rfl
  refine ⟨execution, _, buffer, _, _, executed, found, makes.sending, streams,
    Stream.Streamer.initialFill_start .., image, rfl, ?_⟩
  rw [image]
  exact SendBuffer.packTicks_eq_dropWhile_iff full

namespace Oversized

/-- A source of three keys whose first tick is too large for its buffer. -/
def source : Source where
  label := "poisson"
  board := none
  live := none
  keys := ⟨3, some ⟨0x10000, 0xFFFFFFFC⟩, some ⟨0x10000, .upper⟩⟩
  checkKeys := false
  sending := some ⟨.perKey [[1, 2], [1], [1]], 16, 16, ⟨.loopback, 17896, none⟩⟩
  recording := none
  dirty := .empty

/-- A run from the first tick on. -/
def context : Context where
  timing := .standard
  ipTags := [⟨none, 1, .loopback, 17896, true, "DEFAULT"⟩]

/-- The keys by tick. -/
def buffer : SendBuffer :=
  ⟨16, .ofList [(1, [0x10000, 0x10001, 0x10002]), (2, [0x10000])], 4⟩

theorem makes : source.Makes context [1, 0x10000, 1, 0, 1, 0x10000, 0xFFFFFFFC, 16, 16, 1]
    (some buffer) :=
  ⟨by decide +kernel, by decide +kernel⟩

end Oversized

/-- The image is empty, and the initial fill is not. -/
theorem image_eq_initialFill_iff_oversized :
    ∃ program execution image streamer,
      Oversized.source.generate Oversized.context = .ok program ∧
      program.execute = .ok execution ∧
      execution.image? SourceRegion.sendBuffer.id = some image ∧
      Oversized.source.streamer Oversized.context = .ok (some streamer) ∧
      image.data = [] ∧
      streamer.initialFill.1 = .ok [0x05, 0x40, 1, 0, 2, 0, 0, 0, 0, 0, 1, 0] := by
  obtain ⟨program, -, generated, -⟩ := Oversized.makes.generate_spec
  obtain ⟨execution, image, buffer, streamer, bytes, executed, found, filled, streams, fill, data,
    whole, -⟩ := image_eq_initialFill_iff rfl generated
  rw [Oversized.makes.sending] at filled
  cases filled
  refine ⟨program, execution, image, streamer, generated, executed, found, streams, ?_, ?_⟩
  · rw [data]
    decide +kernel
  · rw [fill, whole]
    decide +kernel

end Source

end MeshControl
