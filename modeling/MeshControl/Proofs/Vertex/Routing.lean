import MeshControl.Proofs.Key.Block
import MeshControl.Proofs.SendBuffer.Filling
import MeshControl.Vertex.Source

/-!
# The keys of a source and the constraint it exports

A source with a base key exports it as a constraint on routing. Each key it sends is the base key
plus the number of a channel. The constraint covers all of them if the base key has no bits in the
range of the channels, and a base key with a prefix never has. Without a prefix such a key is
accepted with a warning, and then the channels whose numbers carry out of the range are not
covered (`sent_covered`).
-/

namespace MeshControl.Source

open Key

/-- The keys of a source that was built are those that its settings resolve to. -/
theorem resolve_of_build {settings : Settings} {source : Source}
    (built : build settings = .ok source) :
    Allocation.resolve settings.count settings.key settings.halfPrefix = .ok source.keys := by
  obtain ⟨keys, resolved, built⟩ := exists_of_bind_eq_ok built
  obtain ⟨sending, -, built⟩ := exists_of_bind_eq_ok built
  cases built
  exact resolved

/-- How a send buffer was filled. -/
theorem exists_of_fillSendBuffer {source : Source} {context : Context} {buffer : SendBuffer}
    (filled : source.fillSendBuffer context = .ok (some buffer)) :
    ∃ sending pattern, source.sending = some sending ∧
      (source.routedKeys context).pattern = some pattern ∧
      buffer = ((SendBuffer.empty sending.capacity).fill context.timing.tickOf context.timing
        sending.schedule pattern.key source.sendCount).1 := by
  unfold fillSendBuffer at filled
  split at filled
  · cases filled
  · rename_i sending present
    split at filled
    · cases filled
    · rename_i pattern known
      cases filled
      exact ⟨sending, pattern, present, known, rfl⟩

/-- The channels that a fill is for: all that have a key, as far as a word can count. -/
theorem sendCount_toNat (source : Source) :
    source.sendCount.toNat = min source.keys.count 4294967295 := by
  rw [sendCount, UInt32.toNat_ofNat', Nat.mod_eq_of_lt (by omega)]

/-- As far as a word can count, different channels have different keys. -/
theorem channel_eq_of_key_eq {base : Key} {channel other : Nat} (few : channel < 2 ^ 32)
    (fewOther : other < 2 ^ 32)
    (same : base + UInt32.ofNat channel = base + UInt32.ofNat other) : channel = other := by
  have numbers := congrArg UInt32.toNat ((UInt32.add_right_inj base).1 same)
  rwa [UInt32.toNat_ofNat', UInt32.toNat_ofNat', Nat.mod_eq_of_lt few,
    Nat.mod_eq_of_lt fewOther] at numbers

/-- **Where the keys of a source fall.** A source was built, its schedule may have changed since,
and routing has assigned nothing. Every key in its send buffer is the base key plus a channel
below the number of keys, at a tick at which that channel is to send, and different channels have
different keys. So a key of a channel is in the buffer exactly at the ticks of the window at which
its own times say so. The constraint covers the key of a channel exactly if the channel and the low
bits of the base key together stay within the range of the channels. So it covers every key that is
sent if the base key has no such bits, as it never has with a prefix. -/
theorem sent_covered {settings : Settings} {made source : Source}
    (built : build settings = .ok made) (same : source.keys = made.keys) {context : Context}
    (unrouted : context.routed = none) {buffer : SendBuffer}
    (filled : source.fillSendBuffer context = .ok (some buffer)) :
    ∃ sending pattern, source.sending = some sending ∧
      source.keys.constraint = some pattern ∧ settings.key = some pattern.key ∧
      (∀ tick keys, buffer.keysAt? tick = some keys → ∀ key ∈ keys,
        ∃ channel < settings.count, key = pattern.key + UInt32.ofNat channel ∧
          sending.schedule.Sends context.timing.tickOf tick channel) ∧
      (∀ channel < settings.count, ∀ other < settings.count,
        pattern.key + UInt32.ofNat channel = pattern.key + UInt32.ofNat other → channel = other) ∧
      (∀ channel < min settings.count 4294967295, ∀ tick,
        (∃ keys, buffer.keysAt? tick = some keys ∧
            pattern.key + UInt32.ofNat channel ∈ keys) ↔
          context.timing.Within tick ∧
            sending.schedule.Sends context.timing.tickOf tick channel) ∧
      (∀ channel < settings.count,
        pattern.covers (pattern.key + UInt32.ofNat channel) = true ↔
          pattern.mask = 0 ∨
            (pattern.key &&& ~~~pattern.mask).toNat + channel < pattern.keyCount) ∧
      (settings.halfPrefix.isSome = true → pattern.key &&& ~~~pattern.mask = 0) ∧
      (pattern.key &&& ~~~pattern.mask = 0 → ∀ tick keys, buffer.keysAt? tick = some keys →
        ∀ key ∈ keys, pattern.covers key = true) := by
  obtain ⟨sending, pattern, present, known, rfl⟩ := exists_of_fillSendBuffer filled
  rw [routedKeys, unrouted] at known
  obtain ⟨counted, behind⟩ := Allocation.exists_block_of_resolve (resolve_of_build built)
  rw [← same] at counted behind
  obtain ⟨asked, block, allotted, mask, prefixed⟩ := behind pattern known
  obtain ⟨width, frees, room, -⟩ := Block.ofCount_frees allotted
  rw [← mask] at frees
  have channels : source.sendCount.toNat = min settings.count 4294967295 := by
    rw [sendCount_toNat, counted]
  have sent : ∀ tick keys, (((SendBuffer.empty sending.capacity).fill context.timing.tickOf
      context.timing sending.schedule pattern.key source.sendCount).1).keysAt? tick = some keys →
      ∀ key ∈ keys, ∃ channel < settings.count, key = pattern.key + UInt32.ofNat channel ∧
        sending.schedule.Sends context.timing.tickOf tick channel := by
    intro tick keys found key member
    obtain ⟨-, channel, few, sends, sum⟩ :=
      (SendBuffer.mem_keysAt?_fill ..).1 ⟨keys, found, member⟩
    exact ⟨channel, by omega, sum, sends⟩
  have apart : ∀ channel < settings.count, ∀ other < settings.count,
      pattern.key + UInt32.ofNat channel = pattern.key + UInt32.ofNat other → channel = other := by
    intro channel few other fewOther
    have whole : 2 ^ width ≤ 2 ^ 32 := Nat.pow_le_pow_right (by omega) frees.width_le
    exact channel_eq_of_key_eq (by omega) (by omega)
  have covered : ∀ channel < settings.count,
      pattern.covers (pattern.key + UInt32.ofNat channel) = true ↔
        pattern.mask = 0 ∨
          (pattern.key &&& ~~~pattern.mask).toNat + channel < pattern.keyCount :=
    fun channel few => Pattern.covers_add_iff frees (by omega)
  refine ⟨sending, pattern, present, known, asked, sent, apart, ?_, covered, prefixed, ?_⟩
  · intro channel few tick
    rw [SendBuffer.mem_keysAt?_fill, channels]
    refine and_congr_right fun _ => ⟨?_, fun sends => ⟨channel, few, sends, rfl⟩⟩
    rintro ⟨other, fewOther, sends, sum⟩
    rwa [apart channel (by omega) other (by omega) sum]
  · intro none tick keys found key member
    obtain ⟨channel, few, rfl, -⟩ := sent tick keys found key member
    apply (covered channel few).2
    right
    rw [none, Pattern.keyCount_eq frees, UInt32.toNat_zero]
    omega

namespace LowBits

/-- Two keys from an odd base key on, sent at one time. -/
def settings : Settings where
  label := "poisson"
  count := 2
  key := some 0x10001
  schedule := some (.shared [1])
  notification := some ⟨.loopback, 17896, none⟩

/-- What is built from that. -/
def source : Source where
  label := "poisson"
  board := none
  live := none
  keys := ⟨2, some ⟨0x10001, 0xFFFFFFFE⟩, some ⟨0x10001, .upper⟩⟩
  checkKeys := false
  sending := some ⟨.shared [1], defaultCapacity, defaultThreshold, ⟨.loopback, 17896, none⟩⟩
  recording := none
  dirty := .empty

/-- What it is going to send. -/
def buffer : SendBuffer := ⟨defaultCapacity, .ofList [(1, [0x10001, 0x10002])], 2⟩

theorem built : build settings = .ok source := rfl

theorem filled : source.fillSendBuffer ⟨.standard, [], none⟩ = .ok (some buffer) := by
  decide +kernel

end LowBits

/-- Both keys are sent at the one time that is given, and one of them is not covered: its channel and
the low bit of the base key carry. -/
theorem sent_covered_odd :
    build LowBits.settings = .ok LowBits.source ∧
      LowBits.source.fillSendBuffer ⟨.standard, [], none⟩ = .ok (some LowBits.buffer) ∧
      ∃ pattern, LowBits.source.keys.constraint = some pattern ∧
        (∀ channel < 2, ∃ keys, LowBits.buffer.keysAt? 1 = some keys ∧
          pattern.key + UInt32.ofNat channel ∈ keys) ∧
        pattern.covers (pattern.key + UInt32.ofNat 0) = true ∧
        ¬ pattern.covers (pattern.key + UInt32.ofNat 1) = true := by
  refine ⟨LowBits.built, LowBits.filled, ?_⟩
  obtain ⟨sending, pattern, present, known, -, -, -, listed, covered, -⟩ :=
    sent_covered LowBits.built rfl rfl LowBits.filled
  cases present
  cases known
  refine ⟨_, rfl, ?_, ?_, ?_⟩
  · intro channel few
    have fewer : channel < min LowBits.settings.count 4294967295 := few
    exact (listed channel fewer 1).2 ⟨by decide, 1, List.mem_singleton_self _, by decide +kernel⟩
  · apply (covered 0 (by decide)).2
    decide
  · rw [covered 1 (by decide)]
    decide

/-- **The constraint of a source need not cover what it sends.** An odd base key of two keys is
accepted, and the second key lies in the next block. -/
theorem exists_sent_not_covered :
    ∃ settings source context buffer pattern tick keys key,
      build settings = .ok source ∧ context.routed = none ∧
        source.fillSendBuffer context = .ok (some buffer) ∧
        source.keys.constraint = some pattern ∧ buffer.keysAt? tick = some keys ∧ key ∈ keys ∧
        pattern.covers key = false :=
  ⟨LowBits.settings, LowBits.source, ⟨.standard, [], none⟩, LowBits.buffer, ⟨0x10001, 0xFFFFFFFE⟩, 1,
    [0x10001, 0x10002], 0x10002, LowBits.built, rfl, LowBits.filled, rfl, by decide, by decide,
    by decide⟩

end MeshControl.Source
