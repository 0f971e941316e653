import MeshControl.Proofs.Bytes
import MeshControl.Proofs.Outcome
import MeshControl.Scp.Message

/-!
# Messages read back

A port and a core number share a byte, of which the number has the low five bits. A request whose
port fits in the other three is decoded from its datagram as it was (`Request.decode_encode`), and
so is a reply with whatever payload follows it (`Reply.decode_encode_append`).

The other way round, a datagram is taken for a request if its header is whole and names a core that
exists, and the request has the bytes of the datagram that say something (`Request.read`). It is
taken for the reply to a request if its header is whole and has the number of the request
(`Reply.read`). Main statement: `datagrams_read_back`.
-/

namespace MeshControl

namespace Core

/-- Core numbers fit in five bits. -/
theorem toNat_p_lt (core : Core) : core.p.toNat < 32 := by
  have bound := UInt8.le_iff_toNat_le.1 (Chip.hasCore_iff.1 core.exists_on_chip)
  have last : (17 : UInt8).toNat = 17 := rfl
  omega

theorem at_coordinates (core : Core) : Core.at core.x core.y core.p = .ok core := by
  rw [Core.at, at?, dif_pos core.exists_on_chip]
  rfl

/-- The core that is at some coordinates is there because its number exists. -/
theorem at_eq_ok_iff {x y p : UInt8} {core : Core} :
    Core.at x y p = .ok core ↔ core.x = x ∧ core.y = y ∧ core.p = p := by
  constructor
  · intro ok
    rw [Core.at, at?] at ok
    split at ok
    · rename_i found
      split at found
      · cases found
        cases ok
        exact ⟨rfl, rfl, rfl⟩
      · cases found
    · cases ok
  · rintro ⟨rfl, rfl, rfl⟩
    exact core.at_coordinates

theorem exists_at_iff {x y p : UInt8} : (∃ core, Core.at x y p = .ok core) ↔ p ≤ 17 := by
  rw [← Chip.hasCore_iff]
  constructor
  · rintro ⟨core, ok⟩
    obtain ⟨-, -, rfl⟩ := at_eq_ok_iff.1 ok
    exact core.exists_on_chip
  · intro has
    exact ⟨⟨⟨x, y⟩, p, has⟩, at_eq_ok_iff.2 ⟨rfl, rfl, rfl⟩⟩

end Core

namespace Scp

/-- Both parts of a byte are read back. -/
theorem packed_packPort {port p : UInt8} (small : port.toNat < 8) (low : p.toNat < 32) :
    packedPort (packPort port p) = port ∧ packedCore (packPort port p) = p := by
  have all : ∀ port < 8, ∀ p < 32,
      packedPort (packPort (UInt8.ofNat port) (UInt8.ofNat p)) = UInt8.ofNat port ∧
        packedCore (packPort (UInt8.ofNat port) (UInt8.ofNat p)) = UInt8.ofNat p := by
    decide +kernel
  have each := all port.toNat small p.toNat low
  rwa [UInt8.ofNat_toNat, UInt8.ofNat_toNat] at each

/-- A byte is made of its two parts. -/
theorem packPort_packed (packed : UInt8) :
    packPort (packedPort packed) (packedCore packed) = packed := by
  have all : ∀ byte < 256, packPort (packedPort (UInt8.ofNat byte)) (packedCore (UInt8.ofNat byte)) =
      UInt8.ofNat byte := by
    decide +kernel
  have each := all packed.toNat packed.toNat_lt
  rwa [UInt8.ofNat_toNat] at each

theorem toNat_packedPort_lt (packed : UInt8) : (packedPort packed).toNat < 8 := by
  have bounded := packed.toNat_lt
  have shifted : (packedPort packed).toNat = packed.toNat / 32 := by
    rw [packedPort, UInt8.toNat_shiftRight]
    exact Nat.shiftRight_eq_div_pow packed.toNat 5
  omega

theorem toNat_packedCore (packed : UInt8) : (packedCore packed).toNat = packed.toNat % 32 := by
  rw [packedCore, UInt8.toNat_and]
  exact Nat.and_two_pow_sub_one_eq_mod packed.toNat 5

/-- A datagram with a whole header, byte by byte. -/
theorem exists_bytes {datagram : Bytes} (long : headerSize ≤ datagram.length) :
    ∃ b₀ b₁ b₂ b₃ b₄ b₅ b₆ b₇ b₈ b₉ b₁₀ b₁₁ payload, datagram =
      b₀ :: b₁ :: b₂ :: b₃ :: b₄ :: b₅ :: b₆ :: b₇ :: b₈ :: b₉ :: b₁₀ :: b₁₁ :: payload := by
  match datagram with
  | _ :: _ :: _ :: _ :: _ :: _ :: _ :: _ :: _ :: _ :: _ :: _ :: payload =>
    exact ⟨_, _, _, _, _, _, _, _, _, _, _, _, payload, rfl⟩
  | [] | [_] | [_, _] | [_, _, _] | [_, _, _, _] | [_, _, _, _, _] | [_, _, _, _, _, _]
  | [_, _, _, _, _, _, _] | [_, _, _, _, _, _, _, _] | [_, _, _, _, _, _, _, _, _]
  | [_, _, _, _, _, _, _, _, _, _] | [_, _, _, _, _, _, _, _, _, _, _] => simp [headerSize] at long

/-! ## Requests -/

namespace Request

theorem decode_encode (request : Request) (sequence : UInt16) (small : request.port.toNat < 8) :
    decode (request.encode sequence) = .ok (request, sequence) := by
  obtain ⟨port, p⟩ := packed_packPort small request.destination.toNat_p_lt
  show (Core.at _ _ (packedCore _) >>= fun destination => _) = _
  rw [p, Core.at_coordinates, port]
  show Except.ok (Request.mk _ _ (Bytes.half _ _), Bytes.half _ _) = _
  rw [Bytes.half_ofHalf, Bytes.half_ofHalf]

/-- The places of a datagram that say where a request goes, what it asks for, and its number. -/
def places : List Nat := [2, 4, 5, 8, 9, 10, 11]

/-- What comes of a datagram that is read as a request. -/
structure Read (datagram : Bytes) : Prop where
  /-- It is one if its header is whole and the low bits at place 2 are the number of a core. -/
  accepted : (∃ answer, decode datagram = .ok answer) ↔
    headerSize ≤ datagram.length ∧ (datagram.getD 2 0).toNat % 32 ≤ 17
  /-- The request says what the datagram said. -/
  again : ∀ request sequence, decode datagram = .ok (request, sequence) →
    (∀ place ∈ places, (request.encode sequence)[place]? = datagram[place]?) ∧
      decode (request.encode sequence) = .ok (request, sequence)

theorem headerSize_le_of_decode {datagram : Bytes} {answer : Request × UInt16}
    (ok : decode datagram = .ok answer) : headerSize ≤ datagram.length := by
  unfold decode at ok
  split at ok
  · simp only [headerSize, List.length_cons]
    omega
  · cases ok

section Header

variable {flags tag packed source y x row column o₀ o₁ s₀ s₁ : UInt8} {payload : Bytes}

/-- What a whole header is read as. -/
theorem decode_eq_ok_iff {request : Request} {sequence : UInt16} :
    decode (flags :: tag :: packed :: source :: y :: x :: row :: column :: o₀ :: o₁ :: s₀ :: s₁ ::
        payload) = .ok (request, sequence) ↔
      Core.at x y (packedCore packed) = .ok request.destination ∧
        request.port = packedPort packed ∧ request.opcode = Bytes.half o₀ o₁ ∧
        sequence = Bytes.half s₀ s₁ := by
  constructor
  · intro ok
    obtain ⟨core, found, ok⟩ := exists_of_bind_eq_ok ok
    cases ok
    exact ⟨found, rfl, rfl, rfl⟩
  · obtain ⟨destination, port, opcode⟩ := request
    rintro ⟨found, rfl, rfl, rfl⟩
    show (Core.at x y (packedCore packed) >>= fun destination => _) = _
    rw [found]
    rfl

/-- The bytes of the request are those it was read from. -/
theorem encode_of_decode {request : Request} {sequence : UInt16}
    (ok : decode (flags :: tag :: packed :: source :: y :: x :: row :: column :: o₀ :: o₁ :: s₀ ::
      s₁ :: payload) = .ok (request, sequence)) :
    request.encode sequence =
      [replyExpected, hostTag, packed, hostPort, y, x, hostChip, hostChip, o₀, o₁, s₀, s₁] := by
  obtain ⟨found, port, opcode, rfl⟩ := decode_eq_ok_iff.1 ok
  obtain ⟨column, row, p⟩ := Core.at_eq_ok_iff.1 found
  rw [encode, port, opcode, column, row, p, packPort_packed, Bytes.ofHalf_half, Bytes.ofHalf_half]
  rfl

end Header

/-- **Which datagrams are requests**, and that nothing of what they say is lost. -/
theorem read (datagram : Bytes) : Read datagram := by
  by_cases long : headerSize ≤ datagram.length
  · obtain ⟨flags, tag, packed, source, y, x, row, column, o₀, o₁, s₀, s₁, payload, rfl⟩ :=
      exists_bytes long
    constructor
    · have number : (packed.toNat % 32 ≤ 17) ↔ packedCore packed ≤ 17 := by
        rw [← toNat_packedCore, UInt8.le_iff_toNat_le]
        rfl
      rw [and_iff_right long, List.getD_cons_succ, List.getD_cons_succ, List.getD_cons_zero, number,
        ← Core.exists_at_iff (x := x) (y := y)]
      constructor
      · rintro ⟨⟨request, sequence⟩, ok⟩
        exact ⟨request.destination, (decode_eq_ok_iff.1 ok).1⟩
      · rintro ⟨core, found⟩
        exact ⟨(⟨core, packedPort packed, Bytes.half o₀ o₁⟩, Bytes.half s₀ s₁),
          decode_eq_ok_iff.2 ⟨found, rfl, rfl, rfl⟩⟩
    · intro request sequence ok
      refine ⟨?_, ?_⟩
      · rw [encode_of_decode ok]
        simp [places]
      · apply decode_encode
        rw [(decode_eq_ok_iff.1 ok).2.1]
        exact toNat_packedPort_lt packed
  · have none : ∀ answer, decode datagram ≠ .ok answer :=
      fun answer ok => long (headerSize_le_of_decode ok)
    constructor
    · refine iff_of_false ?_ fun both => long both.1
      rintro ⟨answer, ok⟩
      exact none answer ok
    · intro request sequence ok
      exact absurd ok (none _)

end Request

/-! ## Replies -/

namespace Reply

/-- A reply is read back with what follows its header. -/
theorem decode_encode_append (request : Request) (source : Core) (code : ResultCode)
    (sequence : UInt16) (payload : Bytes) :
    decode request sequence (encode source code sequence ++ payload) =
      .ok ⟨code, sequence, payload⟩ := by
  show (if Bytes.half _ _ = sequence then Except.ok (Reply.mk (Bytes.half _ _) _ _) else _) = _
  rw [Bytes.half_ofHalf, Bytes.half_ofHalf, if_pos rfl]
  rfl

theorem decode_encode (request : Request) (source : Core) (code : ResultCode)
    (sequence : UInt16) :
    decode request sequence (encode source code sequence) = .ok ⟨code, sequence, []⟩ := by
  have whole := decode_encode_append request source code sequence []
  rwa [List.append_nil] at whole

/-- What comes of a datagram that is read as the reply to a request. -/
structure Read (request : Request) (sequence : UInt16) (datagram : Bytes) : Prop where
  /-- It is malformed if its header is cut off or has another number, and the fault names the
  command and the core it was for. -/
  refused : (∃ reason, decode request sequence datagram =
      .error (.operation (.malformedReply request.opcode request.destination reason))) ↔
    datagram.length < headerSize ∨
      Bytes.half (datagram.getD 10 0) (datagram.getD 11 0) ≠ sequence
  /-- Otherwise it is the reply. -/
  accepted : headerSize ≤ datagram.length →
    Bytes.half (datagram.getD 10 0) (datagram.getD 11 0) = sequence →
      decode request sequence datagram =
        .ok ⟨Bytes.half (datagram.getD 8 0) (datagram.getD 9 0), sequence, datagram.drop headerSize⟩

/-- Nothing is made of a header that is cut off. -/
theorem decode_of_short (request : Request) (sequence : UInt16) {datagram : Bytes}
    (short : datagram.length < headerSize) : ∃ reason, decode request sequence datagram =
      .error (.operation (.malformedReply request.opcode request.destination reason)) := by
  unfold decode
  split
  · simp only [headerSize, List.length_cons] at short
    omega
  · exact ⟨_, rfl⟩

/-- **Which datagrams are the reply to a request.** -/
theorem read (request : Request) (sequence : UInt16) (datagram : Bytes) :
    Read request sequence datagram := by
  by_cases short : datagram.length < headerSize
  · exact ⟨iff_of_true (decode_of_short request sequence short) (.inl short),
      fun long => absurd short (Nat.not_lt.2 long)⟩
  obtain ⟨flags, tag, port, packed, row, column, y, x, c₀, c₁, s₀, s₁, payload, rfl⟩ :=
    exists_bytes (Nat.not_lt.1 short)
  constructor
  · simp only [decode, List.getD_cons_succ, List.getD_cons_zero]
    rw [or_iff_right short]
    by_cases same : Bytes.half s₀ s₁ = sequence
    · rw [if_pos same]
      exact iff_of_false nofun (absurd same)
    · rw [if_neg same]
      exact iff_of_true ⟨_, rfl⟩ same
  · intro _ same
    simp only [List.getD_cons_succ, List.getD_cons_zero] at same ⊢
    rw [decode, if_pos same, same]
    rfl

/-- A reply is good if its code is that of success. -/
theorem check_eq_ok_iff (reply : Reply) (request : Request) :
    reply.check request = .ok () ↔ reply.code = 0x80 := by
  unfold check
  split
  · exact iff_of_true rfl ‹_›
  · exact iff_of_false nofun ‹_›

end Reply

/-- Commands have different numbers. -/
theorem Command.ofOpcode?_opcode (command : Command) : ofOpcode? command.opcode = some command := by
  cases command <;> rfl

/-- **Datagrams and messages say the same.** Requests and replies are read back from what they are
encoded as. Any other datagram is read as a request with the same bytes, or is none; and it is read
as the reply to a request, or is refused in the name of that request. Of replies, those with the one
code are good. -/
theorem datagrams_read_back :
    (∀ core command sequence,
      Request.decode ((Request.monitor core command).encode sequence) =
        .ok (Request.monitor core command, sequence)) ∧
      (∀ datagram, Request.Read datagram) ∧
      (∀ request source code sequence payload,
        Reply.decode request sequence (Reply.encode source code sequence ++ payload) =
          .ok ⟨code, sequence, payload⟩) ∧
      (∀ request sequence datagram, Reply.Read request sequence datagram) ∧
      ∀ (reply : Reply) request, reply.check request = .ok () ↔ reply.code = 0x80 := by
  refine ⟨?_, Request.read, Reply.decode_encode_append, Reply.read, Reply.check_eq_ok_iff⟩
  intro core command sequence
  exact Request.decode_encode _ sequence (by decide : monitorPort.toNat < 8)

/-- The header of a request by its bytes. -/
example : (Request.monitor ⟨⟨3, 4⟩, 5, rfl⟩ .loadApplicationRoutes).encode 0x1234 =
    [0x87, 0xFF, 0xC5, 0xFF, 4, 3, 0, 0, 7, 0, 0x34, 0x12] := by decide

end Scp

end MeshControl
