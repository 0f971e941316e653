/-!
# Command words of a data specification

| bits | field |
|------|-------|
| 31 to 28 | number of operand words that follow |
| 27 to 20 | opcode |
| 13, 12 | width code of a write |
| 11 to 8 | region to focus on |
| 7 | a reserved region is left unfilled |
| 4 to 0 | region to reserve |

A write keeps its repeat count in bits 7 to 0.
-/

namespace MeshControl.Spec

/-- What a command does. -/
inductive Opcode where
  /-- Stop with a fault. -/
  | halt
  | nop
  | reserve
  /-- Write one value several times. -/
  | write
  | writeArray
  | switchFocus
  | endSpec
  deriving DecidableEq, Repr

namespace Opcode

/-- The number of an opcode. -/
def code : Opcode → UInt8
  | .halt => 0x00
  | .nop => 0x01
  | .reserve => 0x02
  | .write => 0x42
  | .writeArray => 0x43
  | .switchFocus => 0x50
  | .endSpec => 0xFF

/-- Every opcode. -/
def all : List Opcode := [.halt, .nop, .reserve, .write, .writeArray, .switchFocus, .endSpec]

/-- The opcode of a number, if it is one. -/
def ofCode? (code : UInt8) : Option Opcode := all.find? fun opcode => opcode.code = code

/-- The name of an opcode in listings. -/
def mnemonic : Opcode → String
  | .halt => "BREAK"
  | .nop => "NOP"
  | .reserve => "RESERVE"
  | .write => "WRITE"
  | .writeArray => "WRITE_ARRAY"
  | .switchFocus => "SWITCH_FOCUS"
  | .endSpec => "END_SPEC"

/-- The name of the opcode of a number. -/
def mnemonicOf (code : UInt8) : String := ((ofCode? code).map mnemonic).getD "UNKNOWN"

end Opcode

/-- The flag of a region that is left unfilled. -/
def unfilledFlag : UInt32 := 0x80

/-- The command word of an opcode, a number of operands and low fields. -/
def commandWord (opcode : UInt8) (operands : UInt8) (fields : UInt32) : UInt32 :=
  ((operands.toUInt32 &&& 0xF) <<< 28) ||| (opcode.toUInt32 <<< 20) ||| (fields &&& 0xFFFFF)

/-- The opcode of a command word. -/
def opcodeOf (word : UInt32) : UInt8 := ((word >>> 20) &&& 0xFF).toUInt8

/-- The number of operands that a command word announces. -/
def operandsOf (word : UInt32) : UInt8 := ((word >>> 28) &&& 0xF).toUInt8

/-- The region that the word of a reservation names. -/
def reservedRegionOf (word : UInt32) : UInt8 := (word &&& 0x1F).toUInt8

/-- True if the word of a reservation leaves the region unfilled. -/
def unfilledOf (word : UInt32) : Bool := word &&& unfilledFlag != 0

/-- The region that the word of a change of focus names. -/
def focusOf (word : UInt32) : UInt8 := ((word >>> 8) &&& 0xF).toUInt8

/-- The width code of the word of a write. -/
def widthCodeOf (word : UInt32) : UInt32 := (word >>> 12) &&& 0x3

/-- The repeat count of the word of a write. -/
def repeatsOf (word : UInt32) : UInt8 := (word &&& 0xFF).toUInt8

/-- How much of a value a write stores. -/
inductive Width where
  | byte
  | half
  | word
  deriving DecidableEq, Repr

namespace Width

/-- Number of bytes. -/
def size : Width → Nat
  | .byte => 1
  | .half => 2
  | .word => 4

/-- The code of a width. -/
def code : Width → UInt32
  | .byte => 0
  | .half => 1
  | .word => 2

/-- The width of a code, if it is one. -/
def ofCode? (code : UInt32) : Option Width :=
  if code = 0 then some .byte
  else if code = 1 then some .half
  else if code = 2 then some .word
  else none

end Width

end MeshControl.Spec
