import MeshControl.Decimal.Number
import MeshControl.Key.Allocation

/-!
# Arguments of the command line

```text
mask <n-keys> [--key K] [--prefix P]                   the mask of a channel of keys
spec-dump <file>                                       execute a data specification
ticks [--step US] [--first T] [--last T] <ms>...       the tick of each time
```

Options may stand among the other arguments, with their value after a space or after `=`, and
each at most once. After `--` everything is taken as it is. A time may be a negative number; in
no other place is an argument with a leading dash a value. Arguments are read from the first to
the last, so help is given only if every value ahead of the request for it can be read.
-/

namespace MeshControl.CommandLine

/-- What is asked for. -/
inductive Request where
  | mask (count : Nat) (key : Option UInt32) (keyPrefix : Option UInt32)
  | specDump (file : String)
  | ticks (step first : UInt32) (last : Option UInt32) (times : List Float)
  /-- Help on the use of the program. -/
  | help
  | version

/-- The decimal digits of a natural number below `limit`, after a sign if one is allowed. -/
def readNat (limit : Nat) (chars : List Char) : Option Nat :=
  let digits := match chars with
    | '+' :: digits => digits
    | digits => digits
  if digits ≠ [] ∧ digits.all Char.isDigit then
    let value := Decimal.digitsValue digits
    if value < limit then some value else none
  else none

/-- The value of a hexadecimal digit. -/
def hexDigit? (c : Char) : Option Nat :=
  if c.isDigit then some (c.toNat - '0'.toNat)
  else if 'a' ≤ c ∧ c ≤ 'f' then some (c.toNat - 'a'.toNat + 10)
  else if 'A' ≤ c ∧ c ≤ 'F' then some (c.toNat - 'A'.toNat + 10)
  else none

/-- The value of hexadecimal digits, below `limit`. -/
def readHex (limit : Nat) (chars : List Char) : Option Nat := do
  let digits := match chars with
    | '+' :: digits => digits
    | digits => digits
  let values ← digits.mapM hexDigit?
  let value := values.foldl (fun value digit => 16 * value + digit) 0
  if digits ≠ [] ∧ value < limit then some value else none

/-- A word, in hexadecimal after `0x` and otherwise in decimal. -/
def readWord (text : String) : Option UInt32 :=
  match text.toList with
  | '0' :: 'x' :: digits | '0' :: 'X' :: digits => (readHex UInt32.size digits).map UInt32.ofNat
  | digits => (readNat UInt32.size digits).map UInt32.ofNat

/-- A number of ticks or microseconds. It may have a minus sign if it is zero. -/
def readTicks (text : String) : Option UInt32 :=
  match text.toList with
  | '-' :: '+' :: _ => none
  | '-' :: digits => (readNat 1 digits).map UInt32.ofNat
  | digits => (readNat UInt32.size digits).map UInt32.ofNat

/-- True for digits with at most one point, not at the start, and at most one exponent. -/
def looksNumeric (chars : List Char) : Bool :=
  let whole := chars.takeWhile Char.isDigit
  let rest := chars.dropWhile Char.isDigit
  let rest := match rest with
    | '.' :: fraction => if whole.isEmpty then rest else fraction.dropWhile Char.isDigit
    | rest => rest
  match rest with
  | [] => !chars.isEmpty
  | 'e' :: exponent | 'E' :: exponent =>
    !whole.isEmpty && !exponent.isEmpty && exponent.all Char.isDigit
  | _ => false

/-- The shape of the arguments of a command. -/
structure Shape where
  /-- Names of the options, each with a test for the values it can have. -/
  options : List (String × (String → Bool))
  /-- A test for the values of other arguments. -/
  other : String → Bool
  /-- The most other arguments, if there is a bound. -/
  most : Option Nat
  /-- Other arguments may be negative numbers. -/
  negatives : Bool

/-- Arguments told apart: options with their values, and the others. -/
structure Sorted where
  options : List (String × String)
  others : List String

/-- Something other than the arguments that a command needs. -/
inductive Refusal where
  | usage
  | help

namespace Sorted

/-- Add an option, which must be one of the command's and not there yet, with a value that it
can have. -/
def addOption (sorted : Sorted) (shape : Shape) (name value : String) : Except Refusal Sorted :=
  if (shape.options.lookup name).any (· value) && (sorted.options.lookup name).isNone then
    .ok { sorted with options := (name, value) :: sorted.options }
  else .error .usage

/-- Add another argument, if the command takes one more and it can have this value. -/
def addOther (sorted : Sorted) (shape : Shape) (value : String) : Except Refusal Sorted :=
  if shape.other value && shape.most.all (sorted.others.length < ·) then
    .ok { sorted with others := sorted.others ++ [value] }
  else .error .usage

end Sorted

/-- What an argument is, seen by itself. -/
inductive Shown where
  /-- An option with its value, if that is attached. -/
  | option (name : String) (value : Option String)
  /-- The mark after which everything is taken as it is. -/
  | mark
  | value
  | help
  | unknown

/-- What an argument is, seen by itself. -/
def shown (shape : Shape) (argument : String) : Shown :=
  match argument.toList with
  | ['-', '-'] => .mark
  | '-' :: '-' :: long =>
    let name := String.ofList (long.takeWhile (· ≠ '='))
    match long.dropWhile (· ≠ '=') with
    | [] => if name = "help" then .help else .option name none
    | _ :: value => .option name (some (String.ofList value))
  | '-' :: c :: short =>
    if shape.negatives && looksNumeric (c :: short) then .value
    else if c = 'h' then .help
    else .unknown
  | _ => .value

/-- Tell arguments apart. -/
def sort (shape : Shape) (sorted : Sorted) : List String → Except Refusal Sorted
  | [] => .ok sorted
  | [argument] =>
    match shown shape argument with
    | .option name (some value) => sorted.addOption shape name value
    | .mark => .ok sorted
    | .value => sorted.addOther shape argument
    | .help => .error .help
    | .option _ none | .unknown => .error .usage
  | argument :: next :: rest =>
    match shown shape argument with
    | .option name (some value) => do sort shape (← sorted.addOption shape name value) (next :: rest)
    | .option name none =>
      match shown shape next with
      | .value => do sort shape (← sorted.addOption shape name next) rest
      | _ => .error .usage
    | .mark => (next :: rest).foldlM (fun sorted value => sorted.addOther shape value) sorted
    | .value => do sort shape (← sorted.addOther shape argument) (next :: rest)
    | .help => .error .help
    | .unknown => .error .usage

/-- A test for texts that can be read. -/
def isRead {α : Type} (read : String → Option α) (text : String) : Bool := (read text).isSome

/-- The value of an option, if it is there. -/
def Sorted.option? {α : Type} (sorted : Sorted) (name : String) (read : String → Option α) :
    Option α :=
  (sorted.options.lookup name).bind read

/-- A number of keys. -/
def readCount (text : String) : Option Nat := readNat UInt64.size text.toList

/-- Arguments of the request for a mask. -/
def maskShape : Shape :=
  ⟨[("key", isRead readWord), ("prefix", isRead readWord)], isRead readCount, some 1, false⟩

/-- The request for a mask. -/
def readMask (arguments : List String) : Except Refusal Request := do
  let sorted ← sort maskShape ⟨[], []⟩ arguments
  match sorted.others.mapM readCount with
  | some [count] =>
    return .mask count (sorted.option? "key" readWord) (sorted.option? "prefix" readWord)
  | _ => throw .usage

/-- Arguments of the request to execute a specification: the file, which has a name. -/
def specificationShape : Shape := ⟨[], fun file => file ≠ "", some 1, false⟩

/-- The request to execute a specification. -/
def readSpecDump (arguments : List String) : Except Refusal Request := do
  let sorted ← sort specificationShape ⟨[], []⟩ arguments
  match sorted.others with
  | [file] => return .specDump file
  | _ => throw .usage

/-- Arguments of the request for ticks. -/
def timesShape : Shape :=
  ⟨[("step", isRead readTicks), ("first", isRead readTicks), ("last", isRead readTicks)],
    isRead Decimal.read?, none, true⟩

/-- The request for the ticks of some times. -/
def readTimes (arguments : List String) : Except Refusal Request := do
  let sorted ← sort timesShape ⟨[], []⟩ arguments
  match sorted.others.mapM Decimal.read? with
  | some (time :: times) =>
    return .ticks ((sorted.option? "step" readTicks).getD 1000)
      ((sorted.option? "first" readTicks).getD 0) (sorted.option? "last" readTicks) (time :: times)
  | _ => throw .usage

/-- Names of the commands, on each of which there is help. -/
def commandNames : List String := ["mask", "spec-dump", "ticks", "help"]

/-- What some arguments ask for; `none` if they ask for nothing that there is. -/
def Request.ofArguments (arguments : List String) : Option Request :=
  let answer (read : Except Refusal Request) : Option Request := match read with
    | .ok request => some request
    | .error .help => some .help
    | .error .usage => none
  match arguments with
  | "mask" :: rest => answer (readMask rest)
  | "spec-dump" :: rest => answer (readSpecDump rest)
  | "ticks" :: rest => answer (readTimes rest)
  | ["help"] | "--help" :: _ => some .help
  | ["help", topic] => if topic ∈ commandNames then some .help else none
  | "--version" :: _ => some .version
  | first :: _ =>
    match first.toList with
    | '-' :: 'h' :: _ => some .help
    | '-' :: 'V' :: _ => some .version
    | _ => none
  | [] => none

end MeshControl.CommandLine
