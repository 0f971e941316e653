/-!
# Paths of files

A path is written as names with slashes between them. A `Path` is the list of its names from the
top of the disk; `Path.ofText` reads one, and the other functions here work on the text, because
the text is what is reported. A dot stands for the place itself and two dots for the directory
above.
-/

namespace MeshControl

/-- Names from the top of the disk down to an entry. -/
abbrev Path := List String

namespace Path

/-- The longest name an entry can have, in bytes. -/
def nameLimit : Nat := 255

/-- The longest text a path can have, in bytes. -/
def textLimit : Nat := 4095

/-- Where a path begins that does not begin at the top. -/
def workplace : Path := ["tmp"]

/-- The pieces of a text between its slashes. -/
def pieces : List Char → List (List Char)
  | [] => [[]]
  | '/' :: rest => [] :: pieces rest
  | c :: rest =>
    match pieces rest with
    | piece :: others => (c :: piece) :: others
    | [] => [[c]]

/-- True for a piece that leads nowhere. -/
def isIdle (piece : List Char) : Bool := piece = [] || piece = ['.']

/-- True if a path begins at the top. -/
def isAbsolute (text : String) : Bool := text.toList.head? = some '/'

/-- True if a slash is last. Such a path can only lead to a directory. -/
def endsInSlash (text : String) : Bool := text.toList.getLast? = some '/'

/-- The names of a path given as text. -/
def ofText (text : String) : Path :=
  let names := ((pieces text.toList).filter (· ≠ [])).map String.ofList
  if isAbsolute text then names else workplace ++ names

/-- The path that a name in a directory has; a name that begins at the top stands alone. -/
def join (directory name : String) : String :=
  if directory = "" || isAbsolute name then name
  else if endsInSlash directory then directory ++ name
  else directory ++ "/" ++ name

/-- A path as it is written from a directory above it, without idle pieces at either end. A path
that is not below the directory is written as it is. -/
def relative (directory text : String) : String :=
  if directory.toList.isPrefixOf text.toList then
    let rest := pieces (text.toList.drop directory.length)
    let kept := ((rest.dropWhile isIdle).reverse.dropWhile isIdle).reverse
    "/".intercalate (kept.map String.ofList)
  else text

/-- A path without dots at its end. -/
def trimmed (path : Path) : Path := (path.reverse.dropWhile (· = ".")).reverse

/-- A path and those it leads through, the longest first. A dot at the end of one of these says
nothing, so only the path itself may end in one. -/
def ancestors (path : Path) : List Path :=
  let whole := trimmed path
  let above := (List.range whole.length).reverse.map fun count => whole.take count
  path :: above.filter fun place => place ≠ [] ∧ place.getLast? ≠ some "."

end Path

end MeshControl
