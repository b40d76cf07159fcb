/-!
# Paths

The way from the root to a file or folder, and the texts that spell it. A text may say more than the
way: one that ends like a folder asks for a folder, and one that ends in a single or double point
leads through its folder once more. Most operations look at the way alone.
-/

namespace ProxyCensus

/-- The names on the way from the root to a file or folder. -/
abbrev Path := List String

namespace Path

/-- The parts of a text between the slashes. -/
def parts (s : String) : List String :=
  (s.toList.splitOn '/').map String.ofList

/-- The names in a text; empty names and single points lead nowhere. -/
def ofText (s : String) : Path :=
  (parts s).filter fun name => name != "" && name != "."

/-- Follows one name from a folder: two points lead back to the folder above. -/
def enter (here : Path) (name : String) : Path :=
  if name == ".." then here.dropLast else here ++ [name]

/-- The same place without steps back, taken from the names alone. -/
def collapse (p : Path) : Path :=
  p.foldl enter []

def size (p : Path) : Nat :=
  p.foldl (fun n name => n + 1 + name.utf8ByteSize) 0

def hasNull (p : Path) : Bool :=
  p.any fun name => name.toList.contains '\x00'

end Path

/-- How the text of a path ends. -/
inductive Ending where
  /-- With a name. -/
  | plain
  /-- With a slash behind a name. -/
  | slash
  /-- With a single point, which leads nowhere. -/
  | here
  /-- With two points, which lead to the folder above. -/
  | above
  deriving DecidableEq

/-- How a text ends that starts behind a slash. -/
def Ending.ofText (s : String) : Ending :=
  match (Path.parts s).reverse.dropWhile (· == "") with
  | [] => .slash
  | last :: _ =>
    if last == "." then .here
    else if last == ".." then .above
    else if s.endsWith "/" then .slash
    else .plain

/-- A file that is to be replaced, as its name is given. -/
structure Target where
  path : Path
  ending : Ending := .plain
  /-- The bytes of the name. -/
  size : Nat := path.size

/-- The file that a name gives inside a folder; a name that starts at the root is taken from there. -/
def Target.inside (folder : Path) (name : String) : Target :=
  let base : Path := if name.startsWith "/" then [] else folder
  { path := base ++ Path.ofText name
    ending := Ending.ofText name
    size := base.size + 1 + name.utf8ByteSize }

end ProxyCensus
