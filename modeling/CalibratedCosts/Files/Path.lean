import CalibratedCosts.Text.Lines

/-! # File paths

    A path is a root, which a relative path does not have, and the names on
    the way.  Empty names and `.` are dropped when a path is read; `..` is
    kept, since it is the file system that decides where it leads.
-/

namespace CalibratedCosts

/-- A path: its root and the names on the way. -/
structure FilePath where
  root : String
  parts : List String
  deriving DecidableEq

namespace FilePath

/-- The root at the front of a text.  Exactly two slashes are a root of their
    own. -/
def rootOf : List Char → String
  | '/' :: '/' :: '/' :: _ => "/"
  | '/' :: '/' :: _ => "//"
  | '/' :: _ => "/"
  | _ => ""

/-- The path that a text denotes. -/
def ofText (s : String) : FilePath :=
  let names := (Text.splitAt '/' s.toList).map String.ofList
  ⟨rootOf s.toList, names.filter fun name => name ≠ "" ∧ name ≠ "."⟩

/-- The text of a path; a path without root and names is the current
    directory. -/
def text (p : FilePath) : String :=
  if p.root = "" ∧ p.parts = [] then "." else p.root ++ "/".intercalate p.parts

def name (p : FilePath) : String := (p.parts.getLast?).getD ""

def parent (p : FilePath) : FilePath := { p with parts := p.parts.dropLast }

/-- The end of the last name from its last point on.  A point at either end
    of the name starts no suffix. -/
def suffix (p : FilePath) : String :=
  let reversed := p.name.toList.reverse
  let after := reversed.takeWhile (· ≠ '.')
  let before := reversed.drop (after.length + 1)
  if before.isEmpty ∨ after.isEmpty then "" else String.ofList ('.' :: after.reverse)

/-- Holds a NUL character, which no file system accepts. -/
def hasNul (p : FilePath) : Bool := p.parts.any fun part => part.toList.contains '\x00'

end FilePath
end CalibratedCosts
