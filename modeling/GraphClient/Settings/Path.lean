/-!
# Paths

A path is kept in normal form: no empty parts and no `.` parts. Two leading slashes are kept, one
or more than two count as one. `..` stays.
-/

namespace GraphClient.Path

/-- The parts of a path between slashes, without those that say nothing. -/
def parts (p : String) : List String :=
  ((p.toList.splitOn '/').map String.ofList).filter fun part => part ≠ "" ∧ part ≠ "."

/-- The slashes that a path in normal form starts with. -/
def root (p : String) : String :=
  let slashes := (p.toList.takeWhile (· = '/')).length
  if slashes = 0 then "" else if slashes = 2 then "//" else "/"

/-- The path of a root and parts. -/
def ofParts (root : String) (parts : List String) : String :=
  let path := root ++ "/".intercalate parts
  if path.isEmpty then "." else path

/-- A path in normal form. -/
def normalize (p : String) : String := ofParts (root p) (parts p)

/-- The last part of a path, if it has one. -/
def name (p : String) : String := (parts p).getLastD ""

/-- A path without its last part. -/
def parent (p : String) : String := ofParts (root p) (parts p).dropLast

/-- The ending of a file name from its last dot on; a dot at either end does not count. -/
def suffix (p : String) : String :=
  let chars := (name p).toList
  let tail := (chars.reverse.takeWhile (· ≠ '.')).reverse
  if tail.length + 1 < chars.length ∧ !tail.isEmpty then String.ofList ('.' :: tail) else ""

end GraphClient.Path
