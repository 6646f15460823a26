import GraphClient.Pairs

/-!
# Loggers

Loggers form a tree by their names: a dot separates a name from that of its parent. A logger
without a level of its own has that of the nearest one above it, and in the end that of the root.

* `Loggers.ancestors` lists the names above a name, the nearest first.
* `Loggers.effective` is the level that counts for a name.
-/

namespace GraphClient

/-- The level of the root, and the levels of the loggers that were given one. -/
structure Loggers where
  root : Int
  levels : List (String × Int)
deriving DecidableEq, Inhabited

namespace Loggers

/-- The name of the root; no name is the root too. -/
def rootName : String := "root"

def isRoot (name : String) : Bool := name.isEmpty || name = rootName

/-- The names above a reversed name of which a part was passed already. The character before a
dot belongs to the name that the dot ends. -/
def above : Bool → List Char → List String
  | _, [] => []
  | passed, c :: rest =>
    if c = '.' && !passed && !rest.isEmpty then String.ofList rest.reverse :: above true rest
    else above false rest

/-- The names above a name, the nearest first. -/
def ancestors (name : String) : List String := above false name.toList.reverse

/-- The level that a logger has itself; zero is none. -/
def own (l : Loggers) (name : String) : Int :=
  if isRoot name then l.root else (Pairs.get? name l.levels).getD 0

/-- The level that counts for a logger. -/
def effective (l : Loggers) (name : String) : Int :=
  if isRoot name then l.root
  else (((name :: ancestors name).map l.own).find? (· ≠ 0)).getD l.root

/-- Gives a logger a level. -/
def setLevel (name : String) (level : Int) (l : Loggers) : Loggers :=
  if isRoot name then { l with root := level }
  else { l with levels := Pairs.set name level l.levels }

end Loggers

end GraphClient
