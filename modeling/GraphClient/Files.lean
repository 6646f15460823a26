import GraphClient.Failure.Basic
import GraphClient.Settings.Path

/-!
# Files

A `FileTree` holds files and directories by `Location`. A directory is there if it was made or if
something lies below it. `FileTree.find?` follows a path step by step, and every step but the last
has to be a directory.

* `FileTree.makeDirectories` makes the directories of a path, `FileTree.openFile` the file.
* `FileTree.append` adds to a file, `FileTree.move` gives it another name.
-/

namespace GraphClient

/-- Where a location starts: at the working directory, the home directory or the root. -/
inductive Location.Base where
  | working | home | root
deriving DecidableEq, Inhabited

/-- A place in a file tree: the names from the base down. -/
structure Location where
  base : Location.Base
  names : List String
deriving DecidableEq, Inhabited

namespace Location

/-- One step down, or up with two dots. -/
def step (l : Location) (name : String) : Location :=
  { l with names := if name = ".." then l.names.dropLast else l.names ++ [name] }

/-- The base of a path. -/
def baseOf (path : String) : Base := if (Path.root path).isEmpty then .working else .root

/-- The location of a path, two dots taking back the step before. -/
def ofPath (path : String) : Location := (Path.parts path).foldl step ⟨baseOf path, []⟩

/-- The directory of a location. -/
def parent (l : Location) : Location := { l with names := l.names.dropLast }

/-- Whether a location lies properly below another one. -/
def isBelow (l above : Location) : Bool :=
  l.base = above.base ∧ above.names.length < l.names.length ∧ above.names.isPrefixOf l.names

end Location

/-- What stands at a location. -/
inductive FileNode where
  | directory
  | file (content : List UInt8)
deriving DecidableEq, Inhabited

/-- Files and directories by location. -/
structure FileTree where
  nodes : List (Location × FileNode)
deriving DecidableEq, Inhabited

namespace FileTree

def empty : FileTree := ⟨[]⟩

/-- What stands at a location. The bases are always there. -/
def node? (t : FileTree) (l : Location) : Option FileNode :=
  match Pairs.get? l t.nodes with
  | some node => some node
  | none =>
    if l.names.isEmpty || t.nodes.any fun (below, _) => below.isBelow l then some .directory
    else none

def isDirectory (t : FileTree) (l : Location) : Bool := t.node? l = some .directory

/-- The location that a walk through directories ends at. -/
def walk? (t : FileTree) : Location → List String → Option Location
  | l, [] => some l
  | l, name :: names => if t.isDirectory l then t.walk? (l.step name) names else none

/-- What a path leads to. -/
def find? (t : FileTree) (path : String) : Option FileNode :=
  (t.walk? ⟨Location.baseOf path, []⟩ (Path.parts path)).bind t.node?

/-- Puts a file or a directory at a location. -/
def put (t : FileTree) (l : Location) (node : FileNode) : FileTree := ⟨Pairs.set l node t.nodes⟩

/-- Takes away what was put at a location. -/
def remove (t : FileTree) (l : Location) : FileTree := ⟨Pairs.erase l t.nodes⟩

/-- The content of the file at a location. -/
def content? (t : FileTree) (l : Location) : Option (List UInt8) :=
  match t.node? l with
  | some (.file content) => some content
  | _ => none

/-- The greatest length of a name in bytes. -/
def nameLimit : Nat := 255

/-- What is wrong with a name, if anything: it holds the character that ends names, or it is too
long. -/
def nameProblem? (name : String) : Option Failure :=
  if name.toList.contains '\x00' then some (.misuse .value "embedded null byte")
  else if nameLimit < name.utf8ByteSize then some (.misuse .os "file name too long")
  else none

/-- Makes the directories of a walk from a location on, those that are not there. -/
def makeDirectories (t : FileTree) : Location → List String → Except Failure FileTree
  | _, [] => .ok t
  | l, name :: names =>
    match nameProblem? name, t.node? (l.step name) with
    | some problem, _ => .error problem
    | none, some .directory => t.makeDirectories (l.step name) names
    | none, some (.file _) =>
      if names.isEmpty then .error (.misuse .fileExists "file exists")
      else .error (.misuse .notDirectory "not a directory")
    | none, none => (t.put (l.step name) .directory).makeDirectories (l.step name) names

/-- Opens a file for appending, and makes it if it is not there. -/
def openFile (t : FileTree) (l : Location) : Except Failure FileTree :=
  match nameProblem? (l.names.getLastD ""), t.node? l with
  | some problem, _ => .error problem
  | none, some .directory => .error (.misuse .isDirectory "is a directory")
  | none, some (.file _) => .ok t
  | none, none => .ok (t.put l (.file []))

/-- Adds a text to the end of a file. -/
def append (t : FileTree) (l : Location) (s : String) : FileTree :=
  t.put l (.file ((t.content? l).getD [] ++ s.toUTF8.toList))

/-- Gives a file another name, in place of what has that name. -/
def move (t : FileTree) (source target : Location) : FileTree :=
  match t.node? source with
  | some node => (t.remove source).put target node
  | none => t

end FileTree

end GraphClient
