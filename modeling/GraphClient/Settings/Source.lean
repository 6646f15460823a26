import GraphClient.Files
import GraphClient.Json.Reader
import GraphClient.Settings.Client
import GraphClient.Settings.Environment
import GraphClient.Settings.Merge

/-!
# Where settings come from

`Settings.load` makes the settings of a client from a file and the environment, which wins. The
file is the one that is named, or the first one that is there of `Source.standard`.
-/

namespace GraphClient

namespace Source

/-- The files that are looked for when none is named, with their locations. -/
def standard : List (String × Location) :=
  [("gql_fetch.json", ⟨.working, ["gql_fetch.json"]⟩),
   ("config/gql_fetch.json", ⟨.working, ["config", "gql_fetch.json"]⟩),
   ("~/.gql_fetch/config.json", ⟨.home, [".gql_fetch", "config.json"]⟩)]

/-- The file to read and its path: the named one, or the first of the standard ones. Naming a file
that is not there is naming none. -/
def choose (files : FileTree) (path : Option String) : Option (String × FileNode) :=
  match path with
  | none | some "" => standard.findSome? fun (p, l) => (files.node? l).map (p, ·)
  | some p => (files.find? p).map (Path.normalize p, ·)

/-- The document of a file. Only files with the ending of JSON are read, in any letter case. -/
def parse (path : String) (node : FileNode) : Except Failure Json :=
  let ending := Path.suffix path
  if ending.toList.map Char.toLower ≠ ".json".toList then
    .error (.complaint (.unsupportedFormat ending))
  else match node with
    | .directory => .error (.complaint (.unreadableFile path .notOpened))
    | .file content =>
      match String.fromUTF8? ⟨content.toArray⟩ with
      | none => .error (.misuse .badEncoding "the file is not UTF-8")
      | some text =>
        match Json.load text with
        | .error .malformed => .error (.complaint (.unreadableFile path .malformedJson))
        | .error (.tooManyDigits digits) => .error (.integerNotRead digits)
        | .ok j => .ok j

/-- The settings of a document: those of an object, or of an array of pairs. A document that
counts as false has none. -/
def tableOf (j : Json) : Except Failure (List (Value × Value)) :=
  if j.toValue.isTrue then j.toValue.toTable else .ok []

/-- The settings of the chosen file. -/
def fileTable (files : FileTree) (path : Option String) : Except Failure (List (Value × Value)) :=
  match choose files path with
  | none => .ok []
  | some (p, node) => (parse p node).bind tableOf

/-- The settings of the chosen file with those of the environment laid over them. -/
def table (files : FileTree) (env : Environment) (path : Option String) :
    Except Failure (List (Value × Value)) :=
  (fileTable files path).map fun entries => Merge.tables entries env.settings

end Source

/-- The settings of a client from a file and the environment. An endpoint has to be among them. -/
def Settings.load (files : FileTree) (env : Environment) (path : Option String) :
    Except Failure ClientSettings :=
  match Source.table files env path with
  | .error e => .error e
  | .ok entries =>
    if (Value.lookup? "endpoint" entries).isNone then .error (.complaint .noEndpoint)
    else Settings.construct ClientSettings.check entries

end GraphClient
