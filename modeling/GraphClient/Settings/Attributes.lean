import GraphClient.Failure.Basic

/-!
# Settings as objects

Settings that were made are held by an object, whose attributes can be assigned one by one.

* `Access` is a computation on the attributes. What it has changed stays changed when it fails.
* `Attributes.assign` assigns an attribute. A name that begins with an underscore is taken to be
  no setting's, so the value goes past all checks.
-/

namespace GraphClient

/-- The attributes of an object, in the order in which they were first set. -/
abbrev Attributes := List (Value × Value)

/-- A computation on the attributes of an object. -/
abbrev Access := ExceptT Failure (StateM Attributes)

namespace Attributes

def ofTable (table : List (String × Value)) : Attributes :=
  table.map fun (k, v) => (.text k, v)

/-- Whether a name is no setting's. -/
def isHidden (name : String) : Bool := name.toList.head? == some '_'

/-- Sets an attribute as every object does. All attributes together are one attribute, which takes
a table; the class is another one, which takes no value. -/
def setPlainly (name : String) (v : Value) : Access Unit :=
  if name = "__dict__" then
    match v with
    | .map entries => set entries
    | _ => throw (.misuse .type
        ("__dict__ must be set to a dictionary, not a " ++ Text.quoted v.typeName))
  else if name = "__class__" then
    throw (.misuse .type ("__class__ must be set to a class, not "
      ++ Text.quoted v.typeName ++ " object"))
  else modify (Pairs.set (.text name) v)

/-- Assigns an attribute of settings, which have their own way to set one of them. -/
def assign (setting : String → Value → Access Unit) (name : String) (v : Value) : Access Unit :=
  if isHidden name then setPlainly name v else setting name v

/-- Sets a setting without checking the value. -/
def setFreely (names : List String) (name : String) (v : Value) : Access Unit :=
  if names.contains name then modify (Pairs.set (.text name) v)
  else throw (.misuse .value ("object has no field " ++ Text.quoted name))

/-- Tries assignments one after the other, whatever becomes of each. -/
def tryAll (setting : String → Value → Access Unit) :
    List (String × Value) → StateM Attributes (List (Except Failure Unit))
  | [] => pure []
  | (name, v) :: rest => do
    let answer ← (assign setting name v).run
    return answer :: (← tryAll setting rest)

end Attributes

end GraphClient
