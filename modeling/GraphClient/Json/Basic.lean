import GraphClient.Failure.Basic

/-!
# JSON documents

`Json` is a document: numbers are integers of any size or doubles, NaN and the infinities
included. `Json.toValue` reads a document as a value; `Value.toJson` writes a value as a document
and fails on values that have no JSON form. `Json.fits` says whether all integers of a document
are short enough to be converted from text or to text.
-/

namespace GraphClient

/-- A JSON document. -/
inductive Json where
  | null
  | bool (b : Bool)
  | int (n : Int)
  | float (x : Binary64)
  | text (s : String)
  | array (items : List Json)
  | object (members : List (String × Json))
deriving Inhabited

namespace Json

mutual

/-- A document as a value. -/
def toValue : Json → Value
  | null => .null
  | bool b => .bool b
  | int n => .int n
  | float x => .float x
  | text s => .text s
  | array items => .list (toValues items)
  | object members => .map (toEntries members)

/-- The items of an array as values. -/
def toValues : List Json → List Value
  | [] => []
  | item :: items => toValue item :: toValues items

/-- The members of an object as entries. -/
def toEntries : List (String × Json) → List (Value × Value)
  | [] => []
  | (key, member) :: members => (.text key, toValue member) :: toEntries members

end

mutual

/-- Whether no integer of a document has more digits than the limit, if there is one. -/
def fits (limit? : Option Nat) : Json → Bool
  | int n => Decimal.isWithin limit? (Nat.toDigits 10 n.natAbs)
  | array items => fitsItems limit? items
  | object members => fitsMembers limit? members
  | _ => true

/-- Whether all items of an array fit. -/
def fitsItems (limit? : Option Nat) : List Json → Bool
  | [] => true
  | item :: items => fits limit? item && fitsItems limit? items

/-- Whether all members of an object fit. -/
def fitsMembers (limit? : Option Nat) : List (String × Json) → Bool
  | [] => true
  | (_, member) :: members => fits limit? member && fitsMembers limit? members

end

theorem fits_array (limit? : Option Nat) (items : List Json) :
    (array items).fits limit? = items.all (fits limit?) := by
  rw [fits]
  induction items with
  | nil => rfl
  | cons item items ih => rw [fitsItems, ih, List.all_cons]

theorem fits_object (limit? : Option Nat) (members : List (String × Json)) :
    (object members).fits limit? = members.all fun member => member.2.fits limit? := by
  rw [fits]
  induction members with
  | nil => rfl
  | cons member members ih => rw [fitsMembers, ih, List.all_cons]

end Json

namespace Value

/-- What to write for a value that has no JSON form. -/
inductive ForeignRule where
  | refuse
  | display

/-- The document for a value without a JSON form. -/
def ForeignRule.apply (rule : ForeignRule) (v : Value) : Except Failure Json :=
  match rule with
  | refuse => .error (.misuse .type
      ("Object of type " ++ v.typeName ++ " is not JSON serializable"))
  | display => .ok (.text v.display)

/-- The member name that a key becomes. -/
def toMember : Value → Except Failure String
  | text s => .ok s
  | null => .ok "null"
  | bool b => .ok (if b then "true" else "false")
  | int n => .ok (toString n)
  | float x => .ok (Decimal.Layout.json.write x)
  | v => .error (.misuse .type
      ("keys must be str, int, float, bool or None, not " ++ v.typeName))

mutual

/-- A value as a document. Lists and tuples are arrays. -/
def toJson (rule : ForeignRule) : Value → Except Failure Json
  | null => .ok .null
  | bool b => .ok (.bool b)
  | int n => .ok (.int n)
  | float x => .ok (.float x)
  | text s => .ok (.text s)
  | list items | tuple items => (toItems rule items).map .array
  | map entries => (toMembers rule entries).map .object
  | v => rule.apply v

/-- Values as the items of an array. -/
def toItems (rule : ForeignRule) : List Value → Except Failure (List Json)
  | [] => .ok []
  | v :: vs =>
    match toJson rule v with
    | .error e => .error e
    | .ok item => (toItems rule vs).map (item :: ·)

/-- Entries as the members of an object. -/
def toMembers (rule : ForeignRule) : List (Value × Value) → Except Failure (List (String × Json))
  | [] => .ok []
  | (k, v) :: entries =>
    match toMember k, toJson rule v with
    | .error e, _ => .error e
    | _, .error e => .error e
    | .ok key, .ok member => (toMembers rule entries).map ((key, member) :: ·)

end

end Value

end GraphClient
