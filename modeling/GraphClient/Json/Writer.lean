import GraphClient.Json.Basic

/-!
# Writing JSON

Documents are written on one line, with `", "` and `": "` as separators. An `Alphabet` says which
characters a string shows as they are: quotes, backslashes and control characters never are.
`Json.write` writes integers of any size, `Json.dump` only those that can be converted.
-/

namespace GraphClient.Json

/-- Which characters a string may show as they are. -/
inductive Alphabet where
  | ascii
  | unicode

/-- The escape `\uXXXX` of a 16-bit unit. -/
def unitEscape (n : Nat) : String := "\\u" ++ Text.hex 4 n

/-- The escape of any character: one unit, or the two of a surrogate pair. -/
def charEscape (c : Char) : String :=
  if c.toNat < 0x10000 then unitEscape c.toNat
  else
    unitEscape (0xd800 + (c.toNat - 0x10000) / 0x400)
      ++ unitEscape (0xdc00 + (c.toNat - 0x10000) % 0x400)

/-- Whether a character beyond the control characters is shown as it is. -/
def Alphabet.shows : Alphabet → Char → Bool
  | ascii, c => c.toNat < 0x7f
  | unicode, _ => true

/-- A character inside a string. -/
def escapeChar (alphabet : Alphabet) (c : Char) : String :=
  if c = '"' then "\\\""
  else if c = '\\' then "\\\\"
  else if c = '\n' then "\\n"
  else if c = '\r' then "\\r"
  else if c = '\t' then "\\t"
  else if c.toNat = 0x8 then "\\b"
  else if c.toNat = 0xc then "\\f"
  else if c.toNat < 0x20 then unitEscape c.toNat
  else if alphabet.shows c then String.singleton c
  else charEscape c

/-- A text as a JSON string. -/
def quote (alphabet : Alphabet) (s : String) : String :=
  "\"" ++ String.join (s.toList.map (escapeChar alphabet)) ++ "\""

mutual

/-- A document on one line. -/
def write (alphabet : Alphabet) : Json → String
  | null => "null"
  | bool b => if b then "true" else "false"
  | int n => toString n
  | float x => Decimal.Layout.json.write x
  | text s => quote alphabet s
  | array items => "[" ++ writeItems alphabet items ++ "]"
  | object members => "\x7b" ++ writeMembers alphabet members ++ "\x7d"

/-- The items of an array. -/
def writeItems (alphabet : Alphabet) : List Json → String
  | [] => ""
  | [item] => write alphabet item
  | item :: items => write alphabet item ++ ", " ++ writeItems alphabet items

/-- The members of an object. -/
def writeMembers (alphabet : Alphabet) : List (String × Json) → String
  | [] => ""
  | [(key, member)] => quote alphabet key ++ ": " ++ write alphabet member
  | (key, member) :: members =>
    quote alphabet key ++ ": " ++ write alphabet member ++ ", " ++ writeMembers alphabet members

end

/-- A document on one line, if all of its integers can be converted. -/
def dump (alphabet : Alphabet) (d : Json) : Except Failure String :=
  if d.fits (some Decimal.digitLimit) then .ok (write alphabet d) else .error .integerNotWritten

theorem dump_eq_ok {alphabet : Alphabet} {d : Json} {line : String} : dump alphabet d = .ok line ↔
    d.fits (some Decimal.digitLimit) ∧ write alphabet d = line := by
  unfold dump
  split
  · rename_i fits
    exact ⟨fun made => ⟨fits, Except.ok.inj made⟩, fun ⟨_, same⟩ => same ▸ rfl⟩
  · rename_i long
    exact ⟨nofun, fun ⟨fits, _⟩ => absurd fits long⟩

end GraphClient.Json
