import GraphClient.Text.Blank
import GraphClient.Text.Letter

/-!
# Masking secrets

`Mask.apply` writes `***MASKED***` in place of the secrets of a message. There are five kinds of
secrets (`Secret`), masked one after another, each from left to right. `Secret.find?` says where a
passage with a secret begins: at a key word, or at the address that holds it.

* A passage is found at a place or not; no choice is left, since the parts of a passage are made
  of different characters.
* Letter case does not count in the words.
-/

namespace GraphClient

/-- A passage at the beginning of a text: what is written in its place, and the text behind it. -/
structure Passage where
  masked : List Char
  rest : List Char
deriving DecidableEq

namespace Passage

/-- A part at the beginning of a text, and the rest of the text. -/
abbrev Part := Option (List Char × List Char)

/-- A word. -/
def word (w : String) (cs : List Char) : Part :=
  let taken := cs.take w.length
  if taken.map Text.smallLetter = w.toList then some (taken, cs.drop w.length) else none

/-- The first of some words that the text begins with. -/
def oneOf (words : List String) (cs : List Char) : Part := words.findSome? fun w => word w cs

/-- One character of a kind. -/
def single (p : Char → Bool) : List Char → Part
  | [] => none
  | c :: rest => if p c then some ([c], rest) else none

/-- One character of a kind, or none. -/
def atMostOne (p : Char → Bool) : List Char → List Char × List Char
  | [] => ([], [])
  | c :: rest => if p c then ([c], rest) else ([], c :: rest)

/-- All characters of a kind, which have to be so many at least. -/
def atLeast (least : Nat) (p : Char → Bool) (cs : List Char) : Part :=
  let taken := cs.takeWhile p
  if least ≤ taken.length then some (taken, cs.dropWhile p) else none

/-- Blanks. -/
def blanks (cs : List Char) : List Char × List Char :=
  (cs.takeWhile Text.isBlank, cs.dropWhile Text.isBlank)

end Passage

/-- The kinds of secrets. -/
inductive Secret where
  | key | bearer | authorization | password | address
deriving DecidableEq, Inhabited

namespace Secret

open Passage

def all : List Secret := [key, bearer, authorization, password, address]

/-- What is written in place of a secret. -/
def mark : List Char := "***MASKED***".toList

/-- The characters of keys and tokens. -/
def isTokenChar (c : Char) : Bool :=
  Text.isLetter c || c.isDigit || "+/=._-".toList.contains c

def isQuote (c : Char) : Bool := c = '"' || c = '\''

def isSeparator (c : Char) : Bool := c = ':' || c = '='

/-- What can stand around the separator of a key word and its value. -/
def isFiller (c : Char) : Bool := c = '"' || Text.isBlank c

def isPasswordChar (c : Char) : Bool := !Text.isBlank c && !isQuote c

def isCredentialChar (c : Char) : Bool := isPasswordChar c && c ≠ ',' && c ≠ '}'

def isUserChar (c : Char) : Bool := c ≠ ':' && c ≠ '/' && !Text.isBlank c

def isAddressPasswordChar (c : Char) : Bool := c ≠ '@' && c ≠ '/' && !Text.isBlank c

/-- The separator between a key word and its value, with what stands around it. -/
def separated (cs : List Char) : Option (List Char) := do
  let (_, cs) ← single isSeparator (cs.dropWhile isFiller)
  return cs.dropWhile isFiller

/-- A key word, and a value of twenty characters or more. -/
def findKey (cs : List Char) : Option Passage := do
  let (name, cs) ← oneOf ["apikey", "api_key", "api-key", "token", "secret"] cs
  let cs ← separated cs
  let (_, cs) ← atLeast 20 isTokenChar cs
  return ⟨name ++ ": ".toList ++ mark, cs⟩

/-- The word for a bearer token, blanks, and a token of twenty characters or more. -/
def findBearer (cs : List Char) : Option Passage := do
  let (name, cs) ← word "bearer" cs
  let (gap, cs) ← atLeast 1 Text.isBlank cs
  let (_, cs) ← atLeast 20 isTokenChar cs
  return ⟨name ++ gap ++ mark, cs⟩

/-- Whether a text begins with the word for a bearer token and a blank. -/
def beginsWithBearer (cs : List Char) : Bool :=
  ((word "bearer" cs).bind fun (_, cs) => single Text.isBlank cs).isSome

/-- The word for an authorization and a value of eight characters or more that is no bearer
token. -/
def findAuthorization (cs : List Char) : Option Passage := do
  let (name, cs) ← word "authorization" cs
  let (closing, cs) := atMostOne isQuote cs
  let (before, cs) := blanks cs
  let (separator, cs) ← single isSeparator cs
  let (behind, cs) := blanks cs
  let (opening, cs) := atMostOne isQuote cs
  if beginsWithBearer cs then none
  else
    let (_, cs) ← atLeast 8 isCredentialChar cs
    return ⟨name ++ closing ++ before ++ separator ++ behind ++ opening ++ mark, cs⟩

/-- A word for a password, and a value. -/
def findPassword (cs : List Char) : Option Passage := do
  let (name, cs) ← oneOf ["password", "passwd", "pwd"] cs
  let cs ← separated cs
  let (_, cs) ← atLeast 1 isPasswordChar cs
  return ⟨name ++ ": ".toList ++ mark, cs⟩

/-- A web address with a user and a password. -/
def findAddress (cs : List Char) : Option Passage := do
  let (scheme, cs) ← oneOf ["http://", "https://"] cs
  let (user, cs) ← atLeast 1 isUserChar cs
  let (_, cs) ← single (· = ':') cs
  let (_, cs) ← atLeast 1 isAddressPasswordChar cs
  let (_, cs) ← single (· = '@') cs
  return ⟨scheme ++ user ++ ":".toList ++ mark ++ "@".toList, cs⟩

/-- The passage with a secret of a kind that a text begins with. -/
def find? : Secret → List Char → Option Passage
  | key => findKey
  | bearer => findBearer
  | authorization => findAuthorization
  | password => findPassword
  | address => findAddress

end Secret

namespace Mask

/-- Replaces the passages that are found, from left to right. The first `skip` characters belong
to a passage that is replaced already. -/
def replaceFrom (find : List Char → Option Passage) : Nat → List Char → List Char
  | _, [] => []
  | skip + 1, _ :: cs => replaceFrom find skip cs
  | 0, c :: cs =>
    match find (c :: cs) with
    | some passage =>
      passage.masked ++ replaceFrom find (cs.length - passage.rest.length) cs
    | none => c :: replaceFrom find 0 cs

/-- Masks the secrets of one kind. -/
def hide (cs : List Char) (secret : Secret) : List Char := replaceFrom secret.find? 0 cs

/-- A message with its secrets masked. -/
def apply (message : String) : String := String.ofList (Secret.all.foldl hide message.toList)

end Mask

end GraphClient
