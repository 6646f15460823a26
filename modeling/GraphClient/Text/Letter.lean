/-!
# Letters without case

`Text.smallLetter` is the small form of a letter where that is one of the letters a to z. Two
letters outside ASCII have such a form by Unicode's case mapping, and two more are another form of
one: the long s, the Kelvin sign, and the letters i without and with a dot.
-/

namespace GraphClient.Text

/-- The small form of a letter if it is one of a to z; other characters stay. -/
def smallLetter (c : Char) : Char :=
  if c = '\u017f' then 's'
  else if c = '\u212a' then 'k'
  else if c = '\u0130' ∨ c = '\u0131' then 'i'
  else c.toLower

/-- Whether a character is one of the letters a to z in some form. -/
def isLetter (c : Char) : Bool := 'a' ≤ smallLetter c && smallLetter c ≤ 'z'

end GraphClient.Text
