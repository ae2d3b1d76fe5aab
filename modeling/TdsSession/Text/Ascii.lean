/-!
# Letter case

Names are compared without regard to the case of ASCII letters. Keys of a
connection string are folded by the full case map of Unicode, of which only
the part that leads to ASCII letters can decide whether a key is known.
-/

namespace TdsSession.Text

/-- ASCII letters in lower case, all other characters as they are. -/
def lower (text : List Char) : List Char :=
  text.map Char.toLower

/-- Equal up to the case of ASCII letters. -/
def sameLetters (a b : List Char) : Bool :=
  lower a == lower b

/-- The lower case of a key. Besides the ASCII capitals, one character of Unicode has an ASCII
letter as its lower case: the Kelvin sign. -/
def foldKey (text : List Char) : List Char :=
  text.map fun c => if c = '\u212A' then 'k' else c.toLower

end TdsSession.Text
