/-!
# Numerals

Decimal numerals as they are read from text: ASCII digits, at least one,
after an optional plus sign, and no number above a given limit.
-/

namespace TdsSession.Text.Numeral

/-- The value of a decimal digit. -/
def digit? (c : Char) : Option Nat :=
  if '0' ≤ c && c ≤ '9' then some (c.toNat - '0'.toNat) else none

/-- The number that decimal digits spell after `acc`, if all characters are digits. -/
def ofDigits (acc : Nat) : List Char → Option Nat
  | [] => some acc
  | c :: rest => (digit? c).bind fun d => ofDigits (10 * acc + d) rest

/-- The number a numeral spells, if it is one and its number is at most `limit`. -/
def parse (limit : Nat) (text : List Char) : Option Nat :=
  let digits := match text with
    | '+' :: rest => rest
    | _ => text
  if digits.isEmpty then none
  else (ofDigits 0 digits).filter (· ≤ limit)

/-- `n` in capital hexadecimal digits, with zeros in front up to `width` digits. -/
def hex (width n : Nat) : String :=
  let digits := (Nat.toDigits 16 n).map Char.toUpper
  String.ofList (List.replicate (width - digits.length) '0' ++ digits)

end TdsSession.Text.Numeral
