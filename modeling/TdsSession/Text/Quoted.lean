import TdsSession.Text.Shapeless

/-!
# Quoted text

A text between double quotes, in which every character that would end the
quotes or cannot be seen is escaped.
-/

namespace TdsSession.Text

/-- A code point as an escape, in hexadecimal. -/
def codePointEscape (c : Char) : List Char :=
  "\\u\x7b".toList ++ Nat.toDigits 16 c.toNat ++ ['\x7d']

/-- A character inside quotes. -/
def escapeChar (c : Char) : List Char :=
  match c with
  | '\x00' => ['\\', '0']
  | '\t' => ['\\', 't']
  | '\n' => ['\\', 'n']
  | '\r' => ['\\', 'r']
  | '"' => ['\\', '"']
  | '\\' => ['\\', '\\']
  | c =>
    if c.toNat < 0x20 ∨ c.toNat = 0x7F then codePointEscape c
    else if c.toNat < 0x7F then [c]
    else if Shapeless.contains c then codePointEscape c
    else [c]

/-- A text in quotes. -/
def quote (text : String) : String :=
  String.ofList (['"'] ++ text.toList.flatMap escapeChar ++ ['"'])

end TdsSession.Text
