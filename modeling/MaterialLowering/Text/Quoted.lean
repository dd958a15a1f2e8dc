import MaterialLowering.Text.Visible

/-!
# Texts in quotes

How messages show a text: in quotes, with escapes for quotes, backslashes and the characters that
have no form of their own.
-/

namespace MaterialLowering.Text

/-- A code point as an escape. -/
private def codeEscape (c : Char) : List Char :=
  "\\u\x7b".toList ++ Nat.toDigits 16 c.toNat ++ ['\x7d']

/-- A character inside quotes. -/
def shownChar (c : Char) : List Char :=
  if c = '"' ∨ c = '\\' then ['\\', c]
  else if c = '\t' then ['\\', 't']
  else if c = '\n' then ['\\', 'n']
  else if c = '\r' then ['\\', 'r']
  else if c = '\x00' then ['\\', '0']
  else if isVisible c then [c]
  else codeEscape c

/-- A text in quotes. -/
def quoted (text : String) : String :=
  "\"" ++ String.ofList (text.toList.flatMap shownChar) ++ "\""

end MaterialLowering.Text
