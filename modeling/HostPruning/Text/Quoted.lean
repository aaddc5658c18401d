import HostPruning.Text.Shown

/-!
# Quoted text in messages

Error messages quote the texts they name: between double quotes, with a backslash before
a quote or a backslash, a letter for the common controls, and the hexadecimal code of
every other character that is not shown as itself.
-/

namespace HostPruning.Text

/-- The lower-case hexadecimal digits of a number. -/
def hex (number : Nat) : List Char := Nat.toDigits 16 number

/-- A character inside a quoted text. -/
def quotedChar (char : Char) : List Char :=
  if char = '"' then ['\\', '"']
  else if char = '\\' then ['\\', '\\']
  else if char = '\n' then ['\\', 'n']
  else if char = '\r' then ['\\', 'r']
  else if char = '\t' then ['\\', 't']
  else if char.toNat = 0 then ['\\', '0']
  else if shown char then [char]
  else ['\\', 'u', '{'] ++ hex char.toNat ++ ['}']

/-- A text between quotes. -/
def quoted (text : String) : String :=
  String.ofList ('"' :: text.toList.flatMap quotedChar ++ ['"'])

end HostPruning.Text
