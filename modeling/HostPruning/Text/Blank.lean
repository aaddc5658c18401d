/-!
# Blank text

Account names and client names are refused when nothing but white space is left
of them. White space is the Unicode property of that name, not the ASCII
characters alone; the database, in contrast, trims spaces only.
-/

namespace HostPruning.Text

/-- The Unicode property White_Space. -/
def isBlank (char : Char) : Bool :=
  let code := char.toNat
  (9 ≤ code && code ≤ 13) || code == 0x20 || code == 0x85 || code == 0xA0 || code == 0x1680 ||
    (0x2000 ≤ code && code ≤ 0x200A) || code == 0x2028 || code == 0x2029 || code == 0x202F ||
    code == 0x205F || code == 0x3000

/-- Every ASCII white space character is blank. -/
theorem isBlank_of_isWhitespace {char : Char} (space : char.isWhitespace = true) :
    isBlank char = true := by
  simp only [Char.isWhitespace, Bool.or_eq_true, decide_eq_true_eq] at space
  rcases space with ((rfl | rfl) | rfl) | rfl <;> decide

/-- Drop the characters that satisfy a test from both ends. -/
def trimWhere (test : Char → Bool) (chars : List Char) : List Char :=
  ((chars.dropWhile test).reverse.dropWhile test).reverse

/-- Drop white space from both ends. -/
def trim (text : String) : String := String.ofList (trimWhere isBlank text.toList)

/-- Whether a text holds nothing but white space. -/
def blank (text : String) : Bool := text.toList.all isBlank

/-- The UTF-8 bytes of a text. -/
def utf8 (text : String) : List UInt8 := text.toList.flatMap String.utf8EncodeChar

/-- Whether a text starts with another; if so, what follows it. -/
def stripFront (front : String) (text : String) : Option String :=
  if front.toList.isPrefixOf text.toList then
    some (String.ofList (text.toList.drop front.toList.length))
  else none

/-- Join texts with a separator between neighbours. -/
def join (separator : String) : List String → String
  | [] => ""
  | [only] => only
  | first :: second :: rest => first ++ separator ++ join separator (second :: rest)

end HostPruning.Text
