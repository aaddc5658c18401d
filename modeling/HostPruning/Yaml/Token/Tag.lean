import HostPruning.Yaml.Token.Scalar
import HostPruning.Text.Blank

/-!
# Tags, anchors and directives

The tokens that start with a mark of their own: properties of a node and directives of a
document. Every reader answers none for a text that is not well formed.
-/

namespace HostPruning.Yaml

namespace Anchor

/-- The characters, besides blanks, that may follow the name of an anchor. -/
def closers : List Char := ['?', ':', ',', ']', '}', '%', '@', Char.ofNat 96]

/-- The name behind an anchor's or an alias's mark. -/
def name? (cursor : Cursor) : Option (String × Cursor) :=
  let (name, cursor) := (cursor.skip 1).span isWordChar
  let closed := blankOrEnd cursor.next || cursor.nextIs closers.contains
  if name.isEmpty || ! closed then none else some (String.ofList name, cursor)

end Anchor

namespace Tag

/-- The marks a tag may hold besides word characters. -/
def uriMarks : List Char :=
  [';', '/', '?', ':', '@', '&', '=', '+', '$', '.', '%', '!', '~', '*', Char.ofNat 39, '(', ')']

/-- The marks only a bracketed tag and a directive may hold. -/
def listMarks : List Char := [',', '[', ']']

/-- Whether a character may stand in a tag. -/
def isUriChar (wide : Bool) (char : Char) : Bool :=
  isWordChar char || uriMarks.contains char || (wide && listMarks.contains char)

/-- The bytes of a tag: a percent sign introduces one by its code. -/
def uriBytes : List Char → Option (List UInt8)
  | [] => some []
  | '%' :: high :: low :: rest =>
      match Scalar.hexValue? [high, low] with
      | none => none
      | some code => (uriBytes rest).map (UInt8.ofNat code :: ·)
  | char :: rest =>
      if char = '%' then none else (uriBytes rest).map (String.utf8EncodeChar char ++ ·)

/-- The text of a tag's characters. Bytes that are no text are refused. -/
def uriText? (chars : List Char) : Option String :=
  (uriBytes chars).bind fun bytes => String.fromUTF8? ⟨bytes.toArray⟩

/-- The characters of a tag. -/
def uri? (wide : Bool) (cursor : Cursor) : Option (String × Cursor) :=
  let (chars, cursor) := cursor.span (isUriChar wide)
  (uriText? chars).map fun text => (text, cursor)

/-- A handle and the rest of a tag that is spelled out between angle brackets. -/
def verbatim? (cursor : Cursor) : Option (String × String × Cursor) := do
  let (text, cursor) ← uri? true (cursor.skip 2)
  if text.isEmpty || cursor.next ≠ some '>' then none
  else some ("", text, cursor.skip 1)

/-- The characters of a handle: a mark, a word, perhaps another mark. -/
def handleChars (cursor : Cursor) : List Char × Cursor :=
  let (word, cursor) := (cursor.skip 1).span isWordChar
  if cursor.next = some '!' then ('!' :: word ++ ['!'], cursor.skip 1) else ('!' :: word, cursor)

/-- Whether characters are a handle: they end in a mark that is not the first one. -/
def isHandle (chars : List Char) : Bool := 1 < chars.length && chars.getLast? = some '!'

/-- A handle and the rest of a tag in short form. A lone mark has no handle. -/
def shorthand? (cursor : Cursor) : Option (String × String × Cursor) := do
  let (chars, cursor) := handleChars cursor
  let (text, cursor) ← uri? false cursor
  if isHandle chars then
    if text.isEmpty then none else some (String.ofList chars, text, cursor)
  else
    let rest := String.ofList (chars.drop 1) ++ text
    if rest.isEmpty then some ("", "!", cursor) else some ("!", rest, cursor)

/-- The handle and the rest of a tag whose mark is next. A blank has to follow, or a comma inside
brackets. -/
def read? (inFlow : Bool) (cursor : Cursor) : Option (String × String × Cursor) := do
  let (handle, rest, cursor) ←
    if cursor.ahead 1 = some '<' then verbatim? cursor else shorthand? cursor
  if (inFlow && cursor.next = some ',') || blankOrEnd cursor.next then some (handle, rest, cursor)
  else none

end Tag

namespace Directive

/-- The most digits a version number may have. -/
def versionDigits : Nat := 9

/-- A number of a version. -/
def versionNumber? (cursor : Cursor) : Option (Nat × Cursor) :=
  let (digits, cursor) := cursor.span Char.isDigit
  if digits.isEmpty || versionDigits < digits.length then none
  else some (digits.foldl (fun total digit => total * 10 + (digit.toNat - 48)) 0, cursor)

/-- The version behind its directive's name. -/
def version? (cursor : Cursor) : Option (Token × Cursor) := do
  let (major, cursor) ← versionNumber? (cursor.skipWhile isBlankChar)
  if cursor.next ≠ some '.' then none
  let (minor, cursor) ← versionNumber? (cursor.skip 1)
  some (.versionDirective major minor, cursor)

/-- The handle and what it stands for behind its directive's name. -/
def tag? (cursor : Cursor) : Option (Token × Cursor) := do
  let cursor := cursor.skipWhile isBlankChar
  if cursor.next ≠ some '!' then none
  let (handle, cursor) := Tag.handleChars cursor
  if ! (Tag.isHandle handle || handle = ['!']) || ! cursor.nextIs isBlankChar then none
  let (front, cursor) ← Tag.uri? true (cursor.skipWhile isBlankChar)
  if front.isEmpty || ! blankOrEnd cursor.next then none
  else some (.tagDirective (String.ofList handle) front, cursor)

/-- The directive whose mark is next, with the rest of its line. -/
def read? (cursor : Cursor) : Option (Token × Cursor) := do
  let (name, cursor) := (cursor.skip 1).span isWordChar
  if ! blankOrEnd cursor.next then none
  let (token, cursor) ←
    if name = ['Y', 'A', 'M', 'L'] then version? cursor
    else if name = ['T', 'A', 'G'] then tag? cursor
    else none
  some (token, ← cursor.restOfLine?)

end Directive

end HostPruning.Yaml
