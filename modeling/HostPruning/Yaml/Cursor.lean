/-!
# Places in a YAML text

A cursor is what is left of a text together with the place reached: the number of
characters passed, the line and the column. Line breaks are counted by kind: a carriage
return with a line feed is one break, and the Unicode separators keep their character
when a scalar spans lines, where all other breaks become a line feed.
-/

namespace HostPruning.Yaml

/-- Space or tab. -/
def isBlankChar (char : Char) : Bool := char = ' ' || char = '\t'

/-- A character that ends a line. -/
def isBreak (char : Char) : Bool :=
  char = '\n' || char = '\r' || char.toNat = 0x85 || char.toNat = 0x2028 || char.toNat = 0x2029

/-- A character of a name: of an anchor, a directive or a tag handle. -/
def isWordChar (char : Char) : Bool := char.isAlphanum || char = '_' || char = '-'

/-- The byte order mark. -/
def byteOrderMark : Char := Char.ofNat 0xFEFF

/-- A character that may stand in a text at all. -/
def isTextChar (char : Char) : Bool :=
  let code := char.toNat
  code = 9 || code = 10 || code = 13 || (0x20 ≤ code && code ≤ 0x7E) || code = 0x85 ||
    (0xA0 ≤ code && code ≤ 0xD7FF) || (0xE000 ≤ code && code ≤ 0xFFFD) || 0x10000 ≤ code

/-- Whether the next character, if any, is a blank or ends the line. -/
def blankOrEnd : Option Char → Bool
  | none => true
  | some char => isBlankChar char || isBreak char

/-- What is left of a text, and the place reached. -/
structure Cursor where
  rest : List Char
  index : Nat
  line : Nat
  column : Nat

namespace Cursor

/-- The start of a text. -/
def start (text : List Char) : Cursor := ⟨text, 0, 0, 0⟩

/-- The next character. -/
def next (cursor : Cursor) : Option Char := cursor.rest.head?

/-- The character a number of places ahead. -/
def ahead (cursor : Cursor) (places : Nat) : Option Char := cursor.rest[places]?

/-- Whether the text ends here. -/
def atEnd (cursor : Cursor) : Bool := cursor.rest.isEmpty

/-- Pass characters of the line. -/
def skip (cursor : Cursor) (count : Nat) : Cursor :=
  { cursor with
    rest := cursor.rest.drop count
    index := cursor.index + count
    column := cursor.column + count }

/-- Pass the characters of the line that satisfy a test; gives them. -/
def span (test : Char → Bool) (cursor : Cursor) : List Char × Cursor :=
  let passed := cursor.rest.takeWhile test
  (passed, cursor.skip passed.length)

/-- Pass the characters of the line that satisfy a test. -/
def skipWhile (test : Char → Bool) (cursor : Cursor) : Cursor := (cursor.span test).2

/-- Whether the next character satisfies a test. -/
def nextIs (test : Char → Bool) (cursor : Cursor) : Bool :=
  match cursor.next with
  | some char => test char
  | none => false

/-- Pass a line break of some characters. -/
def endLine (cursor : Cursor) (count : Nat) : Cursor :=
  ⟨cursor.rest.drop count, cursor.index + count, cursor.line + 1, 0⟩

/-- Pass a line break, if there is one; gives what it amounts to inside a scalar. -/
def lineBreak? (cursor : Cursor) : Option (Char × Cursor) :=
  match cursor.rest with
  | '\r' :: '\n' :: _ => some ('\n', cursor.endLine 2)
  | char :: _ =>
      if isBreak char then
        some (if char.toNat = 0x2028 ∨ char.toNat = 0x2029 then char else '\n', cursor.endLine 1)
      else none
  | [] => none

/-- Whether a line of three given characters, or one that goes on with a blank, starts here. -/
def atMark (mark : List Char) (cursor : Cursor) : Bool :=
  cursor.column = 0 && mark.isPrefixOf cursor.rest && blankOrEnd (cursor.ahead 3)

/-- Whether a document starts here. -/
def atDocumentStart (cursor : Cursor) : Bool := cursor.atMark ['-', '-', '-']

/-- Whether a document ends here. -/
def atDocumentEnd (cursor : Cursor) : Bool := cursor.atMark ['.', '.', '.']

/-- Whether a document starts or ends here. -/
def atDocumentMark (cursor : Cursor) : Bool := cursor.atDocumentStart || cursor.atDocumentEnd

/-- Pass blanks and a comment up to the end of the line; none when something else is there. -/
def restOfLine? (cursor : Cursor) : Option Cursor :=
  let cursor := cursor.skipWhile isBlankChar
  let cursor := if cursor.next = some '#' then cursor.skipWhile fun char => ! isBreak char else cursor
  match cursor.lineBreak? with
  | some (_, cursor) => some cursor
  | none => if cursor.atEnd then some cursor else none

end Cursor

end HostPruning.Yaml
