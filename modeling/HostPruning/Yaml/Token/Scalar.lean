import HostPruning.Yaml.Cursor
import HostPruning.Yaml.Token

/-!
# Scalars

A scalar is plain, quoted or a block. In plain and quoted scalars a single line break
between two pieces becomes a blank, and of several the first is dropped; a block scalar
keeps its lines, or folds those that do not start with a blank. Every reader answers none
for a text that is not well formed.
-/

namespace HostPruning.Yaml

/-- What lies between two pieces of a scalar. -/
structure Gap where
  /-- The blanks, while there is no line break. -/
  blanks : List Char := []
  /-- The first line break; an escaped one is empty. -/
  first : Option (List Char) := none
  /-- The further line breaks. -/
  others : List Char := []

namespace Gap

/-- Whether there is a line break. -/
def broken (gap : Gap) : Bool := gap.first.isSome

/-- What the gap amounts to once another piece follows. -/
def folded (gap : Gap) : List Char :=
  match gap.first with
  | none => gap.blanks
  | some ['\n'] => if gap.others.isEmpty then [' '] else gap.others
  | some first => first ++ gap.others

/-- Add a blank; at the start of a further line it does not count. -/
def addBlank (gap : Gap) (char : Char) : Gap :=
  if gap.broken then gap else { gap with blanks := gap.blanks ++ [char] }

/-- Add a line break. -/
def addBreak (gap : Gap) (char : Char) : Gap :=
  if gap.broken then { gap with others := gap.others ++ [char] } else ⟨[], some [char], []⟩

/-- Pass blanks and line breaks. Where an indentation is given, a tab in front of it on a
further line is refused. -/
def read (indent : Option Int) : Nat → Gap → Cursor → Option (Gap × Cursor)
  | 0, _, _ => none
  | budget + 1, gap, cursor =>
      match cursor.next with
      | none => some (gap, cursor)
      | some char =>
          if isBlankChar char then
            let tooEarly := match indent with
              | none => false
              | some indent => (cursor.column : Int) < indent
            if gap.broken && tooEarly && char = '\t' then none
            else read indent budget (gap.addBlank char) (cursor.skip 1)
          else match cursor.lineBreak? with
            | some (lineBreak, cursor) => read indent budget (gap.addBreak lineBreak) cursor
            | none => some (gap, cursor)

end Gap

namespace Scalar

/-- The characters that end a plain scalar inside brackets. -/
def flowMarks : List Char := [',', '[', ']', '{', '}']

/-- Whether a plain scalar ends before a character, given the one after it. -/
def endsPlain (inFlow : Bool) (char : Char) (next : Option Char) : Bool :=
  isBlankChar char || isBreak char || (char = ':' && blankOrEnd next) ||
    (inFlow && flowMarks.contains char)

/-- Whether a colon stands where brackets do not allow it. -/
def straysColon (inFlow : Bool) (char : Char) (next : Option Char) : Bool :=
  inFlow && char = ':' && (match next with
    | some next => next = '?' || flowMarks.contains next
    | none => false)

/-- The characters of a plain scalar up to the next blank or mark. -/
def plainPiece (inFlow : Bool) : List Char → Option (List Char)
  | [] => some []
  | char :: rest =>
      if straysColon inFlow char rest.head? then none
      else if endsPlain inFlow char rest.head? then some []
      else (plainPiece inFlow rest).map (char :: ·)

/-- The rest of a plain scalar, given what has been read of it and the gap behind that. Gives
the text and whether the scalar ends on a further line. -/
def plainFrom (inFlow : Bool) (indent : Int) :
    Nat → List Char → Gap → Cursor → Option (List Char × Bool × Cursor)
  | 0, _, _, _ => none
  | budget + 1, taken, gap, cursor =>
      if cursor.atDocumentMark || cursor.next = some '#' then some (taken, gap.broken, cursor)
      else match plainPiece inFlow cursor.rest with
        | none => none
        | some [] => some (taken, gap.broken, cursor)
        | some piece =>
            let taken := taken ++ gap.folded ++ piece
            let cursor := cursor.skip piece.length
            if cursor.nextIs fun char => isBlankChar char || isBreak char then
              match Gap.read (some indent) (cursor.rest.length + 1) {} cursor with
              | none => none
              | some (gap, cursor) =>
                  if ! inFlow && (cursor.column : Int) < indent then some (taken, gap.broken, cursor)
                  else plainFrom inFlow indent budget taken gap cursor
            else some (taken, false, cursor)

/-- A plain scalar. Outside brackets its further lines are indented. -/
def plain? (inFlow : Bool) (indent : Int) (cursor : Cursor) : Option (List Char × Bool × Cursor) :=
  plainFrom inFlow indent (cursor.rest.length + 1) [] {} cursor

/-- The quote of a style. -/
def quoteMark (double : Bool) : Char := if double then '"' else Char.ofNat 39

/-- The value of hexadecimal digits. -/
def hexValue? (digits : List Char) : Option Nat :=
  digits.foldl (fun total digit =>
    match total with
    | none => none
    | some total =>
        if digit.isDigit then some (total * 16 + (digit.toNat - 48))
        else if 'a' ≤ digit ∧ digit ≤ 'f' then some (total * 16 + (digit.toNat - 87))
        else if 'A' ≤ digit ∧ digit ≤ 'F' then some (total * 16 + (digit.toNat - 55))
        else none) (some 0)

/-- The character of a one-letter escape. -/
def shortEscape? : Char → Option Nat
  | '0' => some 0
  | 'a' => some 7
  | 'b' => some 8
  | 't' | '\t' => some 9
  | 'n' => some 10
  | 'v' => some 11
  | 'f' => some 12
  | 'r' => some 13
  | 'e' => some 27
  | ' ' => some 32
  | '"' => some 34
  | '/' => some 47
  | '\\' => some 92
  | 'N' => some 0x85
  | '_' => some 0xA0
  | 'L' => some 0x2028
  | 'P' => some 0x2029
  | _ => none

/-- The number of digits of an escape by code. -/
def codeLength? : Char → Option Nat
  | 'x' => some 2
  | 'u' => some 4
  | 'U' => some 8
  | _ => none

/-- A character of a code; surrogates and codes beyond Unicode have none. -/
def charOfCode? (code : Nat) : Option Char :=
  if (0xD800 ≤ code ∧ code ≤ 0xDFFF) ∨ 0x10FFFF < code then none else some (Char.ofNat code)

/-- The character of an escape after its backslash, and the number of characters it takes. -/
def escape? : List Char → Option (Char × Nat)
  | [] => none
  | letter :: rest =>
      match shortEscape? letter with
      | some code => some (Char.ofNat code, 1)
      | none =>
          match codeLength? letter with
          | none => none
          | some count =>
              if rest.length < count then none
              else match hexValue? (rest.take count) with
                | none => none
                | some code => (charOfCode? code).map fun char => (char, count + 1)

/-- The characters of a quoted scalar up to the next blank, line break or closing quote. The
answer says whether an escaped line break ended them. -/
def quotedPiece (double : Bool) : Nat → Cursor → Option (List Char × Bool × Cursor)
  | 0, _ => none
  | budget + 1, cursor =>
      match cursor.rest with
      | [] => some ([], false, cursor)
      | char :: rest =>
          if isBlankChar char || isBreak char then some ([], false, cursor)
          else if ! double && char = quoteMark false && rest.head? = some (quoteMark false) then
            (quotedPiece double budget (cursor.skip 2)).map fun (piece, broken, cursor) =>
              (char :: piece, broken, cursor)
          else if char = quoteMark double then some ([], false, cursor)
          else if double && char = '\\' then
            match (cursor.skip 1).lineBreak? with
            | some (_, cursor) => some ([], true, cursor)
            | none =>
                match escape? rest with
                | none => none
                | some (escaped, count) =>
                    (quotedPiece double budget (cursor.skip (count + 1))).map
                      fun (piece, broken, cursor) => (escaped :: piece, broken, cursor)
          else
            (quotedPiece double budget (cursor.skip 1)).map fun (piece, broken, cursor) =>
              (char :: piece, broken, cursor)

/-- The rest of a quoted scalar, given what has been read of it. -/
def quotedFrom (double : Bool) : Nat → List Char → Cursor → Option (List Char × Cursor)
  | 0, _, _ => none
  | budget + 1, taken, cursor =>
      if cursor.atDocumentMark || cursor.atEnd then none
      else match quotedPiece double (cursor.rest.length + 1) cursor with
        | none => none
        | some (piece, broken, cursor) =>
            if cursor.next = some (quoteMark double) then some (taken ++ piece, cursor.skip 1)
            else
              let gap : Gap := if broken then ⟨[], some [], []⟩ else {}
              match Gap.read none (cursor.rest.length + 1) gap cursor with
              | none => none
              | some (gap, cursor) => quotedFrom double budget (taken ++ piece ++ gap.folded) cursor

/-- A quoted scalar whose opening quote is next. -/
def quoted? (double : Bool) (cursor : Cursor) : Option (List Char × Cursor) :=
  quotedFrom double (cursor.rest.length + 1) [] (cursor.skip 1)

/-- What becomes of the line breaks at the end of a block scalar. -/
inductive Chomping where
  | strip
  | clip
  | keep
deriving DecidableEq

/-- The head of a block scalar: chomping and the indentation given, if any. -/
structure BlockHead where
  chomping : Chomping
  increment : Option Nat

/-- A chomping mark. -/
def chomping? : Option Char → Option Chomping
  | some '+' => some .keep
  | some '-' => some .strip
  | _ => none

/-- The indentation of a digit; zero is refused. -/
def increment? (cursor : Cursor) : Option (Option Nat × Cursor) :=
  match cursor.next with
  | some char =>
      if char.isDigit then
        if char = '0' then none else some (some (char.toNat - 48), cursor.skip 1)
      else some (none, cursor)
  | none => some (none, cursor)

/-- The head of a block scalar, in either order, up to the end of its line. -/
def blockHead? (cursor : Cursor) : Option (BlockHead × Cursor) := do
  match chomping? cursor.next with
  | some chomping => do
      let (increment, cursor) ← increment? (cursor.skip 1)
      return (⟨chomping, increment⟩, ← cursor.restOfLine?)
  | none => do
      let (increment, cursor) ← increment? cursor
      match increment, chomping? cursor.next with
      | some _, some chomping => return (⟨chomping, increment⟩, ← (cursor.skip 1).restOfLine?)
      | _, _ => return (⟨.clip, increment⟩, ← cursor.restOfLine?)

/-- Pass spaces up to the indentation, or all of them while there is none. -/
def skipIndent (indent : Option Nat) (cursor : Cursor) : Cursor :=
  let spaces := (cursor.rest.takeWhile (· = ' ')).length
  match indent with
  | none => cursor.skip spaces
  | some indent => cursor.skip (min spaces (indent - cursor.column))

/-- Pass the empty lines of a block scalar; gives their line breaks and the deepest column seen.
A tab in place of an indentation is refused. -/
def emptyLines (indent : Option Nat) :
    Nat → Nat → List Char → Cursor → Option (Nat × List Char × Cursor)
  | 0, _, _, _ => none
  | budget + 1, deepest, breaks, cursor =>
      let cursor := skipIndent indent cursor
      let deepest := max deepest cursor.column
      let tooEarly := match indent with
        | none => true
        | some indent => cursor.column < indent
      if tooEarly && cursor.next = some '\t' then none
      else match cursor.lineBreak? with
        | some (lineBreak, cursor) => emptyLines indent budget deepest (breaks ++ [lineBreak]) cursor
        | none => some (deepest, breaks, cursor)

/-- What is known of a block scalar between two lines. -/
structure BlockState where
  text : List Char
  /-- The line break behind the last line. -/
  lastBreak : List Char
  /-- The line breaks of the empty lines behind it. -/
  trailing : List Char
  /-- Whether the last line started with a blank. -/
  blankBefore : Bool

/-- The line breaks in front of a further line. -/
def BlockState.joint (state : BlockState) (literal blank : Bool) : List Char :=
  if ! literal && state.lastBreak = ['\n'] && ! state.blankBefore && ! blank then
    (if state.trailing.isEmpty then [' '] else []) ++ state.trailing
  else state.lastBreak ++ state.trailing

/-- Read the lines of a block scalar that stand at its indentation. -/
def blockLines (literal : Bool) (indent : Nat) :
    Nat → BlockState → Cursor → Option (BlockState × Cursor)
  | 0, _, _ => none
  | budget + 1, state, cursor =>
      if cursor.column ≠ indent ∨ cursor.atEnd then some (state, cursor)
      else
        let blank := cursor.nextIs isBlankChar
        let (line, cursor) := cursor.span fun char => ! isBreak char
        let text := state.text ++ state.joint literal blank ++ line
        let (lastBreak, cursor) := match cursor.lineBreak? with
          | some (lineBreak, cursor) => ([lineBreak], cursor)
          | none => ([], cursor)
        match emptyLines (some indent) (cursor.rest.length + 1) 0 [] cursor with
        | none => none
        | some (_, trailing, cursor) =>
            blockLines literal indent budget ⟨text, lastBreak, trailing, blank⟩ cursor

/-- The text of a block scalar once its lines have been read. -/
def BlockState.chomped (state : BlockState) : Chomping → List Char
  | .strip => state.text
  | .clip => state.text ++ state.lastBreak
  | .keep => state.text ++ state.lastBreak ++ state.trailing

/-- A block scalar whose mark is next, inside a block of a given indentation. Without an
indentation of its own it takes that of its first line. -/
def block? (literal : Bool) (parent : Int) (cursor : Cursor) : Option (List Char × Cursor) := do
  let (head, cursor) ← blockHead? (cursor.skip 1)
  let given := head.increment.map fun increment =>
    if 0 ≤ parent then parent.toNat + increment else increment
  let (deepest, breaks, cursor) ← emptyLines given (cursor.rest.length + 1) 0 [] cursor
  let indent := given.getD (max 1 (max deepest (parent + 1).toNat))
  let (state, cursor) ←
    blockLines literal indent (cursor.rest.length + 1) ⟨[], [], breaks, false⟩ cursor
  return (state.chomped head.chomping, cursor)

end Scalar

end HostPruning.Yaml
