import HostPruning.Yaml.Token.Tag

/-!
# The tokens of a text

Scanning goes through a text once. Whether a scalar is a key shows only at the colon behind
it, so the place in front of every possible key is noted and settled later: a draft holds
tokens and such places, and the places that turned out to be keys are listed beside it. A
possible key has to end on its line and within 1024 characters.
-/

namespace HostPruning.Yaml

/-- A piece of a draft: a token, or a place where a key may start. -/
inductive Draft where
  | token (token : Token)
  | place (number : Nat)

/-- A place that may turn out to be a key. -/
structure KeyPlace where
  number : Nat
  /-- Whether something else than a key is refused here. -/
  required : Bool
  index : Nat
  line : Nat
  column : Nat

/-- A scan in progress. -/
structure Scanner where
  cursor : Cursor
  /-- What has been scanned, last piece first. -/
  draft : List Draft
  /-- The number of places noted. -/
  places : Nat
  /-- The places that are keys, and whether a mapping starts there. -/
  settled : List (Nat × Bool)
  /-- The column of the innermost block collection, or -1. -/
  indent : Int
  /-- The columns of the block collections around it. -/
  outerIndents : List Int
  /-- The possible key of the innermost brackets, or of the block. -/
  possible : Option KeyPlace
  /-- The possible keys around each pair of brackets, innermost first. -/
  outerPossible : List (Option KeyPlace)
  /-- Whether a key may start here. -/
  keyAllowed : Bool

namespace Scanner

/-- A scan that has not begun. -/
def start (text : List Char) : Scanner :=
  ⟨Cursor.start text, [], 0, [], -1, [], none, [], true⟩

/-- Whether brackets are open. -/
def inFlow (scanner : Scanner) : Bool := ! scanner.outerPossible.isEmpty

/-- The column reached. -/
def column (scanner : Scanner) : Int := scanner.cursor.column

/-- Add a token. -/
def push (scanner : Scanner) (token : Token) : Scanner :=
  { scanner with draft := .token token :: scanner.draft }

/-- Add a token and go on behind it. -/
def pushAt (scanner : Scanner) (token : Token) (cursor : Cursor) : Scanner :=
  { scanner.push token with cursor := cursor }

/-- Add the token of a mark of some characters. -/
def pushMark (scanner : Scanner) (token : Token) (count : Nat) : Scanner :=
  scanner.pushAt token (scanner.cursor.skip count)

/-- Allow or forbid a key at the next place. -/
def allowKey (scanner : Scanner) (allowed : Bool) : Scanner := { scanner with keyAllowed := allowed }

/-- Whether a possible key has become impossible: its line is over, or it is too long. -/
def outOfReach (cursor : Cursor) (place : KeyPlace) : Bool :=
  place.line < cursor.line || place.index + 1024 < cursor.index

/-- A possible key at a later place; none when it was required and is out of reach. -/
def keepKey? (cursor : Cursor) : Option KeyPlace → Option (Option KeyPlace)
  | none => some none
  | some place =>
      if ! outOfReach cursor place then some (some place)
      else if place.required then none
      else some none

/-- Give up the possible keys that are out of reach. -/
def dropStale? (scanner : Scanner) : Option Scanner := do
  let possible ← keepKey? scanner.cursor scanner.possible
  let outerPossible ← scanner.outerPossible.mapM (keepKey? scanner.cursor)
  return { scanner with possible, outerPossible }

/-- Give up the innermost possible key; a required one cannot be given up. -/
def dropKey? (scanner : Scanner) : Option Scanner :=
  match scanner.possible with
  | some place => if place.required then none else some { scanner with possible := none }
  | none => some scanner

/-- Note that a key may start here. -/
def noteKey? (scanner : Scanner) : Option Scanner :=
  if ! scanner.keyAllowed then some scanner
  else do
    let scanner ← scanner.dropKey?
    let cursor := scanner.cursor
    let required := ! scanner.inFlow && scanner.indent = scanner.column
    return { scanner with
      draft := .place scanner.places :: scanner.draft
      places := scanner.places + 1
      possible := some ⟨scanner.places, required, cursor.index, cursor.line, cursor.column⟩ }

/-- End block collections by their columns, innermost first; gives the tokens' number. -/
def unwind (column indent : Int) : List Int → Nat × Int × List Int
  | [] => (0, indent, [])
  | outer :: rest =>
      if column < indent then
        let (ended, indent, rest) := unwind column outer rest
        (ended + 1, indent, rest)
      else (0, indent, outer :: rest)

/-- End the block collections that stand further right than a column. -/
def dedent (scanner : Scanner) (column : Int) : Scanner :=
  if scanner.inFlow then scanner
  else
    let (ended, indent, outer) := unwind column scanner.indent scanner.outerIndents
    { scanner with
      draft := List.replicate ended (.token .blockEnd) ++ scanner.draft
      indent := indent
      outerIndents := outer }

/-- Start a block collection at a column; the answer says whether it is a new one. -/
def indentTo (scanner : Scanner) (column : Int) : Bool × Scanner :=
  if ! scanner.inFlow && scanner.indent < column then
    (true, { scanner with indent := column, outerIndents := scanner.indent :: scanner.outerIndents })
  else (false, scanner)

/-- Start a block collection here, unless it has been started already. -/
def indentHere (scanner : Scanner) (token : Token) : Scanner :=
  match scanner.indentTo scanner.column with
  | (true, scanner) => scanner.push token
  | (false, scanner) => scanner

/-- Skip blanks, comments and line breaks in front of a token. A tab counts as a blank inside
brackets and where no key can start. A new line allows a key outside brackets. -/
def skipSpace : Nat → Scanner → Scanner
  | 0, scanner => scanner
  | budget + 1, scanner =>
      let cursor := scanner.cursor
      let cursor :=
        if cursor.column = 0 && cursor.next = some byteOrderMark then cursor.skip 1 else cursor
      let tabs := scanner.inFlow || ! scanner.keyAllowed
      let cursor := cursor.skipWhile fun char => char = ' ' || (tabs && char = '\t')
      let cursor :=
        if cursor.next = some '#' then cursor.skipWhile fun char => ! isBreak char else cursor
      match cursor.lineBreak? with
      | none => { scanner with cursor := cursor }
      | some (_, cursor) =>
          skipSpace budget
            { scanner with cursor := cursor, keyAllowed := scanner.keyAllowed || ! scanner.inFlow }

/-- End all block collections; nothing that was begun may be left over. -/
def closeBlocks? (scanner : Scanner) : Option Scanner :=
  ((scanner.dedent (-1)).dropKey?).map fun scanner => scanner.allowKey false

/-- A directive. -/
def directive? (scanner : Scanner) : Option Scanner := do
  let scanner ← scanner.closeBlocks?
  let (token, cursor) ← Directive.read? scanner.cursor
  return scanner.pushAt token cursor

/-- The start or the end of a document. -/
def documentMark? (scanner : Scanner) (token : Token) : Option Scanner := do
  return (← scanner.closeBlocks?).pushMark token 3

/-- An opening bracket. -/
def openBracket? (scanner : Scanner) (token : Token) : Option Scanner := do
  let scanner ← scanner.noteKey?
  let inside :=
    { scanner with possible := none, outerPossible := scanner.possible :: scanner.outerPossible }
  return (inside.allowKey true).pushMark token 1

/-- A closing bracket; one without an opening bracket is refused. -/
def closeBracket? (scanner : Scanner) (token : Token) : Option Scanner := do
  let scanner ← scanner.dropKey?
  match scanner.outerPossible with
  | [] => none
  | possible :: outerPossible =>
      return ({ scanner with possible, outerPossible }.allowKey false).pushMark token 1

/-- A comma inside brackets. -/
def comma? (scanner : Scanner) : Option Scanner := do
  return ((← scanner.dropKey?).allowKey true).pushMark .flowEntry 1

/-- The mark of a list entry. Outside brackets it may start a list. -/
def entry? (scanner : Scanner) : Option Scanner := do
  if ! scanner.inFlow && ! scanner.keyAllowed then none
  let scanner := if scanner.inFlow then scanner else scanner.indentHere .blockSequenceStart
  return ((← scanner.dropKey?).allowKey true).pushMark .blockEntry 1

/-- The mark of a key that is announced. -/
def explicitKey? (scanner : Scanner) : Option Scanner := do
  if ! scanner.inFlow && ! scanner.keyAllowed then none
  let scanner := if scanner.inFlow then scanner else scanner.indentHere .blockMappingStart
  return ((← scanner.dropKey?).allowKey (! scanner.inFlow)).pushMark .key 1

/-- The colon of a value. It settles a possible key; without one it stands for itself. -/
def colon? (scanner : Scanner) : Option Scanner :=
  match scanner.possible with
  | some place =>
      let (opened, scanner) := scanner.indentTo place.column
      let scanner :=
        { scanner with possible := none, settled := (place.number, opened) :: scanner.settled }
      some ((scanner.allowKey false).pushMark .value 1)
  | none =>
      if ! scanner.inFlow && ! scanner.keyAllowed then none
      else
        let scanner := if scanner.inFlow then scanner else scanner.indentHere .blockMappingStart
        some ((scanner.allowKey (! scanner.inFlow)).pushMark .value 1)

/-- An anchor or an alias. -/
def anchor? (scanner : Scanner) (token : String → Token) : Option Scanner := do
  let scanner := (← scanner.noteKey?).allowKey false
  let (name, cursor) ← Anchor.name? scanner.cursor
  return scanner.pushAt (token name) cursor

/-- A tag. -/
def tag? (scanner : Scanner) : Option Scanner := do
  let scanner := (← scanner.noteKey?).allowKey false
  let (handle, rest, cursor) ← Tag.read? scanner.inFlow scanner.cursor
  return scanner.pushAt (.tag handle rest) cursor

/-- A block scalar. -/
def block? (scanner : Scanner) (literal : Bool) : Option Scanner := do
  let scanner := (← scanner.dropKey?).allowKey true
  let (text, cursor) ← Scalar.block? literal scanner.indent scanner.cursor
  return scanner.pushAt (.scalar (if literal then .literal else .folded) (String.ofList text)) cursor

/-- A quoted scalar. -/
def quoted? (scanner : Scanner) (double : Bool) : Option Scanner := do
  let scanner := (← scanner.noteKey?).allowKey false
  let (text, cursor) ← Scalar.quoted? double scanner.cursor
  return scanner.pushAt (.scalar (if double then .doubleQuoted else .singleQuoted) (String.ofList text))
    cursor

/-- A plain scalar. A key may follow it on a further line. -/
def plain? (scanner : Scanner) : Option Scanner := do
  let scanner ← scanner.noteKey?
  let (text, broken, cursor) ← Scalar.plain? scanner.inFlow (scanner.indent + 1) scanner.cursor
  return (scanner.allowKey broken).pushAt (.scalar .plain (String.ofList text)) cursor

/-- The marks no plain scalar starts with, whatever follows. -/
def reserved : List Char :=
  [',', '[', ']', '{', '}', '#', '&', '*', '!', '|', '>', Char.ofNat 39, '"', '%', '@', Char.ofNat 96]

/-- Whether a plain scalar can start with a character, given the one after it. -/
def startsPlain (inFlow : Bool) (char : Char) (next : Option Char) : Bool :=
  if char = '-' then ! blankOrEnd next
  else if char = '?' || char = ':' then ! inFlow && ! blankOrEnd next
  else ! (isBlankChar char || isBreak char || reserved.contains char)

/-- Scan the token that starts with a character. -/
def token? (scanner : Scanner) (char : Char) : Option Scanner :=
  let next := scanner.cursor.ahead 1
  let marked := scanner.inFlow || blankOrEnd next
  if scanner.cursor.column = 0 && char = '%' then scanner.directive?
  else if scanner.cursor.atDocumentStart then scanner.documentMark? .documentStart
  else if scanner.cursor.atDocumentEnd then scanner.documentMark? .documentEnd
  else if char = '[' then scanner.openBracket? .flowSequenceStart
  else if char = '{' then scanner.openBracket? .flowMappingStart
  else if char = ']' then scanner.closeBracket? .flowSequenceEnd
  else if char = '}' then scanner.closeBracket? .flowMappingEnd
  else if char = ',' then scanner.comma?
  else if char = '-' && blankOrEnd next then scanner.entry?
  else if char = '?' && marked then scanner.explicitKey?
  else if char = ':' && marked then scanner.colon?
  else if char = '*' then scanner.anchor? .reference
  else if char = '&' then scanner.anchor? .anchor
  else if char = '!' then scanner.tag?
  else if char = '|' && ! scanner.inFlow then scanner.block? true
  else if char = '>' && ! scanner.inFlow then scanner.block? false
  else if char = Char.ofNat 39 then scanner.quoted? false
  else if char = '"' then scanner.quoted? true
  else if startsPlain scanner.inFlow char next then scanner.plain?
  else none

/-- Scan up to the end of the text. -/
def run : Nat → Scanner → Option Scanner
  | 0, _ => none
  | budget + 1, scanner => do
      let scanner := scanner.skipSpace (scanner.cursor.rest.length + 1)
      let scanner ← scanner.dropStale?
      let scanner := scanner.dedent scanner.column
      match scanner.cursor.next with
      | none => scanner.closeBlocks?
      | some char => run budget (← scanner.token? char)

/-- The tokens of one piece of a draft. -/
def Draft.tokens (settled : List (Nat × Bool)) : Draft → List Token
  | .token token => [token]
  | .place number =>
      match settled.lookup number with
      | none => []
      | some true => [.blockMappingStart, .key]
      | some false => [.key]

/-- The tokens of a scan. -/
def tokens (scanner : Scanner) : List Token :=
  scanner.draft.reverse.flatMap (Draft.tokens scanner.settled)

end Scanner

/-- The tokens of a text; none when a character or a token cannot stand where it is. -/
def Token.ofText? (text : String) : Option (List Token) :=
  let chars := match text.toList with
    | first :: rest => if first = byteOrderMark then rest else first :: rest
    | [] => []
  if chars.all isTextChar then
    ((Scanner.start chars).run (chars.length + 1)).map Scanner.tokens
  else none

end HostPruning.Yaml
