import HostPruning.Yaml.Node

/-!
# Documents from tokens

A stream holds at most one document, perhaps after directives and between marks. Where a
node is expected and none is written, the empty node stands. Every reader answers none for
tokens that do not fit; the budget of a reader bounds the nesting.
-/

namespace HostPruning.Yaml

/-- What is known while tokens are read. -/
structure Reading where
  tokens : List Token
  /-- The names of anchors, with their numbers. -/
  names : List (String × Nat)
  /-- The handles of tags, with what they stand for. -/
  handles : List (String × String)

namespace Reading

/-- Go on behind some tokens. -/
def behind (reading : Reading) (tokens : List Token) : Reading := { reading with tokens := tokens }

/-- Give an anchor its number. -/
def nameAnchor (name : String) (reading : Reading) : Nat × Reading :=
  let number := reading.names.length
  (number, { reading with
    names := (name, number) :: reading.names.filter fun entry => entry.1 ≠ name })

/-- The tag a handle and a rest make. -/
def resolveTag? (reading : Reading) (handle rest : String) : Option String :=
  if handle.isEmpty then some rest
  else (reading.handles.lookup handle).map fun front => front ++ rest

/-- Read a tag if one is next. -/
def takeTag (reading : Reading) : Option (String × String) × Reading :=
  match reading.tokens with
  | .tag handle rest :: tokens => (some (handle, rest), reading.behind tokens)
  | _ => (none, reading)

/-- Read an anchor if one is next. -/
def takeAnchor (reading : Reading) : Option String × Reading :=
  match reading.tokens with
  | .anchor name :: tokens => (some name, reading.behind tokens)
  | _ => (none, reading)

/-- The properties in front of a node, a tag and an anchor in either order. -/
def properties? (reading : Reading) : Option (Properties × Reading) := do
  let (before, reading) := reading.takeAnchor
  let (tag, reading) := reading.takeTag
  let (name, reading) :=
    if before.isSome then (before, reading) else if tag.isSome then reading.takeAnchor else (none, reading)
  let resolved ← match tag with
    | none => some none
    | some (handle, rest) => (reading.resolveTag? handle rest).map some
  match name with
  | none => some (⟨resolved, none⟩, reading)
  | some name =>
      let (number, reading) := reading.nameAnchor name
      some (⟨resolved, some number⟩, reading)

/-- Whether a block list's entry is left empty. -/
def emptyEntry : List Token → Bool
  | .blockEntry :: _ | .blockEnd :: _ => true
  | _ => false

/-- Whether an entry of a list that is not indented is left empty. -/
def emptyLooseEntry : List Token → Bool
  | .blockEntry :: _ | .key :: _ | .value :: _ | .blockEnd :: _ => true
  | _ => false

/-- Whether a key or a value of a block mapping is left empty. -/
def emptyPart : List Token → Bool
  | .key :: _ | .value :: _ | .blockEnd :: _ => true
  | _ => false

/-- Whether a key in brackets is left empty, given the closing bracket. -/
def emptyFlowKey (closing : Token) : List Token → Bool
  | .value :: _ | .flowEntry :: _ => true
  | token :: _ => token = closing
  | [] => false

/-- Whether a value in brackets is left empty, given the closing bracket. -/
def emptyFlowValue (closing : Token) : List Token → Bool
  | .flowEntry :: _ => true
  | token :: _ => token = closing
  | [] => false

mutual

/-- Read a node. Block collections are allowed outside brackets; a list that is not indented is
allowed as a part of a mapping. -/
def node? (block loose : Bool) : Nat → Reading → Option (Node × Reading)
  | 0, _ => none
  | budget + 1, reading =>
      match reading.tokens with
      | .reference name :: tokens =>
          (reading.names.lookup name).map fun number => (.reference number, reading.behind tokens)
      | _ => do
          let (properties, reading) ← reading.properties?
          match reading.tokens with
          | .blockEntry :: _ =>
              if loose then do
                let (items, reading) ← looseEntries? budget reading
                return (.sequence properties items, reading)
              else bare? properties reading
          | .scalar style text :: tokens => return (.scalar properties style text, reading.behind tokens)
          | .flowSequenceStart :: tokens => do
              let (items, reading) ← flowItems? true budget (reading.behind tokens)
              return (.sequence properties items, reading)
          | .flowMappingStart :: tokens => do
              let (pairs, reading) ← flowPairs? true budget (reading.behind tokens)
              return (.mapping properties pairs, reading)
          | .blockSequenceStart :: tokens =>
              if block then do
                let (items, reading) ← blockEntries? budget (reading.behind tokens)
                return (.sequence properties items, reading)
              else bare? properties reading
          | .blockMappingStart :: tokens =>
              if block then do
                let (pairs, reading) ← blockPairs? budget (reading.behind tokens)
                return (.mapping properties pairs, reading)
              else bare? properties reading
          | _ => bare? properties reading

/-- A node that has properties and no content. -/
def bare? (properties : Properties) (reading : Reading) : Option (Node × Reading) :=
  if properties.tag.isSome || properties.anchor.isSome then
    some (.scalar properties .plain "", reading)
  else none

/-- Read the entries of an indented list. -/
def blockEntries? : Nat → Reading → Option (List Node × Reading)
  | 0, _ => none
  | budget + 1, reading =>
      match reading.tokens with
      | .blockEnd :: tokens => some ([], reading.behind tokens)
      | .blockEntry :: tokens => do
          let reading := reading.behind tokens
          let (item, reading) ←
            if emptyEntry tokens then some (Node.empty, reading) else node? true false budget reading
          let (items, reading) ← blockEntries? budget reading
          return (item :: items, reading)
      | _ => none

/-- Read the entries of a list that is not indented. -/
def looseEntries? : Nat → Reading → Option (List Node × Reading)
  | 0, _ => none
  | budget + 1, reading =>
      match reading.tokens with
      | .blockEntry :: tokens => do
          let reading := reading.behind tokens
          let (item, reading) ←
            if emptyLooseEntry tokens then some (Node.empty, reading)
            else node? true false budget reading
          let (items, reading) ← looseEntries? budget reading
          return (item :: items, reading)
      | _ => some ([], reading)

/-- Read the pairs of an indented mapping. -/
def blockPairs? : Nat → Reading → Option (List (Node × Node) × Reading)
  | 0, _ => none
  | budget + 1, reading =>
      match reading.tokens with
      | .blockEnd :: tokens => some ([], reading.behind tokens)
      | .key :: tokens => do
          let reading := reading.behind tokens
          let (key, reading) ←
            if emptyPart tokens then some (Node.empty, reading) else node? true true budget reading
          let (value, reading) ← match reading.tokens with
            | .value :: tokens =>
                let reading := reading.behind tokens
                if emptyPart tokens then some (Node.empty, reading) else node? true true budget reading
            | _ => some (Node.empty, reading)
          let (pairs, reading) ← blockPairs? budget reading
          return ((key, value) :: pairs, reading)
      | _ => none

/-- Read the items of a sequence in brackets. An item with a colon is a mapping of one pair. -/
def flowItems? (first : Bool) : Nat → Reading → Option (List Node × Reading)
  | 0, _ => none
  | budget + 1, reading => do
      match reading.tokens with
      | .flowSequenceEnd :: tokens => return ([], reading.behind tokens)
      | _ =>
          let reading ← separated? first reading
          match reading.tokens with
          | .flowSequenceEnd :: tokens => return ([], reading.behind tokens)
          | .key :: tokens => do
              let (pair, reading) ← flowPair? budget (reading.behind tokens)
              let (items, reading) ← flowItems? false budget reading
              return (.mapping {} [pair] :: items, reading)
          | _ => do
              let (item, reading) ← node? false false budget reading
              let (items, reading) ← flowItems? false budget reading
              return (item :: items, reading)

/-- Pass the comma in front of every item but the first. -/
def separated? (first : Bool) (reading : Reading) : Option Reading :=
  if first then some reading
  else match reading.tokens with
    | .flowEntry :: tokens => some (reading.behind tokens)
    | _ => none

/-- Read the pair of an item behind the mark of its key. A key that is left empty takes the token
behind it along. -/
def flowPair? : Nat → Reading → Option ((Node × Node) × Reading)
  | 0, _ => none
  | budget + 1, reading => do
      let (key, reading) ←
        if emptyFlowKey .flowSequenceEnd reading.tokens then
          some (Node.empty, reading.behind (reading.tokens.drop 1))
        else node? false false budget reading
      let (value, reading) ← match reading.tokens with
        | .value :: tokens =>
            let reading := reading.behind tokens
            if emptyFlowValue .flowSequenceEnd tokens then some (Node.empty, reading)
            else node? false false budget reading
        | _ => some (Node.empty, reading)
      return ((key, value), reading)

/-- Read the pairs of a mapping in brackets. An item without a colon is a key without a value. -/
def flowPairs? (first : Bool) : Nat → Reading → Option (List (Node × Node) × Reading)
  | 0, _ => none
  | budget + 1, reading => do
      match reading.tokens with
      | .flowMappingEnd :: tokens => return ([], reading.behind tokens)
      | _ =>
          let reading ← separated? first reading
          match reading.tokens with
          | .flowMappingEnd :: tokens => return ([], reading.behind tokens)
          | .key :: tokens => do
              let reading := reading.behind tokens
              let (key, reading) ←
                if emptyFlowKey .flowMappingEnd tokens then some (Node.empty, reading)
                else node? false false budget reading
              let (value, reading) ← match reading.tokens with
                | .value :: tokens =>
                    let reading := reading.behind tokens
                    if emptyFlowValue .flowMappingEnd tokens then some (Node.empty, reading)
                    else node? false false budget reading
                | _ => some (Node.empty, reading)
              let (pairs, reading) ← flowPairs? false budget reading
              return ((key, value) :: pairs, reading)
          | _ => do
              let (key, reading) ← node? false false budget reading
              let (pairs, reading) ← flowPairs? false budget reading
              return ((key, Node.empty) :: pairs, reading)

end

/-- The handles every document knows. -/
def standardHandles : List (String × String) := [("!", "!"), ("!!", "tag:yaml.org,2002:")]

/-- What directives have said so far. -/
structure Directives where
  version : Option (Nat × Nat)
  handles : List (String × String)

/-- Read the directives in front of a document: a known version, and each handle once. -/
def directives? : List Token → Directives → Option (Directives × List Token)
  | .versionDirective major minor :: tokens, known =>
      if known.version.isSome || major ≠ 1 || ! (minor = 1 || minor = 2) then none
      else directives? tokens { known with version := some (major, minor) }
  | .tagDirective handle front :: tokens, known =>
      if (known.handles.lookup handle).isSome then none
      else directives? tokens { known with handles := (handle, front) :: known.handles }
  | tokens, known => some (known, tokens)

/-- Whether tokens start with a mark between documents, or end. -/
def betweenDocuments : List Token → Bool
  | [] => true
  | .versionDirective _ _ :: _ | .tagDirective _ _ :: _ | .documentStart :: _ | .documentEnd :: _ => true
  | _ => false

/-- Read the content behind the start of a document. -/
def content? (handles : List (String × String)) (tokens : List Token) : Option (Node × List Token) :=
  if betweenDocuments tokens then some (Node.empty, tokens)
  else (node? true false (4 * tokens.length + 4) ⟨tokens, [], handles⟩).map fun (root, reading) =>
    (root, reading.tokens)

/-- Read a document with its start: none is needed for the first one. -/
def document? (tokens : List Token) : Option (Node × List Token) :=
  match tokens with
  | .versionDirective _ _ :: _ | .tagDirective _ _ :: _ | .documentStart :: _ =>
      match directives? tokens ⟨none, []⟩ with
      | some (known, .documentStart :: tokens) => content? (known.handles ++ standardHandles) tokens
      | _ => none
  | .documentEnd :: _ => none
  | _ => content? standardHandles tokens

end Reading

/-- The only document of a stream of tokens. -/
def Document.ofTokens? (tokens : List Token) : Option Document :=
  if tokens.isEmpty then some ⟨none⟩
  else match Reading.document? tokens with
    | none => none
    | some (root, rest) => if rest.all (· = .documentEnd) then some ⟨some root⟩ else none

/-- The only document of a text. -/
def Document.ofText? (text : String) : Option Document :=
  (Token.ofText? text).bind Document.ofTokens?

end HostPruning.Yaml
