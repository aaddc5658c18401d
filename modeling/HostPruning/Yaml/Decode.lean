import HostPruning.Yaml.Node.OfTokens
import HostPruning.Yaml.Literal

/-!
# Decoding nodes

A setting whose type is known is decoded straight from its node: numbers and truth values
have to be plain, texts and names may be written in any style, and a mapping may be left
empty. Where the type depends on what is written, the node becomes a `Content` first, in
which a plain scalar counts as the word it is. Aliases are followed everywhere, up to a
depth and a number of times that keep hostile documents from growing.
-/

namespace HostPruning.Yaml

/-- How deep collections may nest in what is decoded. -/
def greatestDepth : Nat := 128

/-- The tags of words, after the common beginning. -/
def coreTag (name : String) : String := "tag:yaml.org,2002:" ++ name

/-- The name of a local tag, which starts with a mark; the mark alone is its own name. -/
def localTag? (tag : Option String) : Option String :=
  match tag with
  | none => none
  | some tag =>
      match tag.toList with
      | '!' :: rest => some (if rest.isEmpty then tag else String.ofList rest)
      | _ => none

namespace Document

/-- The node an alias leads to, or the node itself. -/
def resolve (document : Document) (node : Node) : Option Node :=
  match node with
  | .reference number => document.target? number
  | other => some other

/-- The text of a scalar in any style. -/
def text? (document : Document) (node : Node) : Option String :=
  match document.resolve node with
  | some (.scalar _ _ text) => some text
  | _ => none

/-- The text of a scalar that may be a word: a plain one, or a literal one that carries the tag of
the word's kind. -/
def word? (document : Document) (kind : String) (node : Node) : Option String :=
  match document.resolve node with
  | some (.scalar _ .plain text) => some text
  | some (.scalar properties .literal text) =>
      if properties.tag = some (coreTag kind) then some text else none
  | _ => none

/-- A truth value. -/
def truth? (document : Document) (node : Node) : Option Bool :=
  (document.word? "bool" node).bind Literal.truth?

/-- An unsigned integer of 64 bits. -/
def unsigned64? (document : Document) (node : Node) : Option Nat :=
  (document.word? "int" node).bind (Literal.unsigned? 64)

/-- A signed integer of 64 bits. -/
def signed64? (document : Document) (node : Node) : Option Int :=
  (document.word? "int" node).bind (Literal.signed? 64)

/-- A name: a scalar, or a local tag without content behind it. -/
def name? (document : Document) (node : Node) : Option String :=
  match document.resolve node with
  | some (.scalar properties style text) =>
      match localTag? properties.tag with
      | none => some text
      | some name => if style = .plain && (text.isEmpty || Literal.isNull text) then some name else none
  | _ => none

/-- The pairs of a mapping. A plain scalar without a character counts as a mapping without pairs. -/
def pairs? (document : Document) (node : Node) : Option (List (Node × Node)) :=
  match document.resolve node with
  | some (.mapping _ pairs) => some pairs
  | some (.scalar _ .plain "") => some []
  | _ => none

/-- The pairs of a mapping whose keys are texts. -/
def fields? (document : Document) (node : Node) : Option (List (String × Node)) :=
  (document.pairs? node).bind fun pairs =>
    pairs.mapM fun (key, value) => (document.text? key).map fun name => (name, value)

end Document

/-- A value by what is written: words count as what they mean. -/
inductive Content where
  | nothing
  | truth (value : Bool)
  /-- An integer without a minus sign that 64 bits hold. -/
  | unsigned (value : Nat)
  /-- An integer with a minus sign that 64 bits hold. -/
  | signed (value : Int)
  | real
  | text (value : String)
  | list (items : List Content)
  | mapping (pairs : List (Content × Content))

namespace Content

instance : Inhabited Content := ⟨nothing⟩

/-- The content of an integer; one that only 128 bits hold is refused. -/
def ofInteger (word : String) : Option (Option Content) :=
  match Literal.unsigned? 64 word, Literal.signed? 64 word with
  | some value, _ => some (some (unsigned value))
  | none, some value => some (some (signed value))
  | none, none =>
      if (Literal.unsigned? 128 word).isSome || (Literal.signed? 128 word).isSome then some none else none

/-- The content of a word. -/
def ofWord (word : String) : Option Content :=
  if word.isEmpty || Literal.isNull word then some nothing
  else match Literal.truth? word with
    | some value => some (truth value)
    | none =>
        match ofInteger word with
        | some content => content
        | none => some (if Literal.isReal word then real else text word)

/-- The content of a scalar. A core tag says what the text has to mean; a local tag is refused;
any other tag makes it a text. -/
def ofScalar (tag : Option String) (style : Style) (word : String) : Option Content :=
  match tag with
  | none => if style = .plain then ofWord word else some (text word)
  | some tag =>
      if (localTag? (some tag)).isSome then none
      else if tag = coreTag "bool" then (Literal.truth? word).map truth
      else if tag = coreTag "int" then (ofInteger word).join
      else if tag = coreTag "float" then if Literal.isReal word then some real else none
      else if tag = coreTag "null" then if Literal.isNull word then some nothing else none
      else some (text word)

/-- A number of aliases that may still be followed. -/
abbrev Allowance := Nat

mutual

/-- The content of a node. The budget bounds the steps down, `depth` the nesting. -/
def ofNode (document : Document) :
    (budget depth : Nat) → Node → Allowance → Option (Content × Allowance)
  | 0, _, _, _ => none
  | budget + 1, depth, node, allowance =>
      match node with
      | .reference number =>
          match allowance, document.target? number with
          | allowance + 1, some target => ofNode document budget depth target allowance
          | _, _ => none
      | .scalar properties style word =>
          (ofScalar properties.tag style word).map fun content => (content, allowance)
      | .sequence properties items =>
          match depth with
          | 0 => none
          | depth + 1 =>
              if (localTag? properties.tag).isSome then none
              else (ofItems document budget depth items allowance).map fun (items, allowance) =>
                (list items, allowance)
      | .mapping properties pairs =>
          match depth with
          | 0 => none
          | depth + 1 =>
              if (localTag? properties.tag).isSome then none
              else (ofPairs document budget depth pairs allowance).map fun (pairs, allowance) =>
                (mapping pairs, allowance)

/-- The contents of nodes. -/
def ofItems (document : Document) :
    (budget depth : Nat) → List Node → Allowance → Option (List Content × Allowance)
  | 0, _, _, _ => none
  | _ + 1, _, [], allowance => some ([], allowance)
  | budget + 1, depth, item :: rest, allowance => do
      let (item, allowance) ← ofNode document budget depth item allowance
      let (rest, allowance) ← ofItems document budget depth rest allowance
      return (item :: rest, allowance)

/-- The contents of pairs of nodes. -/
def ofPairs (document : Document) :
    (budget depth : Nat) → List (Node × Node) → Allowance → Option (List (Content × Content) × Allowance)
  | 0, _, _, _ => none
  | _ + 1, _, [], allowance => some ([], allowance)
  | budget + 1, depth, (key, value) :: rest, allowance => do
      let (key, allowance) ← ofNode document budget depth key allowance
      let (value, allowance) ← ofNode document budget depth value allowance
      let (rest, allowance) ← ofPairs document budget depth rest allowance
      return ((key, value) :: rest, allowance)

end

/-- How many aliases may be followed for each node that is written. -/
def aliasesPerNode : Nat := 100

/-- The content of a node of a document, `depth` levels of which may still be opened. -/
def ofDocumentNode (document : Document) (depth : Nat) (node : Node) : Option Content :=
  let allowance := aliasesPerNode * document.size
  (ofNode document (2 * document.size * (depth + 1) + 2) depth node allowance).map Prod.fst

/-- A text. -/
def text? : Content → Option String
  | text value => some value
  | _ => none

/-- An integer an unsigned type of some bits holds. -/
def unsigned? (bits : Nat) : Content → Option Nat
  | unsigned value => if value < Width.count bits then some value else none
  | signed 0 => some 0
  | _ => none

/-- The place of a field that a key means: its name, or its place as a number. Another name or
number means no field; a key of another kind is refused. -/
def fieldPlace? (names : List String) : Content → Option (Option Nat)
  | text name => some (names.idxOf? name)
  | unsigned place => some (if place < names.length then some place else none)
  | _ => none

/-- The places and values of a record's fields, in the order in which they are written. -/
def placedFields (names : List String) : List (Content × Content) → Option (List (Nat × Content))
  | [] => some []
  | (key, value) :: rest =>
      match fieldPlace? names key, placedFields names rest with
      | some (some place), some placed => some ((place, value) :: placed)
      | some none, some placed => some placed
      | _, _ => none

/-- The values given for a record's fields, in the order of their names; `none` for a field that
is not given. No field may be given twice, and a list may not be longer than the record. -/
def fields? (names : List String) : Content → Option (List (Option Content))
  | mapping pairs =>
      match placedFields names pairs with
      | none => none
      | some placed =>
          if (placed.map Prod.fst).Nodup then
            some ((List.range names.length).map fun place => placed.lookup place)
          else none
  | list items =>
      if items.length ≤ names.length then
        some (items.map some ++ List.replicate (names.length - items.length) none)
      else none
  | _ => none

/-- Whether a key of a mapping is a given text. -/
def isKey (document : Document) (depth : Nat) (name : String) (key : Node) : Option Bool :=
  (ofDocumentNode document depth key).map fun content => content.text? = some name

/-- The parts of a mapping or a list that says by a tag of its own what it is: in a mapping the tag
is the value of a given key, which has to be there once, in a list it is the first item. Gives the
tag and the content of what is left. -/
def tagged? (document : Document) (depth : Nat) (name : String) (node : Node) :
    Option (String × Content) := do
  match document.resolve node with
  | some (.mapping properties pairs) =>
      if (localTag? properties.tag).isSome then none
      let marked ← pairs.mapM fun (key, value) =>
        (isKey document (depth - 1) name key).map fun isTag => (isTag, key, value)
      match marked.filter Prod.fst with
      | [(_, _, value)] =>
          let others := (marked.filter fun entry => ! entry.1).map Prod.snd
          return (← document.text? value, ← ofDocumentNode document depth (.mapping {} others))
      | _ => none
  | some (.sequence properties (first :: rest)) =>
      if (localTag? properties.tag).isSome then none
      return (← document.text? first, ← ofDocumentNode document depth (.sequence {} rest))
  | _ => none

end Content

end HostPruning.Yaml
