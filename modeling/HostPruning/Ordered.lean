/-!
# Ascending collections

Sets and keyed tables are lists in strictly ascending order of their keys. The
order is part of the type, so a collection has one representation: what a report
prints, what a scan visits and what a comparison sees never depends on the order
in which entries arrived.
-/

namespace HostPruning

/-- A key type whose `<` is a strict total order. -/
class AscendingKey (Key : Type) [LT Key] : Prop where
  trans : ∀ {a b c : Key}, a < b → b < c → a < c
  irrefl : ∀ a : Key, ¬ a < a
  total : ∀ a b : Key, a < b ∨ a = b ∨ b < a

instance : AscendingKey String where
  trans := String.lt_trans
  irrefl := String.lt_irrefl
  total a b := by
    rcases String.le_total a b with le | le
    · by_cases eq : a = b
      · exact Or.inr (Or.inl eq)
      · exact Or.inl (Std.lt_of_le_of_ne le eq)
    · by_cases eq : b = a
      · exact Or.inr (Or.inl eq.symm)
      · exact Or.inr (Or.inr (Std.lt_of_le_of_ne le eq))

/-- A table from keys to values, in strictly ascending order of its keys. -/
structure Table (Key Value : Type) [LT Key] where
  entries : List (Key × Value)
  ascending : entries.Pairwise (fun earlier later => earlier.1 < later.1)

namespace Table

variable {Key Value : Type} [LT Key]

/-- The table without entries. -/
def empty : Table Key Value := ⟨[], .nil⟩

instance : EmptyCollection (Table Key Value) := ⟨empty⟩
instance : Inhabited (Table Key Value) := ⟨empty⟩

/-- The number of entries. -/
def size (table : Table Key Value) : Nat := table.entries.length

/-- Whether there is no entry. -/
def isEmpty (table : Table Key Value) : Bool := table.entries.isEmpty

/-- The keys, ascending. -/
def keys (table : Table Key Value) : List Key := table.entries.map Prod.fst

/-- The values, in ascending order of their keys. -/
def values (table : Table Key Value) : List Value := table.entries.map Prod.snd

@[ext]
theorem ext {left right : Table Key Value} (same : left.entries = right.entries) :
    left = right := by
  cases left
  cases right
  cases same
  rfl

/-- The value stored under a key. -/
def get? [DecidableEq Key] (table : Table Key Value) (key : Key) : Option Value :=
  table.entries.lookup key

/-- Whether a key is present. -/
def contains [DecidableEq Key] (table : Table Key Value) (key : Key) : Bool :=
  (table.get? key).isSome

/-- Keep the entries a test accepts. -/
def filter (test : Key → Value → Bool) (table : Table Key Value) : Table Key Value where
  entries := table.entries.filter fun entry => test entry.1 entry.2
  ascending := table.ascending.filter _

/-- Remove a key; a table without it is left as it is. -/
def erase [DecidableEq Key] (table : Table Key Value) (key : Key) : Table Key Value :=
  table.filter fun present _ => present ≠ key

/-- Put an entry at its place in an ascending list, replacing the entry of the same key. -/
def insertEntry [DecidableLT Key] [DecidableEq Key] (key : Key) (value : Value) :
    List (Key × Value) → List (Key × Value)
  | [] => [(key, value)]
  | entry :: rest =>
      if key < entry.1 then (key, value) :: entry :: rest
      else if key = entry.1 then (key, value) :: rest
      else entry :: insertEntry key value rest

/-- Every entry after an insertion is the inserted one or was there before. -/
theorem mem_insertEntry [DecidableLT Key] [DecidableEq Key] {key : Key} {value : Value}
    {entries : List (Key × Value)} {entry : Key × Value}
    (present : entry ∈ insertEntry key value entries) :
    entry = (key, value) ∨ entry ∈ entries := by
  induction entries with
  | nil => simpa [insertEntry] using present
  | cons head rest inductionHypothesis =>
      simp only [insertEntry] at present
      split at present
      · simpa using present
      · split at present
        · rcases List.mem_cons.1 present with same | later
          · exact Or.inl same
          · exact Or.inr (List.mem_cons_of_mem _ later)
        · rcases List.mem_cons.1 present with same | later
          · exact Or.inr (same ▸ List.mem_cons_self)
          · exact (inductionHypothesis later).imp id (List.mem_cons_of_mem _)

/-- Insertion keeps an ascending list ascending. -/
theorem insertEntry_ascending [DecidableLT Key] [DecidableEq Key] [AscendingKey Key]
    (key : Key) (value : Value) {entries : List (Key × Value)}
    (ascending : entries.Pairwise fun earlier later => earlier.1 < later.1) :
    (insertEntry key value entries).Pairwise fun earlier later => earlier.1 < later.1 := by
  induction entries with
  | nil => simp [insertEntry]
  | cons head rest inductionHypothesis =>
      obtain ⟨headFirst, restAscending⟩ := List.pairwise_cons.1 ascending
      simp only [insertEntry]
      split
      case isTrue before =>
        refine List.pairwise_cons.2 ⟨?_, ascending⟩
        intro entry present
        rcases List.mem_cons.1 present with same | later
        · exact same ▸ before
        · exact AscendingKey.trans before (headFirst entry later)
      case isFalse notBefore =>
        split
        case isTrue same =>
          exact List.pairwise_cons.2 ⟨fun entry present => same ▸ headFirst entry present, restAscending⟩
        case isFalse different =>
          refine List.pairwise_cons.2 ⟨?_, inductionHypothesis restAscending⟩
          intro entry present
          rcases mem_insertEntry present with same | later
          · subst same
            rcases AscendingKey.total key head.1 with less | equal | greater
            · exact absurd less notBefore
            · exact absurd equal different
            · exact greater
          · exact headFirst entry later

/-- Store a value under a key, replacing what was there. -/
def insert [DecidableLT Key] [DecidableEq Key] [AscendingKey Key]
    (table : Table Key Value) (key : Key) (value : Value) : Table Key Value where
  entries := insertEntry key value table.entries
  ascending := insertEntry_ascending key value table.ascending

/-- The table of a list of entries; of a repeated key the last entry counts. -/
def ofList [DecidableLT Key] [DecidableEq Key] [AscendingKey Key]
    (entries : List (Key × Value)) : Table Key Value :=
  entries.foldl (fun table entry => table.insert entry.1 entry.2) empty

end Table

/-- A set of texts, listed in ascending order without repeats. -/
structure TextSet where
  members : List String
  ascending : members.Pairwise (· < ·)

namespace TextSet

/-- Add a text at its place in an ascending list; a text already there is kept once. -/
def insertText (text : String) : List String → List String
  | [] => [text]
  | head :: rest =>
      if text < head then text :: head :: rest
      else if text = head then head :: rest
      else head :: insertText text rest

/-- Membership after an insertion. -/
theorem mem_insertText {text member : String} {members : List String} :
    member ∈ insertText text members ↔ member = text ∨ member ∈ members := by
  induction members with
  | nil => simp [insertText]
  | cons head rest inductionHypothesis =>
      simp only [insertText]
      split
      · simp
      · split
        case isTrue same => simp [same]
        case isFalse => simp [inductionHypothesis, or_left_comm]

/-- Insertion keeps an ascending list ascending. -/
theorem insertText_ascending (text : String) {members : List String}
    (ascending : members.Pairwise (· < ·)) : (insertText text members).Pairwise (· < ·) := by
  induction members with
  | nil => simp [insertText]
  | cons head rest inductionHypothesis =>
      obtain ⟨headFirst, restAscending⟩ := List.pairwise_cons.1 ascending
      simp only [insertText]
      split
      case isTrue before =>
        refine List.pairwise_cons.2 ⟨?_, ascending⟩
        intro member present
        rcases List.mem_cons.1 present with same | later
        · exact same ▸ before
        · exact AscendingKey.trans before (headFirst member later)
      case isFalse notBefore =>
        split
        case isTrue => exact ascending
        case isFalse different =>
          refine List.pairwise_cons.2 ⟨?_, inductionHypothesis restAscending⟩
          intro member present
          rcases mem_insertText.1 present with same | later
          · subst same
            rcases AscendingKey.total member head with less | equal | greater
            · exact absurd less notBefore
            · exact absurd equal different
            · exact greater
          · exact headFirst member later

/-- The set without members. -/
def empty : TextSet := ⟨[], .nil⟩

instance : EmptyCollection TextSet := ⟨empty⟩

/-- Add one text. -/
def insert (set : TextSet) (text : String) : TextSet :=
  ⟨insertText text set.members, insertText_ascending text set.ascending⟩

/-- The set of the texts of a list. -/
def ofList (texts : List String) : TextSet := texts.foldl insert empty

/-- Two sets with the same listing are the same set. -/
@[ext]
theorem ext {left right : TextSet} (same : left.members = right.members) : left = right := by
  cases left
  cases right
  cases same
  rfl

instance : DecidableEq TextSet := fun left right =>
  decidable_of_iff (left.members = right.members) ⟨ext, fun same => by rw [same]⟩

end TextSet

/-- Distinct texts of a list, ascending. -/
def ascendingDistinct (texts : List String) : List String := (TextSet.ofList texts).members

end HostPruning
