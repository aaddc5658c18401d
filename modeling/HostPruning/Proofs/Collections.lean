import Mathlib.Data.List.Nodup
import HostPruning.Ordered

/-!
# What ascending collections hold

A set of texts holds exactly the texts it was made from, and it is determined by them:
`ascendingDistinct_congr` lets a listing be compared by membership alone, whatever order
and repeats it arrived with. `split_append` locates an element of two lists in a row, and
`Table.get?_insert` says what a table holds.
-/

namespace HostPruning

/-- Two ascending lists with the same members are the same list. -/
theorem eq_of_ascending_of_mem_iff {Key : Type} [LT Key] [AscendingKey Key] {left right : List Key}
    (leftAscending : left.Pairwise (· < ·)) (rightAscending : right.Pairwise (· < ·))
    (same : ∀ key, key ∈ left ↔ key ∈ right) : left = right := by
  induction left generalizing right with
  | nil =>
      cases right with
      | nil => rfl
      | cons head rest => exact absurd ((same head).2 List.mem_cons_self) List.not_mem_nil
  | cons leftHead leftRest inductionHypothesis =>
      cases right with
      | nil => exact absurd ((same leftHead).1 List.mem_cons_self) List.not_mem_nil
      | cons rightHead rightRest =>
          obtain ⟨leftFirst, leftRestAscending⟩ := List.pairwise_cons.1 leftAscending
          obtain ⟨rightFirst, rightRestAscending⟩ := List.pairwise_cons.1 rightAscending
          have heads : leftHead = rightHead := by
            rcases List.mem_cons.1 ((same leftHead).1 List.mem_cons_self) with equal | later
            · exact equal
            · rcases List.mem_cons.1 ((same rightHead).2 List.mem_cons_self) with equal | earlier
              · exact equal.symm
              · exact absurd (AscendingKey.trans (leftFirst _ earlier) (rightFirst _ later))
                  (AscendingKey.irrefl leftHead)
          subst heads
          refine congrArg (leftHead :: ·)
            (inductionHypothesis leftRestAscending rightRestAscending fun key => ?_)
          constructor
          · intro inLeft
            rcases List.mem_cons.1 ((same key).1 (List.mem_cons_of_mem _ inLeft)) with rfl | inRight
            · exact absurd (leftFirst _ inLeft) (AscendingKey.irrefl _)
            · exact inRight
          · intro inRight
            rcases List.mem_cons.1 ((same key).2 (List.mem_cons_of_mem _ inRight)) with rfl | inLeft
            · exact absurd (rightFirst _ inRight) (AscendingKey.irrefl _)
            · exact inLeft

/-- An element of two lists in a row stands in the first or in the second. -/
theorem split_append {Element : Type} {first second before rest : List Element} {element : Element}
    (split : first ++ second = before ++ element :: rest) :
    (∃ between, first = before ++ element :: between) ∨
      ∃ between, before = first ++ between ∧ second = between ++ element :: rest := by
  rcases List.append_eq_append_iff.1 split with
    ⟨between, beforeEq, secondEq⟩ | ⟨between, firstEq, restEq⟩
  · exact Or.inr ⟨between, beforeEq, secondEq⟩
  · cases between with
    | nil => exact Or.inr ⟨[], by simpa using firstEq.symm, by simpa using restEq.symm⟩
    | cons head following =>
        obtain ⟨rfl, -⟩ := List.cons.inj restEq
        exact Or.inl ⟨following, firstEq⟩

/-- What holds of an element and those before it holds somewhere in a list with one more element if it
did before or holds of the last. -/
theorem exists_place_append {Element : Type} (holds : List Element → Element → Prop)
    (elements : List Element) (last : Element) :
    (∃ index, ∃ inside : index < (elements ++ [last]).length,
        holds ((elements ++ [last]).take index) (elements ++ [last])[index]) ↔
      (∃ index, ∃ inside : index < elements.length, holds (elements.take index) elements[index]) ∨
        holds elements last := by
  constructor
  · rintro ⟨index, inside, here⟩
    rcases Nat.lt_or_ge index elements.length with before | behind
    · rw [List.take_append_of_le_length (Nat.le_of_lt before), List.getElem_append_left before] at here
      exact Or.inl ⟨index, before, here⟩
    · obtain rfl : index = elements.length := by
        rw [List.length_append, List.length_singleton] at inside
        omega
      rw [List.take_left, List.getElem_concat_length rfl] at here
      exact Or.inr here
  · rintro (⟨index, before, here⟩ | here)
    · refine ⟨index, by rw [List.length_append]; omega, ?_⟩
      rwa [List.take_append_of_le_length (Nat.le_of_lt before), List.getElem_append_left before]
    · refine ⟨elements.length, by simp, ?_⟩
      rwa [List.take_left, List.getElem_concat_length rfl]

/-- An element of lists in a row stands in one of them, behind all lists before that one. -/
theorem split_flatMap {Index Element : Type} {lists : Index → List Element} {indices : List Index}
    {before rest : List Element} {element : Element}
    (split : indices.flatMap lists = before ++ element :: rest) :
    ∃ earlier index later inFront behind, indices = earlier ++ index :: later ∧
      lists index = inFront ++ element :: behind ∧ before = earlier.flatMap lists ++ inFront := by
  induction indices generalizing before with
  | nil => cases before <;> cases split
  | cons first others inductionHypothesis =>
      rw [List.flatMap_cons] at split
      rcases split_append split with ⟨behind, here⟩ | ⟨between, beforeEq, further⟩
      · exact ⟨[], first, others, before, behind, rfl, here, rfl⟩
      · obtain ⟨earlier, index, later, inFront, behind, indicesEq, found, betweenEq⟩ :=
          inductionHypothesis further
        refine ⟨first :: earlier, index, later, inFront, behind, ?_, found, ?_⟩
        · rw [indicesEq, List.cons_append]
        · rw [beforeEq, betweenEq, List.flatMap_cons, List.append_assoc]

/-- A list in which no element stands behind itself has no repeats. -/
theorem nodup_of_fresh {Element : Type} {elements : List Element}
    (fresh : ∀ before element rest, elements = before ++ element :: rest → element ∉ before) :
    elements.Nodup := by
  induction elements with
  | nil => exact List.nodup_nil
  | cons head rest inductionHypothesis =>
      refine List.nodup_cons.2 ⟨?_, inductionHypothesis ?_⟩
      · intro again
        obtain ⟨before, after, split⟩ := List.append_of_mem again
        exact fresh (head :: before) head after (by rw [split, List.cons_append]) List.mem_cons_self
      · intro before element after split earlier
        exact fresh (head :: before) element after (by rw [split, List.cons_append])
          (List.mem_cons_of_mem _ earlier)

/-- Tests that agree on every element agree on some element passing. -/
theorem any_eq_any {Element : Type} {elements : List Element} {first second : Element → Bool}
    (same : ∀ element ∈ elements, first element = second element) :
    elements.any first = elements.any second := by
  rw [Bool.eq_iff_iff, List.any_eq_true, List.any_eq_true]
  exact exists_congr fun element => and_congr_right fun among => by rw [same element among]

/-- Tests that agree on every element agree on all elements passing. -/
theorem all_eq_all {Element : Type} {elements : List Element} {first second : Element → Bool}
    (same : ∀ element ∈ elements, first element = second element) :
    elements.all first = elements.all second := by
  rw [Bool.eq_iff_iff, List.all_eq_true, List.all_eq_true]
  exact forall_congr' fun element => forall_congr' fun among => by rw [same element among]

/-- Erasing repeats leaves none. -/
theorem nodup_eraseDups {Element : Type} [BEq Element] [LawfulBEq Element] :
    ∀ elements : List Element, elements.eraseDups.Nodup
  | [] => List.nodup_nil
  | head :: rest => by
      have shorter : (rest.filter fun element => ! element == head).length < rest.length + 1 :=
        Nat.lt_succ_of_le (List.length_filter_le _ _)
      rw [List.eraseDups_cons]
      refine List.nodup_cons.2 ⟨?_, nodup_eraseDups _⟩
      simp [List.mem_eraseDups]
termination_by elements => elements.length

/-- Entries under other keys may be left out of a lookup. -/
theorem lookup_filter {Key Value : Type} [DecidableEq Key] {key : Key} (keep : Key → Bool)
    (kept : keep key = true) (entries : List (Key × Value)) :
    (entries.filter fun entry => keep entry.1).lookup key = entries.lookup key := by
  induction entries with
  | nil => rfl
  | cons entry rest inductionHypothesis =>
      obtain ⟨present, value⟩ := entry
      by_cases here : key = present
      · subst here
        rw [List.filter_cons, if_pos kept, List.lookup_cons_self, List.lookup_cons_self]
      · have elsewhere : (key == present) = false := beq_false_of_ne here
        rw [List.lookup_cons, elsewhere, ← inductionHypothesis, List.filter_cons]
        split
        · rw [List.lookup_cons, elsewhere]
        · rfl

/-- Of lists that go by keys one after the other, the elements with one key are that key's list. -/
theorem filter_flatMap_of_key {Key Element : Type} [DecidableEq Key] {lists : Key → List Element}
    {keyOf : Element → Key} (keyed : ∀ key, ∀ element ∈ lists key, keyOf element = key)
    {keys : List Key} (distinct : keys.Nodup) {key : Key} (among : key ∈ keys) :
    ((keys.flatMap lists).filter fun element => keyOf element = key) = lists key := by
  have own : ((lists key).filter fun element => keyOf element = key) = lists key :=
    List.filter_eq_self.2 fun element present => decide_eq_true (keyed key element present)
  have others : ∀ {rest : List Key}, key ∉ rest →
      ((rest.flatMap lists).filter fun element => keyOf element = key) = [] := by
    intro rest absent
    refine List.filter_eq_nil_iff.2 fun element present => ?_
    obtain ⟨other, otherIn, here⟩ := List.mem_flatMap.1 present
    have apart : keyOf element ≠ key := fun same => absent (same ▸ keyed other element here ▸ otherIn)
    simpa using apart
  obtain ⟨before, rest, rfl⟩ := List.append_of_mem among
  have elsewhere := (List.nodup_cons.1 (List.nodup_middle.1 distinct)).1
  rw [List.mem_append, not_or] at elsewhere
  rw [List.flatMap_append, List.flatMap_cons, List.filter_append, List.filter_append, own,
    others elsewhere.1, others elsewhere.2, List.nil_append, List.append_nil]

theorem lookup_cons_eq {Key Value : Type} [DecidableEq Key] (present other : Key) (stored : Value)
    (rest : List (Key × Value)) :
    ((present, stored) :: rest).lookup other =
      if other = present then some stored else rest.lookup other := by
  by_cases same : other = present
  · rw [if_pos same, same, List.lookup_cons_self]
  · rw [if_neg same, List.lookup_cons, beq_false_of_ne same]

namespace Table

variable {Key Value : Type} [LT Key] [DecidableEq Key]

theorem lookup_insertEntry [DecidableLT Key] (key other : Key) (value : Value)
    (entries : List (Key × Value)) :
    (insertEntry key value entries).lookup other =
      if other = key then some value else entries.lookup other := by
  induction entries with
  | nil => rw [insertEntry, lookup_cons_eq]
  | cons entry rest inductionHypothesis =>
      obtain ⟨present, stored⟩ := entry
      unfold insertEntry
      split
      · rw [lookup_cons_eq]
      · split
        next same =>
          obtain rfl : key = present := same
          rw [lookup_cons_eq, lookup_cons_eq]
          by_cases found : other = key
          · rw [if_pos found, if_pos found]
          · rw [if_neg found, if_neg found, if_neg found]
        next different =>
          rw [lookup_cons_eq, lookup_cons_eq, inductionHypothesis]
          by_cases found : other = present
          · rw [if_pos found, if_pos found, if_neg (fun same => different (same.symm.trans found))]
          · rw [if_neg found, if_neg found]

/-- Storing a value changes what is stored under its key. -/
theorem get?_insert [DecidableLT Key] [AscendingKey Key] (table : Table Key Value) (key other : Key) (value : Value) :
    (table.insert key value).get? other = if other = key then some value else table.get? other :=
  lookup_insertEntry key other value table.entries

/-- A key is listed with the value stored under it, and with no other. -/
theorem mem_entries_iff [AscendingKey Key] {table : Table Key Value} {key : Key} {value : Value} :
    (key, value) ∈ table.entries ↔ table.get? key = some value := by
  obtain ⟨entries, ascending⟩ := table
  show (key, value) ∈ entries ↔ entries.lookup key = some value
  induction entries with
  | nil => simp
  | cons entry rest inductionHypothesis =>
      obtain ⟨present, stored⟩ := entry
      obtain ⟨first, restAscending⟩ := List.pairwise_cons.1 ascending
      rw [lookup_cons_eq, List.mem_cons]
      by_cases same : key = present
      · subst same
        have notLater : (key, value) ∉ rest := fun later =>
          AscendingKey.irrefl key (first _ later)
        simp [notLater, eq_comm]
      · simpa [same] using inductionHypothesis restAscending

end Table

namespace TextSet

/-- No text is listed twice. -/
theorem nodup (set : TextSet) : set.members.Nodup := by
  refine set.ascending.imp ?_
  rintro earlier later before rfl
  exact AscendingKey.irrefl earlier before

theorem mem_foldl_insert {text : String} {texts : List String} {set : TextSet} :
    text ∈ (texts.foldl insert set).members ↔ text ∈ set.members ∨ text ∈ texts := by
  induction texts generalizing set with
  | nil => simp
  | cons head rest inductionHypothesis =>
      rw [List.foldl_cons, inductionHypothesis, insert, mem_insertText, List.mem_cons]
      exact ⟨fun member => by rcases member with (rfl | old) | later <;> simp [*],
        fun member => by rcases member with old | rfl | later <;> simp [*]⟩

/-- A set holds the texts it was made from. -/
@[simp]
theorem mem_ofList {text : String} {texts : List String} :
    text ∈ (ofList texts).members ↔ text ∈ texts := by
  rw [ofList, mem_foldl_insert]
  simp [empty]

end TextSet

@[simp]
theorem mem_ascendingDistinct {text : String} {texts : List String} :
    text ∈ ascendingDistinct texts ↔ text ∈ texts :=
  TextSet.mem_ofList

theorem ascendingDistinct_pairwise (texts : List String) :
    (ascendingDistinct texts).Pairwise (· < ·) :=
  (TextSet.ofList texts).ascending

/-- No text is listed twice. -/
theorem ascendingDistinct_nodup (texts : List String) : (ascendingDistinct texts).Nodup :=
  (TextSet.ofList texts).nodup

/-- The listing depends on the texts alone, not on their order or repeats. -/
theorem ascendingDistinct_congr {left right : List String}
    (same : ∀ text, text ∈ left ↔ text ∈ right) :
    ascendingDistinct left = ascendingDistinct right :=
  eq_of_ascending_of_mem_iff (ascendingDistinct_pairwise left) (ascendingDistinct_pairwise right)
    fun text => by rw [mem_ascendingDistinct, mem_ascendingDistinct, same]

end HostPruning
