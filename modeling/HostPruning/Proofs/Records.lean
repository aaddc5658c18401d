import HostPruning.Host
import HostPruning.Proofs.Printing

/-!
# What records hold

Every host that is read from a line of text has facts that a record can hold
(`Host.recordable_ofText`), provided the floats among them print and read back: a reader gives
integers of 64 bits and opens no more levels than its dialect allows, and settling names keeps both
and leaves each name once. So what is shown of hosts with recordable facts is shown of all hosts
that come in as records.
-/

namespace HostPruning.Json

/-! ### Reading -/

/-- What a reader gives below so many levels of nesting; names may repeat. -/
inductive Nested : Nat → Json → Prop where
  | null {depth : Nat} : Nested depth .null
  | bool {depth : Nat} (value : Bool) : Nested depth (.bool value)
  | integer {depth : Nat} {value : Int} (low : -(Width.half 64 : Int) ≤ value)
      (high : value < Width.count 64) : Nested depth (.number (.integer value))
  | real {depth : Nat} (value : Binary64) : Nested depth (.number (.real value))
  | string {depth : Nat} (text : String) : Nested depth (.string text)
  | array {depth : Nat} {items : List Json} (each : ∀ item ∈ items, Nested depth item) :
      Nested (depth + 1) (.array items)
  | object {depth : Nat} {members : Members} (each : ∀ member ∈ members, Nested depth member.2) :
      Nested (depth + 1) (.object members)

/-- An integer that is read fits 64 bits. -/
theorem NumberParts.integer_bounds {parts : NumberParts} {value : Int}
    (made : parts.number? = some (.integer value)) :
    -(Width.half 64 : Int) ≤ value ∧ value < Width.count 64 := by
  unfold number? at made
  dsimp only at made
  split at made
  next whole =>
    have fits : _ < Width.count 64 := whole.2.2
    split at made
    · cases made
      constructor <;> omega
    · split at made
      next negative =>
        cases made
        constructor <;> omega
      next => simp at made
  next => simp at made

theorem nested_readNumber {dialect : Dialect} {depth : Nat} {input rest : List Char} {value : Number}
    (read : readNumber dialect input = some (value, rest)) : Nested depth (.number value) := by
  cases value with
  | real value => exact .real value
  | integer value =>
      unfold readNumber at read
      obtain ⟨⟨parts, after⟩, -, made⟩ := Option.bind_eq_some_iff.1 read
      dsimp only at made
      split at made
      next number taken =>
        cases made
        obtain ⟨low, high⟩ := NumberParts.integer_bounds taken
        exact .integer low high
      next =>
        split at made <;> cases made

/-- Whether a reader with some budget gives nothing but nested values. -/
structure ReadsNested (dialect : Dialect) (budget : Nat) : Prop where
  value : ∀ {depth input value rest},
    readValue dialect budget depth input = some (value, rest) → Nested depth value
  items : ∀ {depth input items rest},
    readItems dialect budget depth input = some (items, rest) → ∀ item ∈ items, Nested depth item
  members : ∀ {depth input members rest},
    readMembers dialect budget depth input = some (members, rest) →
      ∀ member ∈ members, Nested depth member.2

namespace ReadsNested

variable {dialect : Dialect} {budget depth : Nat} {input rest : List Char}

theorem value_step (below : ReadsNested dialect budget) {value : Json}
    (read : readValue dialect (budget + 1) depth input = some (value, rest)) : Nested depth value := by
  unfold readValue at read
  split at read
  next => -- a string
    obtain ⟨⟨text, after⟩, -, same⟩ := Option.map_eq_some_iff.1 read
    cases same
    exact .string text
  next => -- an array
    cases depth with
    | zero => cases read
    | succ depth =>
        dsimp only at read
        split at read
        · cases read
          exact .array (by simp)
        · obtain ⟨⟨items, after⟩, inside, same⟩ := Option.map_eq_some_iff.1 read
          cases same
          exact .array (below.items inside)
  next => -- an object
    cases depth with
    | zero => cases read
    | succ depth =>
        dsimp only at read
        split at read
        · cases read
          exact .object (by simp)
        · obtain ⟨⟨members, after⟩, inside, same⟩ := Option.map_eq_some_iff.1 read
          cases same
          exact .object (below.members inside)
  next =>
    cases read
    exact .null
  next =>
    cases read
    exact .bool true
  next =>
    cases read
    exact .bool false
  next => -- a number
    obtain ⟨⟨number, after⟩, taken, same⟩ := Option.map_eq_some_iff.1 read
    cases same
    exact nested_readNumber taken

theorem items_step (below : ReadsNested dialect budget) {items : List Json}
    (read : readItems dialect (budget + 1) depth input = some (items, rest)) :
    ∀ item ∈ items, Nested depth item := by
  unfold readItems at read
  split at read
  next => cases read
  next item after first =>
    have nested := below.value first
    split at read
    · cases read
      simpa using nested
    · obtain ⟨⟨others, last⟩, more, same⟩ := Option.map_eq_some_iff.1 read
      cases same
      exact List.forall_mem_cons.2 ⟨nested, below.items more⟩
    · cases read

theorem members_step (below : ReadsNested dialect budget) {members : Members}
    (read : readMembers dialect (budget + 1) depth input = some (members, rest)) :
    ∀ member ∈ members, Nested depth member.2 := by
  unfold readMembers at read
  split at read
  next =>
    split at read
    next => cases read
    next =>
      split at read
      next =>
        split at read
        next => cases read
        next value after first =>
          have nested := below.value first
          split at read
          · cases read
            simpa using nested
          · obtain ⟨⟨others, last⟩, more, same⟩ := Option.map_eq_some_iff.1 read
            cases same
            exact List.forall_mem_cons.2 ⟨nested, below.members more⟩
          · cases read
      next => cases read
  next => cases read

end ReadsNested

theorem readsNested (dialect : Dialect) (budget : Nat) : ReadsNested dialect budget := by
  induction budget with
  | zero =>
      constructor
      · intro depth input value rest read
        cases read
      · intro depth input items rest read
        cases read
      · intro depth input members rest read
        cases read
  | succ budget below => exact ⟨below.value_step, below.items_step, below.members_step⟩

/-- What a text is read as is nested no deeper than the dialect allows. -/
theorem nested_readAs {dialect : Dialect} {text : String} {value : Json}
    (read : readAs dialect text = some value) : Nested dialect.depth value := by
  unfold readAs at read
  dsimp only at read
  split at read
  next found rest taken =>
    split at read
    · cases read
      exact (readsNested dialect _).value taken
    · cases read
  next => cases read

/-! ### Settling names -/

namespace Members

theorem map_fst_set (name : String) (value : Json) (members : Members) :
    (Members.set name value members).map Prod.fst =
      if name ∈ members.map Prod.fst then members.map Prod.fst else members.map Prod.fst ++ [name] := by
  induction members with
  | nil => rfl
  | cons member others inductionHypothesis =>
      obtain ⟨present, old⟩ := member
      unfold Members.set
      by_cases same : present = name
      · simp [same]
      · rw [if_neg same, List.map_cons, inductionHypothesis]
        have other : name ≠ present := Ne.symm same
        by_cases known : name ∈ others.map Prod.fst
        · simp [known]
        · simp [known, other]

theorem mem_of_mem_set {name : String} {value : Json} {members : Members} {member : String × Json}
    (present : member ∈ Members.set name value members) : member = (name, value) ∨ member ∈ members := by
  induction members with
  | nil => exact Or.inl (List.mem_singleton.1 present)
  | cons head others inductionHypothesis =>
      unfold Members.set at present
      split at present
      next same =>
        rcases List.mem_cons.1 present with rfl | later
        · exact Or.inl (by rw [same])
        · exact Or.inr (List.mem_cons_of_mem _ later)
      next =>
        rcases List.mem_cons.1 present with rfl | later
        · exact Or.inr List.mem_cons_self
        · exact (inductionHypothesis later).imp id (List.mem_cons_of_mem _)

/-- Settled members name each key once and come from those that were given. -/
theorem foldl_set_settled (kept members : Members) (once : (kept.map Prod.fst).Nodup) :
    ((members.foldl (fun kept member => Members.set member.1 member.2 kept) kept).map Prod.fst).Nodup ∧
      ∀ member ∈ members.foldl (fun kept member => Members.set member.1 member.2 kept) kept,
        member ∈ kept ∨ member ∈ members := by
  induction members generalizing kept with
  | nil => exact ⟨once, fun member present => Or.inl present⟩
  | cons head others inductionHypothesis =>
      have stillOnce : ((Members.set head.1 head.2 kept).map Prod.fst).Nodup := by
        rw [map_fst_set]
        split
        next => exact once
        next fresh =>
          refine List.nodup_append.2 ⟨once, List.nodup_singleton _, ?_⟩
          rintro name known _ new rfl
          exact fresh (List.mem_singleton.1 new ▸ known)
      obtain ⟨settled, given⟩ := inductionHypothesis _ stillOnce
      refine ⟨settled, ?_⟩
      intro member present
      rcases given member present with earlier | later
      · rcases mem_of_mem_set earlier with rfl | there
        · exact Or.inr List.mem_cons_self
        · exact Or.inl there
      · exact Or.inr (List.mem_cons_of_mem _ later)

theorem nodup_dedup (members : Members) : (members.dedup.map Prod.fst).Nodup :=
  (foldl_set_settled [] members List.nodup_nil).1

theorem mem_of_mem_dedup {members : Members} {member : String × Json} (present : member ∈ members.dedup) :
    member ∈ members :=
  ((foldl_set_settled [] members List.nodup_nil).2 member present).resolve_left List.not_mem_nil

end Members

theorem dedupItems_eq_map (items : List Json) : dedupItems items = items.map dedup := by
  induction items with
  | nil => rfl
  | cons item others inductionHypothesis => rw [dedupItems, inductionHypothesis, List.map_cons]

theorem dedupMembers_eq_map (members : Members) :
    dedupMembers members = members.map fun member => (member.1, member.2.dedup) := by
  induction members with
  | nil => rfl
  | cons member others inductionHypothesis => rw [dedupMembers, inductionHypothesis, List.map_cons]

/-- Settling names nests no deeper. -/
theorem Nested.settle {depth : Nat} {value : Json} (nested : Nested depth value) : Nested depth value.dedup := by
  induction nested with
  | null => exact .null
  | bool value => exact .bool value
  | integer low high => exact .integer low high
  | real value => exact .real value
  | string text => exact .string text
  | array each inductionHypothesis =>
      rw [dedup, dedupItems_eq_map]
      refine .array fun item among => ?_
      obtain ⟨original, given, rfl⟩ := List.mem_map.1 among
      exact inductionHypothesis original given
  | object each inductionHypothesis =>
      rw [dedup]
      refine .object fun member among => ?_
      have given := Members.mem_of_mem_dedup among
      rw [dedupMembers_eq_map] at given
      obtain ⟨original, there, rfl⟩ := List.mem_map.1 given
      exact inductionHypothesis original there

/-- A float that stands somewhere inside a value. -/
inductive Inside (float : Binary64) : Json → Prop where
  | here : Inside float (.number (.real float))
  | item {items : List Json} {item : Json} (among : item ∈ items) (inside : Inside float item) :
      Inside float (.array items)
  | member {members : Members} {member : String × Json} (among : member ∈ members)
      (inside : Inside float member.2) : Inside float (.object members)

/-- Once its names are settled, a value that was read can be held by a record, if its floats
are read back. -/
theorem Nested.recordable_dedup {depth : Nat} {value : Json} (nested : Nested depth value)
    (floats : ∀ float, Inside float value.dedup → (Number.real float).ReadsBack) :
    Recordable depth value.dedup := by
  induction nested with
  | null => exact .null
  | bool value => exact .bool value
  | integer low high => exact .integer low high
  | real value => exact .real (floats value .here)
  | string text => exact .string text
  | array each inductionHypothesis =>
      rw [dedup, dedupItems_eq_map] at floats ⊢
      refine .array fun item among => ?_
      obtain ⟨original, given, rfl⟩ := List.mem_map.1 among
      exact inductionHypothesis original given fun float inside => floats float (.item among inside)
  | object each inductionHypothesis =>
      rw [dedup] at floats ⊢
      refine .object (Members.nodup_dedup _) fun member among => ?_
      have given := Members.mem_of_mem_dedup among
      rw [dedupMembers_eq_map] at given
      obtain ⟨original, there, rfl⟩ := List.mem_map.1 given
      exact inductionHypothesis original there fun float inside => floats float (.member among inside)

/-! ### Texts -/

theorem exists_forall₂ {Left Right : Type} {relation : Left → Right → Prop} {lefts : List Left}
    (each : ∀ left ∈ lefts, ∃ right, relation left right) : ∃ rights, List.Forall₂ relation lefts rights := by
  induction lefts with
  | nil => exact ⟨[], .nil⟩
  | cons left lefts inductionHypothesis =>
      rw [List.forall_mem_cons] at each
      obtain ⟨⟨right, first⟩, later⟩ := each
      obtain ⟨rights, related⟩ := inductionHypothesis later
      exact ⟨right :: rights, .cons first related⟩

/-- The text of a nested value is read as a value of its kind by any reader that refuses neither its levels
nor large numbers, whether its floats are read back or not. -/
theorem Nested.exists_readsAs {dialect : Dialect} (lenient : dialect.strict = false) {depth : Nat} {value : Json}
    (nested : Nested depth value) : ∃ other, ReadsAs dialect depth value other ∧ other.kind = value.kind := by
  induction nested with
  | null => exact ⟨_, .null, rfl⟩
  | bool value => exact ⟨_, .bool value, rfl⟩
  | @integer _ value _ _ =>
      obtain ⟨read, taken⟩ := Number.exists_read lenient (.integer value)
      exact ⟨_, .number taken, rfl⟩
  | real value =>
      obtain ⟨read, taken⟩ := Number.exists_read lenient (.real value)
      exact ⟨_, .number taken, rfl⟩
  | string text => exact ⟨_, .string text, rfl⟩
  | array each inductionHypothesis =>
      obtain ⟨others, read⟩ := @exists_forall₂ _ _ (ReadsAs dialect _) _ fun item among => by
        obtain ⟨other, reads, -⟩ := inductionHypothesis item among
        exact ⟨other, reads⟩
      exact ⟨_, .array read, rfl⟩
  | object each inductionHypothesis =>
      obtain ⟨others, read⟩ := @exists_forall₂ _ _ (MemberReadsAs dialect _) _ fun member among => by
        obtain ⟨other, reads, -⟩ := inductionHypothesis member among
        exact ⟨(member.1, other), rfl, reads⟩
      exact ⟨_, .object read, rfl⟩

/-! ### Hosts -/

theorem Nested.mono {depth more : Nat} {value : Json} (nested : Nested depth value) (less : depth ≤ more) :
    Nested more value := by
  induction nested generalizing more with
  | null => exact .null
  | bool value => exact .bool value
  | integer low high => exact .integer low high
  | real value => exact .real value
  | string text => exact .string text
  | array each inductionHypothesis =>
      obtain ⟨more, rfl⟩ : ∃ fewer, more = fewer + 1 := ⟨more - 1, by omega⟩
      exact .array fun item among => inductionHypothesis item among (by omega)
  | object each inductionHypothesis =>
      obtain ⟨more, rfl⟩ : ∃ fewer, more = fewer + 1 := ⟨more - 1, by omega⟩
      exact .object fun member among => inductionHypothesis member among (by omega)

/-- A field of a nested record is nested. -/
theorem Nested.field {depth place : Nat} {names : List String} {record value : Json}
    {fields : List (Option Json)} (nested : Nested depth record) (found : fields? names record = some fields)
    (given : Json.field fields place = some value) : Nested depth value := by
  have among : some value ∈ fields := List.mem_of_getElem? (Option.join_eq_some_iff.1 given)
  unfold fields? at found
  cases nested with
  | array each =>
      dsimp only at found
      split at found
      next =>
        cases found
        rcases List.mem_append.1 among with item | missing
        · obtain ⟨item, present, same⟩ := List.mem_map.1 item
          cases same
          exact (each value present).mono (Nat.le_succ _)
        · cases (List.mem_replicate.1 missing).2
      next => cases found
  | object each =>
      dsimp only at found
      split at found
      next =>
        cases found
        obtain ⟨name, -, stored⟩ := List.mem_map.1 among
        obtain ⟨before, after, rfl, -⟩ := List.lookup_eq_some_iff.1 stored
        have present : (name, value) ∈ before ++ (name, value) :: after := by simp
        exact (each (name, value) present).mono (Nat.le_succ _)
      next => cases found
  | _ => cases found

theorem Nested.required {α : Type} {depth place : Nat} {names : List String} {record : Json}
    {fields : List (Option Json)} {decode : Json → Option α} {decoded : α} (nested : Nested depth record)
    (found : fields? names record = some fields)
    (made : Json.required decode fields place = some decoded) :
    ∃ value, Nested depth value ∧ decode value = some decoded := by
  obtain ⟨value, given, decodes⟩ := Option.bind_eq_some_iff.1 made
  exact ⟨value, nested.field found given, decodes⟩

end HostPruning.Json

namespace HostPruning

/-- A host's facts come from a field of its record. -/
theorem Host.facts_of_ofJson {record : Json} {host : Host} (decoded : Host.ofJson record = some host) :
    ∃ fields, Json.fields? Host.fieldNames record = some fields ∧
      Json.required Json.facts? fields 5 = some host.facts := by
  unfold Host.ofJson at decoded
  simp only [Option.bind_eq_bind, Option.bind_eq_some_iff] at decoded
  obtain ⟨fields, found, id, -, account, -, displayName, -, reporter, -, kind, -, facts, taken, modifiedOn,
    -, staleTimestamp, -, made⟩ := decoded
  cases made
  exact ⟨fields, found, taken⟩

/-- The facts of a host that comes in as a line of text can be held by a record. -/
theorem Host.recordable_ofText {text : String} {host : Host} (read : Host.ofText text = some host)
    (floats : ∀ float, Json.Inside float (.object host.facts) → (Json.Number.real float).ReadsBack) :
    Json.Recordable Json.Dialect.records.depth (.object host.facts) := by
  obtain ⟨record, taken, decoded⟩ := Option.bind_eq_some_iff.1 read
  obtain ⟨fields, found, stored⟩ := Host.facts_of_ofJson decoded
  have nested : Json.Nested Json.Dialect.records.depth record := Json.nested_readAs taken
  obtain ⟨value, inRecord, settled⟩ := nested.required found stored
  have facts : value.dedup = .object host.facts := by
    unfold Json.facts? at settled
    generalize value.dedup = kept at settled ⊢
    cases kept with
    | object members => exact congrArg Json.object (Option.some.inj settled)
    | _ => cases settled
  rw [← facts] at floats ⊢
  exact inRecord.recordable_dedup floats

end HostPruning
