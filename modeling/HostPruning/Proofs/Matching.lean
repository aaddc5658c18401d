import HostPruning.Facts.Filter
import HostPruning.Proofs.Collections

/-!
# What a host's filter accepts

The facts a host is matched on are read from the known keys of its stored facts, and each
is contained in the stored value it was read from. `ofFacts_accepts` says what the filter
of such facts accepts: some of them are contained in the candidate's values, and none of
those present is contradicted. Two consequences carry the pruning results. A host's own
facts satisfy its filter (`accepts_self`), and whatever satisfies it carries a known key
(`exists_known_of_accepts`).
-/

namespace HostPruning

namespace Facts

/-- An entry read from a known key of stored facts. -/
structure ReadFrom (raw : Json.Members) (entry : String × FactValue) : Prop where
  known : entry.1 ∈ knownKeys
  stored : ∃ value, raw.get? entry.1 = some value ∧ parseKnown entry.1 value = .ok entry.2

/-- Every entry of the texts read stands in the list they were read from. -/
theorem parseEntries_listed {key : String} {items : List Json} {texts : List String}
    (parsed : items.mapM (parseEntry key) = .ok texts) :
    ∀ text ∈ texts, FactValue.listed items text = true := by
  induction items generalizing texts with
  | nil =>
      rw [List.mapM_nil] at parsed
      cases parsed
      intro text present
      cases present
  | cons item rest inductionHypothesis =>
      rw [List.mapM_cons] at parsed
      cases item with
      | string value =>
          cases others : rest.mapM (parseEntry key) with
          | error defect =>
              rw [others] at parsed
              cases parsed
          | ok later =>
              rw [others] at parsed
              cases parsed
              intro text present
              rcases List.mem_cons.1 present with rfl | inLater
              · simp [FactValue.listed, Json.text?]
              · have listed := inductionHypothesis others text inLater
                simp only [FactValue.listed, List.any_cons, Bool.or_eq_true] at listed ⊢
                exact Or.inr listed
      | null => cases parsed
      | bool value => cases parsed
      | number value => cases parsed
      | array items => cases parsed
      | object members => cases parsed

/-- A fact is contained in the stored value it was read from. -/
theorem parseKnown_containedIn {key : String} {stored : Json} {value : FactValue}
    (parsed : parseKnown key stored = .ok value) : value.containedIn stored = true := by
  unfold parseKnown at parsed
  split at parsed
  · cases stored with
    | array items =>
        cases entries : items.mapM (parseEntry key) with
        | error defect => simp [parseMany, entries, Except.map] at parsed
        | ok texts =>
            simp only [parseMany, entries, Except.map, Except.ok.injEq] at parsed
            subst parsed
            simp only [FactValue.containedIn, List.all_eq_true]
            intro text present
            exact parseEntries_listed entries text (TextSet.mem_ofList.1 present)
    | null => cases parsed
    | bool flag => cases parsed
    | number number => cases parsed
    | string text => cases parsed
    | object members => cases parsed
  · cases stored with
    | string text =>
        cases parsed
        simp [FactValue.containedIn]
    | null => cases parsed
    | bool flag => cases parsed
    | number number => cases parsed
    | array items => cases parsed
    | object members => cases parsed

/-- Reading keys adds only entries read from them. -/
theorem parseKeys_readFrom {raw : Json.Members} {keys : List String} {table facts : FactTable}
    (known : ∀ key ∈ keys, key ∈ knownKeys)
    (before : ∀ entry ∈ table.entries, ReadFrom raw entry)
    (parsed : parseKeys raw keys table = .ok facts) : ∀ entry ∈ facts.entries, ReadFrom raw entry := by
  induction keys generalizing table with
  | nil =>
      cases parsed
      exact before
  | cons key rest inductionHypothesis =>
      have restKnown : ∀ key ∈ rest, key ∈ knownKeys :=
        fun key present => known key (List.mem_cons_of_mem _ present)
      cases stored : raw.get? key with
      | none =>
          simp only [parseKeys, stored] at parsed
          exact inductionHypothesis restKnown before parsed
      | some value =>
          cases read : parseKnown key value with
          | error defect => simp [parseKeys, stored, read] at parsed
          | ok fact =>
              simp only [parseKeys, stored, read] at parsed
              refine inductionHypothesis restKnown ?_ parsed
              intro entry present
              rcases Table.mem_insertEntry present with rfl | old
              · exact ⟨known key List.mem_cons_self, value, stored, read⟩
              · exact before entry old

/-- Every fact of a host was read from a known key. -/
theorem parse_readFrom {raw : Json.Members} {facts : FactTable} (parsed : parse raw = .ok facts) :
    ∀ entry ∈ facts.entries, ReadFrom raw entry :=
  parseKeys_readFrom (fun _ known => known) (fun _ present => absurd present List.not_mem_nil) parsed

/-- Reading keys stores under each of them what was read from it. -/
theorem get?_parseKeys {raw : Json.Members} {keys : List String} {table facts : FactTable}
    (parsed : parseKeys raw keys table = .ok facts) (key : String) :
    facts.get? key =
      if key ∈ keys then
        ((raw.get? key).bind fun stored => (parseKnown key stored).toOption).or (table.get? key)
      else table.get? key := by
  induction keys generalizing table with
  | nil =>
      cases parsed
      rw [if_neg List.not_mem_nil]
  | cons head rest inductionHypothesis =>
      cases stored : raw.get? head with
      | none =>
          simp only [parseKeys, stored] at parsed
          rw [inductionHypothesis parsed]
          by_cases here : key = head
          · subst here
            simp [stored]
          · simp [here]
      | some value =>
          cases read : parseKnown head value with
          | error defect => simp [parseKeys, stored, read] at parsed
          | ok fact =>
              simp only [parseKeys, stored, read] at parsed
              rw [inductionHypothesis parsed, Table.get?_insert]
              by_cases here : key = head
              · subst here
                simp [stored, read, Except.toOption]
              · simp [here]

/-- The facts of a host are what is read from the known keys it has. -/
theorem get?_parse {raw : Json.Members} {facts : FactTable} (parsed : parse raw = .ok facts)
    {key : String} (known : key ∈ knownKeys) :
    facts.get? key = (raw.get? key).bind fun stored => (parseKnown key stored).toOption := by
  have nothing : (∅ : FactTable).get? key = none := rfl
  rw [get?_parseKeys parsed, if_pos known, nothing, Option.or_none]

theorem mem_project {keys : List String} {facts : FactTable} {entry : String × FactValue}
    (present : entry ∈ (project keys facts).entries) : entry ∈ facts.entries :=
  (List.mem_filter.1 present).1

theorem mem_without {keys : List String} {facts : FactTable} {entry : String × FactValue}
    (present : entry ∈ (without keys facts).entries) : entry ∈ facts.entries :=
  (List.mem_filter.1 present).1

theorem mem_narrow {facts : FactTable} {entry : String × FactValue}
    (present : entry ∈ (narrow facts).entries) : entry ∈ facts.entries := by
  unfold narrow at present
  split at present
  · exact mem_without present
  · split at present
    · exact mem_without present
    · exact present

/-- The facts a host is matched on are among its facts. -/
theorem mem_of_identity {facts selected : FactTable} {basis : Basis}
    (identified : identity facts = some (basis, selected)) {entry : String × FactValue}
    (present : entry ∈ selected.entries) : entry ∈ facts.entries := by
  unfold identity at identified
  split at identified
  · cases identified
    exact mem_project (mem_narrow present)
  · split at identified
    · cases identified
      exact mem_project present
    · cases identified

end Facts

/-- The facts that the filter of a host's stored facts rests on. -/
structure Identified (raw : Json.Members) (selected : FactTable) : Prop where
  exists_facts : ∃ facts basis, Facts.parse raw = .ok facts ∧
    Facts.identity facts = some (basis, selected)

namespace Identified

/-- Each of these facts was read from a known key. -/
theorem readFrom {raw : Json.Members} {selected : FactTable} (identified : Identified raw selected)
    {entry : String × FactValue} (present : entry ∈ selected.entries) : Facts.ReadFrom raw entry := by
  obtain ⟨facts, basis, parsed, chosen⟩ := identified.exists_facts
  exact Facts.parse_readFrom parsed entry (Facts.mem_of_identity chosen present)

end Identified

namespace FactFilter

/-- Whether some of the facts is contained in the candidate's value for its key. -/
def Shares (selected : FactTable) (candidate : Json.Members) : Prop :=
  ∃ entry ∈ selected.entries, ∃ stored,
    candidate.get? entry.1 = some stored ∧ entry.2.containedIn stored = true

/-- Whether each of the facts is contained in what the candidate has under its key, if anything. -/
def Agrees (selected : FactTable) (candidate : Json.Members) : Prop :=
  ∀ entry ∈ selected.entries, ∀ stored,
    candidate.get? entry.1 = some stored → entry.2.containedIn stored = true

theorem accepts_contains {key : String} {value : FactValue} {candidate : Json.Members} :
    accepts candidate (contains key value) = true ↔
      ∃ stored, candidate.get? key = some stored ∧ value.containedIn stored = true := by
  unfold accepts
  cases candidate.get? key <;> simp

theorem accepts_conflicts {key : String} {value : FactValue} {candidate : Json.Members} :
    accepts candidate (conflicts key value) = true ↔
      ∃ stored, candidate.get? key = some stored ∧ value.containedIn stored = false := by
  unfold accepts
  cases candidate.get? key <;> simp

theorem accepts_anyOf (candidate : Json.Members) (parts : List FactFilter) :
    accepts candidate (anyOf parts) = parts.any (accepts candidate) := by
  rw [accepts, acceptsAny_eq]

theorem accepts_noneOf (candidate : Json.Members) (parts : List FactFilter) :
    accepts candidate (noneOf parts) = ! parts.any (accepts candidate) := by
  rw [accepts, acceptsAny_eq]

theorem accepts_allOf (candidate : Json.Members) (parts : List FactFilter) :
    accepts candidate (allOf parts) = parts.all (accepts candidate) := by
  rw [accepts, acceptsAll_eq]

/-- The filter of some facts accepts what shares one of them and agrees with all. -/
theorem ofFacts_accepts {selected : FactTable} {filter : FactFilter}
    (made : ofFacts selected = some filter) (candidate : Json.Members) :
    filter.accepts candidate = true ↔ Shares selected candidate ∧ Agrees selected candidate := by
  unfold ofFacts at made
  split at made
  · cases made
  · cases made
    simp only [accepts_allOf, accepts_anyOf, accepts_noneOf, List.all_cons, List.all_nil,
      List.any_map, Bool.and_true, Bool.and_eq_true, Bool.not_eq_true', List.any_eq_true,
      List.any_eq_false, Function.comp_apply, accepts_contains, accepts_conflicts, Shares, Agrees]
    refine and_congr Iff.rfl (forall_congr' fun entry => forall_congr' fun _ => ?_)
    constructor
    · intro noConflict stored present
      cases contained : entry.2.containedIn stored with
      | true => rfl
      | false => exact absurd ⟨stored, present, contained⟩ noConflict
    · rintro agrees ⟨stored, present, contradicted⟩
      rw [agrees stored present] at contradicted
      cases contradicted

/-- A host's filter is the filter of the facts it is matched on. -/
theorem exists_identified {raw : Json.Members} {basis : Facts.Basis} {filter : FactFilter}
    (made : ofHostFacts raw = .ok (some (basis, filter))) :
    ∃ selected, Identified raw selected ∧ ofFacts selected = some filter := by
  unfold ofHostFacts at made
  cases parsed : Facts.parse raw with
  | error defect => simp [parsed, Except.map] at made
  | ok facts =>
      simp only [parsed, Except.map, Except.ok.injEq, Option.bind_eq_some_iff,
        Option.map_eq_some_iff] at made
      obtain ⟨⟨chosenBasis, selected⟩, chosen, final, ofSelected, pair⟩ := made
      cases pair
      exact ⟨selected, ⟨facts, chosenBasis, parsed, chosen⟩, ofSelected⟩

/-- A filter rests on at least one fact. -/
theorem ofFacts_nonempty {selected : FactTable} {filter : FactFilter}
    (made : ofFacts selected = some filter) : ∃ entry, entry ∈ selected.entries := by
  unfold ofFacts at made
  split at made
  · cases made
  · next nonempty =>
      cases entries : selected.entries with
      | nil => exact absurd (by simp [Table.isEmpty, entries]) nonempty
      | cons entry rest => exact ⟨entry, List.mem_cons_self⟩

/-- A host's facts satisfy its own filter. -/
theorem accepts_self {raw : Json.Members} {basis : Facts.Basis} {filter : FactFilter}
    (made : ofHostFacts raw = .ok (some (basis, filter))) : filter.accepts raw = true := by
  obtain ⟨selected, identified, ofSelected⟩ := exists_identified made
  refine (ofFacts_accepts ofSelected raw).2 ⟨?_, ?_⟩
  · obtain ⟨entry, present⟩ := ofFacts_nonempty ofSelected
    obtain ⟨stored, found, parsed⟩ := (identified.readFrom present).stored
    exact ⟨entry, present, stored, found, Facts.parseKnown_containedIn parsed⟩
  · intro entry present stored found
    obtain ⟨original, originalFound, parsed⟩ := (identified.readFrom present).stored
    obtain rfl : original = stored := Option.some.inj (originalFound.symm.trans found)
    exact Facts.parseKnown_containedIn parsed

end FactFilter

/-- What satisfies a host's filter carries a known key. -/
theorem Identified.exists_known_of_accepts {raw candidate : Json.Members} {selected : FactTable}
    {filter : FactFilter} (identified : Identified raw selected)
    (made : FactFilter.ofFacts selected = some filter) (accepted : filter.accepts candidate = true) :
    ∃ key ∈ Facts.knownKeys, candidate.get? key ≠ none := by
  obtain ⟨⟨entry, present, stored, found, -⟩, -⟩ :=
    (FactFilter.ofFacts_accepts made candidate).1 accepted
  exact ⟨entry.1, (identified.readFrom present).known, by
    rw [found]
    exact Option.some_ne_none stored⟩

end HostPruning
