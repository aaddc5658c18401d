import HostPruning.Proofs.Matching

/-!
# What a host is matched on

Whether a host's filter accepts a candidate is decided by the facts of the two as they are stored.
`Selected` says which keys of a host count: the elevated ones it has, less those that one of higher
priority suppresses, and the regular ones when it has no elevated one. `Fits` says what is asked of a
candidate: some selected key is there with a value that contains the host's, and none is there with a
value that does not.

Parsing, projecting and narrowing go through tables, so there is a lemma for what each leaves under a
key; together they give `get?_identity`, on which the main result `ofHostFacts_decides` rests. It is
about hosts with well-formed facts; those of a candidate may be anything.
-/

namespace HostPruning

/-! ### Stored facts -/

namespace Json

/-- Whether a stored value contains another the way facts do: texts are equal, and a list holds every
entry of the other. -/
def Contains : (stored value : Json) → Prop
  | string stored, string value => stored = value
  | array stored, array items => ∀ item ∈ items, item ∈ stored
  | _, _ => False

end Json

namespace Facts

variable {raw candidate : Json.Members} {facts selected : FactTable} {basis : Basis} {key : String}

/-- Whether a key is present. -/
def Has (raw : Json.Members) (key : String) : Prop := raw.get? key ≠ none

/-- Whether a key is present with a text that is not empty. -/
def Filled (raw : Json.Members) (key : String) : Prop :=
  ∃ text, raw.get? key = some (.string text) ∧ text ≠ ""

/-- Whether a filled key of higher priority takes the place of an elevated one. -/
def Suppressed (raw : Json.Members) (key : String) : Prop :=
  (Filled raw "provider_id" ∧ key ∈ ["insights_id", "subscription_manager_id"]) ∨
    (¬ Filled raw "provider_id" ∧ Filled raw "insights_id" ∧ key = "subscription_manager_id")

/-- Whether a host is matched on a key. -/
def Selected (raw : Json.Members) (key : String) : Prop :=
  Has raw key ∧
    ((key ∈ elevatedKeys ∧ ¬ Suppressed raw key) ∨
      (key ∈ regularKeys ∧ ∀ other ∈ elevatedKeys, ¬ Has raw other))

/-- Whether a candidate is a match for a host: under some selected key it has a value that contains the
host's, and under none it has one that does not. -/
structure Fits (raw candidate : Json.Members) : Prop where
  shares : ∃ key value stored, Selected raw key ∧ raw.get? key = some value ∧
    candidate.get? key = some stored ∧ stored.Contains value
  agrees : ∀ key value stored, Selected raw key → raw.get? key = some value →
    candidate.get? key = some stored → stored.Contains value

theorem has_of_stored {value : Json} (stored : raw.get? key = some value) : Has raw key := by
  rw [Has, stored]
  exact Option.some_ne_none value

theorem Filled.has (filled : Filled raw key) : Has raw key := by
  obtain ⟨text, stored, -⟩ := filled
  exact has_of_stored stored

theorem Selected.known (selected : Selected raw key) : key ∈ knownKeys := by
  rcases selected.2 with ⟨elevated, -⟩ | ⟨regular, -⟩
  · exact List.mem_append_left _ elevated
  · exact List.mem_append_right _ regular

/-! ### Well-formed facts -/

/-- Every entry of a list that is read is a text that was read. -/
theorem mem_of_parseEntries {items : List Json} {texts : List String}
    (parsed : items.mapM (parseEntry key) = .ok texts) {item : Json} :
    item ∈ items ↔ ∃ text ∈ texts, item = .string text := by
  induction items generalizing texts with
  | nil =>
      cases parsed
      simp
  | cons head rest inductionHypothesis =>
      rw [List.mapM_cons] at parsed
      cases head with
      | string value =>
          cases others : rest.mapM (parseEntry key) with
          | error defect =>
              rw [others] at parsed
              cases parsed
          | ok later =>
              rw [others] at parsed
              cases parsed
              simp [inductionHypothesis others]
      | _ => cases parsed

theorem listed_iff {stored : List Json} {text : String} :
    FactValue.listed stored text = true ↔ Json.string text ∈ stored := by
  simp only [FactValue.listed, List.any_eq_true, beq_iff_eq]
  constructor
  · rintro ⟨item, among, same⟩
    cases item <;> cases same
    exact among
  · exact fun among => ⟨_, among, rfl⟩

/-- What a fact is contained in, said of the stored value it was read from. -/
theorem containedIn_iff {value other : Json} {fact : FactValue} (parsed : parseKnown key value = .ok fact) :
    fact.containedIn other = true ↔ other.Contains value := by
  unfold parseKnown at parsed
  split at parsed
  · cases value with
    | array items =>
        cases entries : items.mapM (parseEntry key) with
        | error defect => simp [parseMany, entries, Except.map] at parsed
        | ok texts =>
            simp only [parseMany, entries, Except.map, Except.ok.injEq] at parsed
            subst parsed
            cases other with
            | array stored =>
                simp only [FactValue.containedIn, Json.Contains, List.all_eq_true, listed_iff,
                  TextSet.mem_ofList, mem_of_parseEntries entries]
                constructor
                · rintro holds item ⟨text, among, rfl⟩
                  exact holds text among
                · exact fun holds text among => holds _ ⟨text, among, rfl⟩
            | _ => simp [FactValue.containedIn, Json.Contains]
    | _ => cases parsed
  · cases value with
    | string text =>
        cases parsed
        cases other with
        | string stored => simpa [FactValue.containedIn, Json.Contains] using eq_comm
        | _ => simp [FactValue.containedIn, Json.Contains]
    | _ => cases parsed

/-- Where reading keys succeeds, the value under each is well formed. -/
theorem parseKnown_of_parseKeys {keys : List String} {table : FactTable}
    (parsed : parseKeys raw keys table = .ok facts) (among : key ∈ keys) {value : Json}
    (stored : raw.get? key = some value) : ∃ fact, parseKnown key value = .ok fact := by
  induction keys generalizing table with
  | nil => cases among
  | cons head rest inductionHypothesis =>
      cases found : raw.get? head with
      | none =>
          simp only [parseKeys, found] at parsed
          rcases List.mem_cons.1 among with rfl | later
          · rw [found] at stored
            cases stored
          · exact inductionHypothesis parsed later
      | some other =>
          cases read : parseKnown head other with
          | error defect => simp [parseKeys, found, read] at parsed
          | ok fact =>
              simp only [parseKeys, found, read] at parsed
              rcases List.mem_cons.1 among with rfl | later
              · obtain rfl := Option.some.inj (found.symm.trans stored)
                exact ⟨fact, read⟩
              · exact inductionHypothesis parsed later

section Parsed

variable (parsed : parse raw = .ok facts)
include parsed

/-- A known key has a fact when it is present. -/
theorem get?_ne_none_iff (known : key ∈ knownKeys) : facts.get? key ≠ none ↔ Has raw key := by
  rw [get?_parse parsed known, Has]
  cases stored : raw.get? key with
  | none => simp
  | some value =>
      obtain ⟨fact, read⟩ := parseKnown_of_parseKeys parsed known stored
      simp [read, Except.toOption]

/-- A fact is read from what is stored. -/
theorem get?_eq_some_iff (known : key ∈ knownKeys) {fact : FactValue} :
    facts.get? key = some fact ↔ ∃ value, raw.get? key = some value ∧ parseKnown key value = .ok fact := by
  rw [get?_parse parsed known, Option.bind_eq_some_iff]
  refine exists_congr fun value => and_congr_right fun _ => ?_
  cases parseKnown key value <;> simp [Except.toOption]

/-- A fact under a key that has one text is filled when that text is not empty. -/
theorem filled_iff (known : key ∈ knownKeys) (single : key ∉ multiValuedKeys) :
    filled facts key = true ↔ Filled raw key := by
  unfold filled
  constructor
  · intro isFilled
    cases found : facts.get? key with
    | none => simp [found] at isFilled
    | some fact =>
        obtain ⟨value, stored, read⟩ := (get?_eq_some_iff parsed known).1 found
        rw [parseKnown, if_neg single] at read
        cases value with
        | string text =>
            cases read
            refine ⟨text, stored, ?_⟩
            rintro rfl
            simp [found, FactValue.isEmpty] at isFilled
        | _ => cases read
  · rintro ⟨text, stored, nonempty⟩
    have found : facts.get? key = some (.single text) :=
      (get?_eq_some_iff parsed known).2 ⟨_, stored, by rw [parseKnown, if_neg single]; rfl⟩
    simp [found, FactValue.isEmpty, nonempty]

end Parsed

/-! ### Selecting -/

/-- Keeping some keys keeps what is stored under them. -/
theorem get?_filter {keep : String → Bool} (kept : keep key = true) :
    (facts.filter fun present _ => keep present).get? key = facts.get? key :=
  lookup_filter keep kept facts.entries

/-- Under a key that is not kept nothing is left. -/
theorem get?_filter_of_not {keep : String → Bool} (lost : keep key = false) :
    (facts.filter fun present _ => keep present).get? key = none := by
  rw [Option.eq_none_iff_forall_ne_some]
  intro fact found
  have kept : keep key = true := (List.mem_filter.1 (Table.mem_entries_iff.2 found)).2
  rw [lost] at kept
  cases kept

theorem get?_project (keys : List String) :
    (project keys facts).get? key = if key ∈ keys then facts.get? key else none := by
  unfold project
  split
  next among => exact get?_filter (by simpa using among)
  next absent => exact get?_filter_of_not (by simpa using absent)

theorem get?_project_eq_some {keys : List String} {fact : FactValue} :
    (project keys facts).get? key = some fact ↔ key ∈ keys ∧ facts.get? key = some fact := by
  rw [get?_project]
  split <;> simp [*]

theorem get?_without (keys : List String) :
    (without keys facts).get? key = if key ∈ keys then none else facts.get? key := by
  unfold without
  split
  next among => exact get?_filter_of_not (by simpa using among)
  next absent => exact get?_filter (by simpa using absent)

/-- A table without entries has nothing under any key. -/
theorem isEmpty_iff : facts.isEmpty = true ↔ ∀ key, facts.get? key = none := by
  rw [Table.isEmpty, List.isEmpty_iff]
  constructor
  · intro nothing key
    rw [Table.get?, nothing]
    rfl
  · intro nothing
    refine List.eq_nil_iff_forall_not_mem.2 fun entry present => ?_
    have found := Table.mem_entries_iff.1 present
    rw [nothing] at found
    cases found

theorem project_isEmpty_iff (parsed : parse raw = .ok facts) {keys : List String}
    (known : ∀ key ∈ keys, key ∈ knownKeys) :
    (project keys facts).isEmpty = true ↔ ∀ key ∈ keys, ¬ Has raw key := by
  rw [isEmpty_iff]
  refine forall_congr' fun key => ?_
  rw [get?_project]
  by_cases among : key ∈ keys
  · rw [if_pos among, ← get?_ne_none_iff parsed (known key among), not_not]
    exact ⟨fun nothing _ => nothing, fun nothing => nothing among⟩
  · rw [if_neg among]
    exact ⟨fun _ isAmong => absurd isAmong among, fun _ => rfl⟩

theorem elevatedKeys_known : ∀ key ∈ elevatedKeys, key ∈ knownKeys := by
  decide

theorem regularKeys_known : ∀ key ∈ regularKeys, key ∈ knownKeys := by
  decide

section Parsed

variable (parsed : parse raw = .ok facts)
include parsed

/-- Narrowing leaves the elevated facts that are not suppressed. -/
theorem get?_narrow (elevatedKey : key ∈ elevatedKeys) [Decidable (Suppressed raw key)] :
    (narrow (elevated facts)).get? key = if Suppressed raw key then none else facts.get? key := by
  have filledThere : ∀ other ∈ elevatedKeys, other ∉ multiValuedKeys →
      (filled (elevated facts) other = true ↔ Filled raw other) := by
    intro other among single
    rw [← filled_iff parsed (elevatedKeys_known other among) single, filled, filled, elevated,
      get?_project, if_pos among]
  have provider := filledThere "provider_id" (by decide) (by decide)
  have insights := filledThere "insights_id" (by decide) (by decide)
  have kept : (elevated facts).get? key = facts.get? key := by
    rw [elevated, get?_project, if_pos elevatedKey]
  unfold narrow
  by_cases byProvider : Filled raw "provider_id"
  · rw [if_pos (provider.2 byProvider), get?_without, kept]
    exact if_congr (by simp [Suppressed, byProvider]) rfl rfl
  · rw [if_neg (mt provider.1 byProvider)]
    by_cases byInsights : Filled raw "insights_id"
    · rw [if_pos (insights.2 byInsights), get?_without, kept]
      exact if_congr (by simp [Suppressed, byProvider, byInsights]) rfl rfl
    · rw [if_neg (mt insights.1 byInsights), kept, if_neg (by simp [Suppressed, byProvider, byInsights])]

/-- A fact that narrowing leaves is an elevated one that is not suppressed. -/
theorem get?_narrow_eq_some {fact : FactValue} :
    (narrow (elevated facts)).get? key = some fact ↔
      (key ∈ elevatedKeys ∧ ¬ Suppressed raw key) ∧ facts.get? key = some fact := by
  classical
  constructor
  · intro found
    have inElevated := Table.mem_entries_iff.1 (mem_narrow (Table.mem_entries_iff.2 found))
    have among := (get?_project_eq_some.1 inElevated).1
    rw [get?_narrow parsed among] at found
    split at found
    next => cases found
    next unsuppressed => exact ⟨⟨among, unsuppressed⟩, found⟩
  · rintro ⟨⟨among, unsuppressed⟩, found⟩
    rwa [get?_narrow parsed among, if_neg unsuppressed]

/-- A host is matched on something exactly when it has a known key. -/
theorem exists_identity_iff :
    (∃ basis selected, identity facts = some (basis, selected)) ↔ ∃ key ∈ knownKeys, Has raw key := by
  have elevatedEmpty := project_isEmpty_iff parsed elevatedKeys_known
  have regularEmpty := project_isEmpty_iff parsed regularKeys_known
  unfold identity
  rw [← elevated] at elevatedEmpty
  rw [← regular] at regularEmpty
  by_cases noElevated : (elevated facts).isEmpty = true
  · by_cases noRegular : (regular facts).isEmpty = true
    · have nothing : ¬ ∃ key ∈ knownKeys, Has raw key := by
        rintro ⟨key, known, has⟩
        rcases List.mem_append.1 known with isElevated | isRegular
        · exact elevatedEmpty.1 noElevated key isElevated has
        · exact regularEmpty.1 noRegular key isRegular has
      simp [noElevated, noRegular, nothing]
    · have something := mt regularEmpty.2 noRegular
      push Not at something
      obtain ⟨key, isRegular, has⟩ := something
      simp only [noElevated, noRegular]
      exact ⟨fun _ => ⟨key, regularKeys_known key isRegular, has⟩, fun _ => ⟨_, _, rfl⟩⟩
  · have something := mt elevatedEmpty.2 noElevated
    push Not at something
    obtain ⟨key, isElevated, has⟩ := something
    simp only [noElevated]
    exact ⟨fun _ => ⟨key, elevatedKeys_known key isElevated, has⟩, fun _ => ⟨_, _, rfl⟩⟩

/-- A host is matched on what is read under the selected keys. -/
theorem get?_identity (chosen : identity facts = some (basis, selected)) {fact : FactValue} :
    selected.get? key = some fact ↔ Selected raw key ∧ facts.get? key = some fact := by
  have elevatedEmpty := project_isEmpty_iff parsed elevatedKeys_known
  rw [← elevated] at elevatedEmpty
  have has : key ∈ knownKeys → facts.get? key = some fact → Has raw key :=
    fun known found => (get?_ne_none_iff parsed known).1 (by rw [found]; exact Option.some_ne_none fact)
  unfold identity at chosen
  by_cases noElevated : (elevated facts).isEmpty = true
  · have nothing := elevatedEmpty.1 noElevated
    rw [if_neg (by simp [noElevated])] at chosen
    split at chosen
    · cases chosen
      rw [regular, get?_project_eq_some]
      constructor
      · rintro ⟨isRegular, found⟩
        exact ⟨⟨has (regularKeys_known key isRegular) found, Or.inr ⟨isRegular, nothing⟩⟩, found⟩
      · rintro ⟨⟨present, ⟨isElevated, -⟩ | ⟨isRegular, -⟩⟩, found⟩
        · exact absurd present (nothing key isElevated)
        · exact ⟨isRegular, found⟩
    · cases chosen
  · rw [if_pos (by simp [noElevated])] at chosen
    cases chosen
    obtain ⟨other, isElevated, present⟩ : ∃ other ∈ elevatedKeys, Has raw other := by
      simpa using mt elevatedEmpty.2 noElevated
    rw [get?_narrow_eq_some parsed]
    constructor
    · rintro ⟨⟨among, unsuppressed⟩, found⟩
      exact ⟨⟨has (elevatedKeys_known key among) found, Or.inl ⟨among, unsuppressed⟩⟩, found⟩
    · rintro ⟨⟨-, chosen | ⟨-, noOther⟩⟩, found⟩
      · exact ⟨chosen, found⟩
      · exact absurd present (noOther other isElevated)

/-- What a host shares with a candidate and agrees on with it is decided by what the two have stored. -/
theorem fits_iff (chosen : identity facts = some (basis, selected)) :
    FactFilter.Shares selected candidate ∧ FactFilter.Agrees selected candidate ↔ Fits raw candidate := by
  have entry : ∀ {key fact}, (key, fact) ∈ selected.entries ↔
      Selected raw key ∧ ∃ value, raw.get? key = some value ∧ parseKnown key value = .ok fact := by
    intro key fact
    rw [Table.mem_entries_iff, get?_identity parsed chosen]
    exact and_congr_right fun isSelected => get?_eq_some_iff parsed isSelected.known
  constructor
  · rintro ⟨⟨⟨key, fact⟩, among, stored, found, contained⟩, agrees⟩
    obtain ⟨isSelected, value, has, read⟩ := entry.1 among
    refine ⟨⟨key, value, stored, isSelected, has, found, (containedIn_iff read).1 contained⟩, ?_⟩
    intro key value stored isSelected has found
    obtain ⟨fact, read⟩ := parseKnown_of_parseKeys parsed isSelected.known has
    exact (containedIn_iff read).1 (agrees (key, fact) (entry.2 ⟨isSelected, value, has, read⟩) stored found)
  · rintro ⟨⟨key, value, stored, isSelected, has, found, contained⟩, agrees⟩
    obtain ⟨fact, read⟩ := parseKnown_of_parseKeys parsed isSelected.known has
    refine ⟨⟨(key, fact), entry.2 ⟨isSelected, value, has, read⟩, stored, found,
      (containedIn_iff read).2 contained⟩, ?_⟩
    rintro ⟨key, fact⟩ among stored found
    obtain ⟨isSelected, value, has, read⟩ := entry.1 among
    exact (containedIn_iff read).2 (agrees key value stored isSelected has found)

end Parsed

/-- A host with a filled provider identifier is matched on nothing else. -/
theorem selected_of_provider (filled : Filled raw "provider_id") :
    Selected raw key ↔ key = "provider_id" := by
  constructor
  · rintro ⟨-, ⟨among, unsuppressed⟩ | ⟨-, noElevated⟩⟩
    · simp only [Suppressed, filled, true_and, not_true, false_and, or_false] at unsuppressed
      simp only [elevatedKeys, List.mem_cons, List.not_mem_nil, or_false] at among unsuppressed
      tauto
    · exact absurd filled.has (noElevated _ (by decide))
  · rintro rfl
    refine ⟨filled.has, Or.inl ⟨by decide, ?_⟩⟩
    simp [Suppressed, filled]

/-- A candidate fits a host with a filled provider identifier when it has the same. -/
theorem fits_of_provider {provider : String} (stored : raw.get? "provider_id" = some (.string provider))
    (nonempty : provider ≠ "") :
    Fits raw candidate ↔ candidate.get? "provider_id" = some (.string provider) := by
  have only : ∀ {key}, Selected raw key ↔ key = "provider_id" :=
    selected_of_provider ⟨provider, stored, nonempty⟩
  have same : ∀ {value other : Json}, raw.get? "provider_id" = some value →
      (other.Contains value ↔ other = .string provider) := by
    intro value other found
    obtain rfl := Option.some.inj (stored.symm.trans found)
    cases other <;> simp [Json.Contains]
  constructor
  · rintro ⟨⟨key, value, other, isSelected, has, found, contained⟩, -⟩
    obtain rfl := only.1 isSelected
    rw [found, (same has).1 contained]
  · intro found
    refine ⟨⟨_, _, _, only.2 rfl, stored, found, (same stored).2 rfl⟩, ?_⟩
    intro key value other isSelected has there
    obtain rfl := only.1 isSelected
    exact (same has).2 (Option.some.inj (there.symm.trans found))

/-- A host with a known key is matched on one: what is suppressed has its place taken. -/
theorem exists_selected (present : ∃ key ∈ knownKeys, Has raw key) : ∃ key, Selected raw key := by
  by_cases byProvider : Filled raw "provider_id"
  · exact ⟨_, (selected_of_provider byProvider).2 rfl⟩
  by_cases byInsights : Filled raw "insights_id"
  · refine ⟨"insights_id", byInsights.has, Or.inl ⟨by decide, ?_⟩⟩
    simp [Suppressed, byProvider]
  have unsuppressed : ∀ key, ¬ Suppressed raw key := by simp [Suppressed, byProvider, byInsights]
  by_cases anyElevated : ∃ key ∈ elevatedKeys, Has raw key
  · obtain ⟨key, among, has⟩ := anyElevated
    exact ⟨key, has, Or.inl ⟨among, unsuppressed key⟩⟩
  · obtain ⟨key, known, has⟩ := present
    rcases List.mem_append.1 known with isElevated | isRegular
    · exact absurd ⟨key, isElevated, has⟩ anyElevated
    · exact ⟨key, has, Or.inr ⟨isRegular, fun other among there => anyElevated ⟨other, among, there⟩⟩⟩

end Facts

namespace FactFilter

open Facts

variable {raw : Json.Members} {facts selected : FactTable} {basis : Basis} {filter : FactFilter}

/-- Facts that a host is matched on always make a filter. -/
theorem exists_filter_of_identity (parsed : parse raw = .ok facts)
    (chosen : identity facts = some (basis, selected)) : ∃ filter, ofFacts selected = some filter := by
  obtain ⟨key, isSelected⟩ := exists_selected ((exists_identity_iff parsed).1 ⟨basis, selected, chosen⟩)
  have found := (get?_ne_none_iff parsed isSelected.known).2 isSelected.1
  obtain ⟨fact, found⟩ := Option.ne_none_iff_exists'.1 found
  have nonempty : selected.isEmpty ≠ true := by
    intro nothing
    have missing := isEmpty_iff.1 nothing key
    rw [(get?_identity parsed chosen).2 ⟨isSelected, found⟩] at missing
    cases missing
  exact ⟨_, if_neg nonempty⟩

/-- A host with a known key has a filter. -/
theorem exists_ofHostFacts (parsed : parse raw = .ok facts) (present : ∃ key ∈ knownKeys, Has raw key) :
    ∃ basis filter, ofHostFacts raw = .ok (some (basis, filter)) := by
  obtain ⟨basis, selected, chosen⟩ := (exists_identity_iff parsed).2 present
  obtain ⟨filter, ofSelected⟩ := exists_filter_of_identity parsed chosen
  exact ⟨basis, filter, by simp [ofHostFacts, parsed, Except.map, chosen, ofSelected]⟩

/-- A host without a known key has none. -/
theorem ofHostFacts_of_bare (parsed : parse raw = .ok facts) (bare : ∀ key ∈ knownKeys, ¬ Has raw key) :
    ofHostFacts raw = .ok none := by
  have unmatched : identity facts = none := by
    refine Option.eq_none_iff_forall_ne_some.2 fun ⟨basis, selected⟩ chosen => ?_
    obtain ⟨key, known, has⟩ := (exists_identity_iff parsed).1 ⟨basis, selected, chosen⟩
    exact bare key known has
  simp [ofHostFacts, parsed, Except.map, unmatched]

/-- The filter of a host accepts the candidates that fit it. -/
theorem accepts_iff_fits (made : ofHostFacts raw = .ok (some (basis, filter))) (candidate : Json.Members) :
    filter.accepts candidate = true ↔ Fits raw candidate := by
  obtain ⟨selected, ⟨facts, basis, parsed, chosen⟩, ofSelected⟩ := exists_identified made
  exact (ofFacts_accepts ofSelected candidate).trans (fits_iff parsed chosen)

/-- What is decided about candidates of a host from its stored facts, given that these are well formed. -/
structure Decided (raw : Json.Members) (facts : FactTable) : Prop where
  /-- There is a filter exactly when there is a known key. -/
  made : (∃ basis filter, ofHostFacts raw = .ok (some (basis, filter))) ↔ ∃ key ∈ knownKeys, Has raw key
  bare : (∀ key ∈ knownKeys, ¬ Has raw key) → ofHostFacts raw = .ok none
  /-- Once facts are found to be matched on, making their filter does not fail. -/
  unfailing : ∀ basis selected, identity facts = some (basis, selected) →
    ∃ filter, ofFacts selected = some filter
  accepts : ∀ basis filter, ofHostFacts raw = .ok (some (basis, filter)) →
    ∀ candidate, filter.accepts candidate = true ↔ Fits raw candidate
  self : (∃ key ∈ knownKeys, Has raw key) →
    ∃ basis filter, ofHostFacts raw = .ok (some (basis, filter)) ∧ filter.accepts raw = true
  provider : ∀ provider, raw.get? "provider_id" = some (.string provider) → provider ≠ "" →
    ∃ basis filter, ofHostFacts raw = .ok (some (basis, filter)) ∧
      ∀ candidate : Json.Members,
        filter.accepts candidate = true ↔ candidate.get? "provider_id" = some (.string provider)

/-- The filter of a host with well-formed facts decides what is asked of its candidates. -/
theorem ofHostFacts_decides (parsed : parse raw = .ok facts) : Decided raw facts where
  made := by
    refine ⟨?_, exists_ofHostFacts parsed⟩
    rintro ⟨basis, filter, made⟩
    by_contra nothing
    have bare : ∀ key ∈ knownKeys, ¬ Has raw key := fun key known has => nothing ⟨key, known, has⟩
    rw [ofHostFacts_of_bare parsed bare] at made
    cases made
  bare := ofHostFacts_of_bare parsed
  unfailing _ _ := exists_filter_of_identity parsed
  accepts _ _ made := accepts_iff_fits made
  self present := by
    obtain ⟨basis, filter, made⟩ := exists_ofHostFacts parsed present
    exact ⟨basis, filter, made, accepts_self made⟩
  provider provider stored nonempty := by
    obtain ⟨basis, filter, made⟩ := exists_ofHostFacts parsed ⟨_, by decide, has_of_stored stored⟩
    exact ⟨basis, filter, made, fun candidate =>
      (accepts_iff_fits made candidate).trans (fits_of_provider stored nonempty)⟩

/-- Facts with an empty provider identifier, an insights identifier that takes the place of the
subscription, and a regular fact that does not count. -/
def layeredFacts : Json.Members :=
  [("provider_id", .string ""), ("insights_id", .string "i-1"), ("subscription_manager_id", .string "s-1"),
    ("ip_addresses", .array [.string "10.0.0.1"])]

/-- What is decided for a host with such facts. It fits a candidate that has another subscription and no
provider identifier, and its own empty provider identifier does not fit one that is filled. -/
theorem layered_facts_decided :
    ∃ facts, parse layeredFacts = .ok facts ∧ Decided layeredFacts facts ∧
      Fits layeredFacts [("insights_id", .string "i-1"), ("subscription_manager_id", .string "s-2")] ∧
        ¬ Fits layeredFacts [("provider_id", .string "p-1"), ("insights_id", .string "i-1")] := by
  have decided : Decided layeredFacts _ := ofHostFacts_decides rfl
  refine ⟨_, rfl, decided, (decided.accepts _ _ rfl _).1 (by decide), ?_⟩
  exact mt (decided.accepts _ _ rfl _).2 (by decide)

end FactFilter

end HostPruning
