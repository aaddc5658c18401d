import Mathlib.Data.List.Forall2
import HostPruning.Proofs.Attendance
import HostPruning.Proofs.Settling

/-!
# Hosts alike to matching

Matching reads eight keys of a host's facts. Of a list under one of them it sees which texts are
in it and whether all entries are texts, and of a value that is neither a text nor a list only that
(`Json.Alike`). So parsing, filters and what filters accept are the same for facts that are alike
under the known keys, even though candidates are tested on stored facts that nobody parsed
(`ofHostFacts_alike`, `accepts_alike`).

From there likeness goes through all that is called for: hosts that are alike are scanned, sorted
and judged alike, decision by decision and step by step (`verdicts_alike`, `runSteps_alike`).
-/

namespace HostPruning

/-! ### Stored values -/

namespace Json

/-- Whether a value is a text or a list, as the values of facts are. -/
def factShaped : Json → Bool
  | string _ | array _ => true
  | _ => false

/-- Stored values that are the same to matching. -/
inductive Alike : Json → Json → Prop
  | text (text : String) : Alike (string text) (string text)
  | list {left right : List Json}
      (texts : ∀ text, FactValue.listed left text = FactValue.listed right text)
      (wellFormed : (∀ item ∈ left, item.text? ≠ none) ↔ ∀ item ∈ right, item.text? ≠ none) :
      Alike (array left) (array right)
  | other {left right : Json} (leftOther : left.factShaped = false)
      (rightOther : right.factShaped = false) : Alike left right

namespace Alike

theorem refl (value : Json) : Alike value value := by
  cases value with
  | string text => exact .text text
  | array items => exact .list (fun _ => rfl) Iff.rfl
  | null => exact .other rfl rfl
  | bool flag => exact .other rfl rfl
  | number number => exact .other rfl rfl
  | object members => exact .other rfl rfl

/-- The order of entries and their repeats make no difference. -/
theorem of_entries {left right : List Json} (same : ∀ item, item ∈ left ↔ item ∈ right) :
    Alike (array left) (array right) := by
  refine .list (fun text => ?_) (forall_congr' fun item => imp_congr_left (same item))
  rw [Bool.eq_iff_iff, FactValue.listed, FactValue.listed, List.any_eq_true, List.any_eq_true]
  exact exists_congr fun item => and_congr_left' (same item)

variable {left right : Json}

theorem symm (alike : Alike left right) : Alike right left := by
  cases alike with
  | text text => exact .text text
  | list texts wellFormed => exact .list (fun text => (texts text).symm) wellFormed.symm
  | other leftOther rightOther => exact .other rightOther leftOther

theorem containedIn (alike : Alike left right) (value : FactValue) :
    value.containedIn left = value.containedIn right := by
  cases alike with
  | text text => rfl
  | list texts wellFormed =>
      cases value with
      | single text => rfl
      | many members => simp only [FactValue.containedIn, funext texts]
  | other leftOther rightOther =>
      have nothing : ∀ {stored : Json}, stored.factShaped = false → value.containedIn stored = false := by
        intro stored other
        cases stored <;> cases value <;> first | rfl | cases other
      rw [nothing leftOther, nothing rightOther]

end Alike

end Json

/-! ### Reading facts -/

namespace Facts

theorem parseEntry_toOption (key : String) (item : Json) :
    (parseEntry key item).toOption = item.text? := by
  cases item <;> rfl

/-- What is read of a list are its texts, if it has no other entries. -/
theorem mapM_parseEntry_toOption (key : String) (items : List Json) :
    (items.mapM (parseEntry key)).toOption =
      if ∀ item ∈ items, item.text? ≠ none then some (items.filterMap Json.text?) else none := by
  induction items with
  | nil => simp [List.mapM_nil, pure, Except.pure, Except.toOption]
  | cons item rest inductionHypothesis =>
      have entry := parseEntry_toOption key item
      rw [List.mapM_cons]
      cases read : parseEntry key item with
      | error defect =>
          rw [read] at entry
          rw [if_neg fun texts => texts item List.mem_cons_self entry.symm]
          rfl
      | ok text =>
          rw [read] at entry
          have found : item.text? = some text := entry.symm
          have both : (Except.ok text >>= fun first => (rest.mapM (parseEntry key)) >>= fun others =>
              pure (first :: others) : Except FactDefect (List String)).toOption =
                (rest.mapM (parseEntry key)).toOption.map (text :: ·) := by
            cases rest.mapM (parseEntry key) <;> rfl
          rw [both, inductionHypothesis]
          by_cases texts : ∀ item ∈ rest, item.text? ≠ none
          · rw [if_pos texts, if_pos (by simpa [found] using texts), List.filterMap_cons_some found]
            rfl
          · rw [if_neg texts, if_neg (by simpa [found] using texts)]
            rfl

theorem mem_filterMap_text {items : List Json} {text : String} :
    text ∈ items.filterMap Json.text? ↔ FactValue.listed items text = true := by
  simp [FactValue.listed, List.any_eq_true]

/-- Values that are alike are read alike. -/
theorem parseKnown_alike {left right : Json} (alike : left.Alike right) (key : String) :
    (parseKnown key left).toOption = (parseKnown key right).toOption := by
  cases alike with
  | text text => rfl
  | list texts wellFormed =>
      rename_i leftItems rightItems
      have sameSet : TextSet.ofList (leftItems.filterMap Json.text?) =
          TextSet.ofList (rightItems.filterMap Json.text?) := by
        refine TextSet.ext (ascendingDistinct_congr fun text => ?_)
        rw [mem_filterMap_text, mem_filterMap_text, texts]
      have many : ∀ items : List Json, (parseMany key (.array items)).toOption =
          (items.mapM (parseEntry key)).toOption.map fun texts => .many (TextSet.ofList texts) := by
        intro items
        rw [parseMany]
        cases items.mapM (parseEntry key) <;> rfl
      unfold parseKnown
      split
      · rw [many, many, mapM_parseEntry_toOption, mapM_parseEntry_toOption]
        by_cases whole : ∀ item ∈ leftItems, item.text? ≠ none
        · rw [if_pos whole, if_pos (wellFormed.1 whole), Option.map_some, Option.map_some, sameSet]
        · rw [if_neg whole, if_neg (mt wellFormed.2 whole)]
      · rfl
  | other leftOther rightOther =>
      have nothing : ∀ {stored : Json}, stored.factShaped = false →
          (parseKnown key stored).toOption = none := by
        intro stored other
        unfold parseKnown
        split <;> cases stored <;> first | rfl | cases other
      rw [nothing leftOther, nothing rightOther]

/-- Facts that are alike to matching: those under the known keys are there alike. -/
def Alike (left right : Json.Members) : Prop :=
  ∀ key ∈ knownKeys, Option.Rel Json.Alike (left.get? key) (right.get? key)

/-- A key is missing on both sides, or has values that are alike. -/
theorem stored_cases {left right : Option Json} (alike : Option.Rel Json.Alike left right) :
    (left = none ∧ right = none) ∨
      ∃ leftValue rightValue, left = some leftValue ∧ right = some rightValue ∧
        leftValue.Alike rightValue := by
  cases alike with
  | none => exact Or.inl ⟨rfl, rfl⟩
  | some same => exact Or.inr ⟨_, _, rfl, rfl, same⟩

theorem Alike.symm {left right : Json.Members} (alike : Alike left right) : Alike right left := by
  intro key known
  rcases stored_cases (alike key known) with ⟨first, second⟩ | ⟨_, _, first, second, same⟩
  · rw [first, second]
    exact .none
  · rw [first, second]
    exact .some same.symm

/-- What is stored under a known key on one side is matched on the other. -/
theorem Alike.exists_stored {left right : Json.Members} (alike : Alike left right) {key : String}
    (known : key ∈ knownKeys) {stored : Json} (found : left.get? key = some stored) :
    ∃ other, right.get? key = some other ∧ stored.Alike other := by
  rcases stored_cases (alike key known) with ⟨missing, -⟩ | ⟨_, other, first, second, same⟩
  · rw [missing] at found
    cases found
  · obtain rfl := Option.some.inj (first.symm.trans found)
    exact ⟨other, second, same⟩

/-- Facts that are alike are read alike, but for what is wrong with the malformed ones. -/
theorem parseKeys_alike {left right : Json.Members} {keys : List String}
    (alike : ∀ key ∈ keys, Option.Rel Json.Alike (left.get? key) (right.get? key))
    (table : FactTable) :
    (parseKeys left keys table).toOption = (parseKeys right keys table).toOption := by
  induction keys generalizing table with
  | nil => rfl
  | cons key rest inductionHypothesis =>
      have others := inductionHypothesis fun key later => alike key (List.mem_cons_of_mem _ later)
      unfold parseKeys
      rcases stored_cases (alike key List.mem_cons_self) with
        ⟨first, second⟩ | ⟨leftValue, rightValue, first, second, same⟩
      · rw [first, second]
        exact others table
      · have read := parseKnown_alike same key
        rw [first, second]
        dsimp only
        cases leftRead : parseKnown key leftValue <;>
          cases rightRead : parseKnown key rightValue <;>
            rw [leftRead, rightRead] at read
        · rfl
        · cases read
        · cases read
        · obtain rfl := Option.some.inj read
          exact others _

end Facts

namespace FactFilter

/-- Alike facts make the same filter. -/
theorem ofHostFacts_alike {left right : Json.Members} (alike : Facts.Alike left right) :
    (ofHostFacts left).toOption = (ofHostFacts right).toOption := by
  have parsed : (Facts.parse left).toOption = (Facts.parse right).toOption :=
    Facts.parseKeys_alike alike ∅
  unfold ofHostFacts
  cases leftParsed : Facts.parse left <;> cases rightParsed : Facts.parse right <;>
    rw [leftParsed, rightParsed] at parsed
  · rfl
  · cases parsed
  · cases parsed
  · obtain rfl := Option.some.inj parsed
    rfl

/-- The filter of a host accepts alike facts alike. -/
theorem accepts_alike {raw left right : Json.Members} {basis : Facts.Basis} {filter : FactFilter}
    (made : ofHostFacts raw = .ok (some (basis, filter))) (alike : Facts.Alike left right) :
    filter.accepts left = filter.accepts right := by
  obtain ⟨selected, identified, ofSelected⟩ := exists_identified made
  have known : ∀ entry ∈ selected.entries, entry.1 ∈ Facts.knownKeys :=
    fun entry present => (identified.readFrom present).known
  have across : ∀ {first second : Json.Members}, Facts.Alike first second →
      Shares selected first ∧ Agrees selected first → Shares selected second ∧ Agrees selected second := by
    rintro first second related ⟨⟨entry, present, stored, found, contained⟩, agrees⟩
    constructor
    · obtain ⟨other, there, same⟩ := related.exists_stored (known entry present) found
      exact ⟨entry, present, other, there, same.containedIn entry.2 ▸ contained⟩
    · intro entry present other there
      obtain ⟨stored, found, same⟩ := related.symm.exists_stored (known entry present) there
      exact (same.containedIn entry.2).trans (agrees entry present stored found)
  rw [Bool.eq_iff_iff, ofFacts_accepts ofSelected, ofFacts_accepts ofSelected]
  exact ⟨across alike, across alike.symm⟩

/-- Alike facts are both malformed, or make the same filter or none. -/
theorem ofHostFacts_cases {left right : Json.Members} (alike : Facts.Alike left right) :
    (∃ leftDefect rightDefect, ofHostFacts left = .error leftDefect ∧
        ofHostFacts right = .error rightDefect) ∨
      ∃ made, ofHostFacts left = .ok made ∧ ofHostFacts right = .ok made := by
  have same := ofHostFacts_alike alike
  cases leftMade : ofHostFacts left <;> cases rightMade : ofHostFacts right <;>
    rw [leftMade, rightMade] at same
  · exact Or.inl ⟨_, _, rfl, rfl⟩
  · cases same
  · cases same
  · obtain rfl := Option.some.inj same
    exact Or.inr ⟨_, rfl, rfl⟩

end FactFilter

/-! ### Hosts and inventories -/

open Pruning

/-- Hosts that are the same to a plan. Where culled hosts are left alone, these include when hosts
are culled. -/
structure Host.Alike (plan : Plan) (left right : Host) : Prop where
  id : left.id = right.id
  account : left.account = right.account
  modified : left.modifiedOn.unixNanos = right.modifiedOn.unixNanos
  facts : Facts.Alike left.facts right.facts
  lifecycle : plan.options.excludeCulled = true →
    left.kind = right.kind ∧ left.staleTimestamp = right.staleTimestamp

/-- Inventories that are the same to a plan, host by host. -/
structure Inventory.Alike (plan : Plan) (left right : Inventory) : Prop where
  hosts : List.Forall₂ (Host.Alike plan) left.hosts right.hosts
  policies : left.policies = right.policies

namespace Pruning

/-- Decisions about hosts that are alike. -/
structure Decision.Alike (plan : Plan) (left right : Decision) : Prop where
  scanned : Host.Alike plan left.scanned right.scanned
  duplicate : Host.Alike plan left.duplicate right.duplicate
  survivor : Host.Alike plan left.survivor right.survivor

/-- Steps that differ at most in hosts that are alike. -/
inductive Step.Alike (plan : Plan) : Step → Step → Prop
  | enter : Alike plan .enter .enter
  | scan : Alike plan .scan .scan
  | malformed : Alike plan .malformed .malformed
  | culled (count : Nat) : Alike plan (.culled count) (.culled count)
  | remove {left right : Decision} (same : left.Alike plan right) :
      Alike plan (.remove left) (.remove right)
  | fail (failure : Failure) : Alike plan (.fail failure) (.fail failure)

variable {plan : Plan} {left right : Inventory} {leftHosts rightHosts : List Host}
  {leftDecisions rightDecisions : List Decision}

/-- Hosts pass a test alike that looks at what is alike. -/
theorem filter_alike {leftKeep rightKeep : Host → Bool}
    (alike : List.Forall₂ (Host.Alike plan) leftHosts rightHosts)
    (keep : ∀ {first second : Host}, first.Alike plan second → leftKeep first = rightKeep second) :
    List.Forall₂ (Host.Alike plan) (leftHosts.filter leftKeep) (rightHosts.filter rightKeep) :=
  List.rel_filter (fun _ _ same => iff_of_eq (congrArg (· = true) (keep same))) alike

theorem map_alike {Key : Type} {key : Host → Key}
    (alike : List.Forall₂ (Host.Alike plan) leftHosts rightHosts)
    (keyed : ∀ {first second : Host}, first.Alike plan second → key first = key second) :
    leftHosts.map key = rightHosts.map key := by
  induction alike with
  | nil => rfl
  | cons same _ inductionHypothesis => rw [List.map_cons, List.map_cons, keyed same, inductionHypothesis]

theorem duplicateIds_alike (alike : List.Forall₂ (Decision.Alike plan) leftDecisions rightDecisions) :
    duplicateIds leftDecisions = duplicateIds rightDecisions := by
  induction alike with
  | nil => rfl
  | cons same _ inductionHypothesis =>
      rw [duplicateIds, List.map_cons, same.duplicate.id]
      exact congrArg (_ :: ·) inductionHypothesis

/-- Hosts that are alike stand in the same order. -/
theorem inSurvivorOrder_alike (alike : List.Forall₂ (Host.Alike plan) leftHosts rightHosts) :
    List.Forall₂ (Host.Alike plan) (inSurvivorOrder leftHosts) (inSurvivorOrder rightHosts) := by
  have inserted : ∀ {first second : Host} {left right : List Host}, first.Alike plan second →
      List.Forall₂ (Host.Alike plan) left right →
        List.Forall₂ (Host.Alike plan) (insertSurvivor first left) (insertSurvivor second right) := by
    intro first second left right host hosts
    induction hosts with
    | nil => exact .cons host .nil
    | @cons leftHead rightHead _ _ head rest inductionHypothesis =>
        have order : survivorFirst first leftHead = survivorFirst second rightHead := by
          rw [Bool.eq_iff_iff, survivorFirst_iff, survivorFirst_iff, Host.outranks_iff,
            Host.outranks_iff, host.id, host.modified, head.id, head.modified]
        unfold insertSurvivor
        rw [order]
        split
        · exact .cons host (.cons head rest)
        · exact .cons head inductionHypothesis
  induction alike with
  | nil => exact .nil
  | cons same _ inductionHypothesis => exact inserted same inductionHypothesis

end Pruning

namespace Inventory.Alike

variable {plan : Plan} {left right : Inventory}

theorem hostsOf (alike : left.Alike plan right) (account : String) :
    List.Forall₂ (Host.Alike plan) (left.hostsOf account) (right.hostsOf account) :=
  filter_alike alike.hosts fun same => by rw [same.account]

theorem accounts (alike : left.Alike plan right) : left.accounts = right.accounts := by
  rw [Inventory.accounts, Inventory.accounts, map_alike alike.hosts fun same => same.account]

theorem clockFor (alike : left.Alike plan right) (account : String) :
    plan.clockFor left account = plan.clockFor right account := by
  rw [Plan.clockFor, Plan.clockFor, alike.policies]

/-- Alike removals leave inventories alike. -/
theorem after (alike : left.Alike plan right) {leftDecisions rightDecisions : List Decision}
    (decisions : List.Forall₂ (Decision.Alike plan) leftDecisions rightDecisions) :
    (left.after leftDecisions).Alike plan (right.after rightDecisions) where
  hosts := filter_alike alike.hosts fun same => by rw [same.id, duplicateIds_alike decisions]
  policies := alike.policies

theorem page (alike : left.Alike plan right) (account : String) (cursor : Option HostId) (limit : Nat) :
    List.Forall₂ (Host.Alike plan) (left.page account cursor limit) (right.page account cursor limit) :=
  List.forall₂_take limit (filter_alike (alike.hostsOf account) fun same => by
    unfold Inventory.above
    split
    · rfl
    · rw [same.id])

end Inventory.Alike

namespace Lifecycle.Clock

/-- Where it matters, hosts that are alike are culled alike. -/
theorem isCulled_alike {plan : Plan} (clock : Clock) {left right : Host} (alike : left.Alike plan right)
    (excluded : plan.options.excludeCulled = true) : clock.isCulled left = clock.isCulled right := by
  obtain ⟨kind, stale⟩ := alike.lifecycle excluded
  rw [isCulled, isCulled, kind, stale]

end Lifecycle.Clock

/-! ### What is called for -/

namespace Pruning

section Steps

variable {plan : Plan} {left right : Inventory} {leftHost rightHost : Host}
  {leftHosts rightHosts : List Host} {leftDecisions rightDecisions : List Decision}

theorem rivals_alike (alike : left.Alike plan right) (account : String) {raw : Json.Members}
    {basis : Facts.Basis} {filter : FactFilter}
    (made : FactFilter.ofHostFacts raw = .ok (some (basis, filter))) :
    List.Forall₂ (Host.Alike plan)
      ((left.hostsOf account).filter fun host => filter.accepts host.facts)
      ((right.hostsOf account).filter fun host => filter.accepts host.facts) ∧
    List.Forall₂ (Host.Alike plan) (rivals plan left account filter)
      (rivals plan right account filter) := by
  have accepted : List.Forall₂ (Host.Alike plan)
      ((left.hostsOf account).filter fun host => filter.accepts host.facts)
      ((right.hostsOf account).filter fun host => filter.accepts host.facts) :=
    filter_alike (alike.hostsOf account) fun same => FactFilter.accepts_alike made same.facts
  refine ⟨accepted, ?_⟩
  rw [rivals, rivals, alike.clockFor]
  unfold notCulled
  split
  next excluded =>
    exact filter_alike accepted fun same => by
      rw [Lifecycle.Clock.isCulled_alike _ same excluded]
  next => exact accepted

/-- Scanning alike hosts decides alike. -/
theorem verdicts_alike (alike : left.Alike plan right) (scanned : leftHost.Alike plan rightHost) :
    List.Forall₂ (Decision.Alike plan) (verdicts plan left leftHost)
      (verdicts plan right rightHost) := by
  rcases FactFilter.ofHostFacts_cases scanned.facts with ⟨_, _, first, second⟩ | ⟨made, first, second⟩
  · simp only [verdicts, first, second]
    exact .nil
  · cases made with
    | none =>
        simp only [verdicts, first, second]
        exact .nil
    | some pair =>
        obtain ⟨basis, filter⟩ := pair
        have sorted := inSurvivorOrder_alike (rivals_alike alike leftHost.account first).2
        simp only [verdicts, first, second, ← scanned.account]
        generalize inSurvivorOrder (rivals plan left leftHost.account filter) = leftSorted at sorted ⊢
        generalize inSurvivorOrder (rivals plan right leftHost.account filter) = rightSorted
          at sorted ⊢
        cases sorted with
        | nil => exact .nil
        | cons survivor duplicates =>
            dsimp only
            rw [List.forall₂_map_left_iff, List.forall₂_map_right_iff]
            exact duplicates.imp fun _ _ duplicate => ⟨scanned, duplicate, survivor⟩

theorem judge_alike (alike : left.Alike plan right)
    (decisions : List.Forall₂ (Decision.Alike plan) leftDecisions rightDecisions)
    (scanned : leftHost.Alike plan rightHost) :
    List.Forall₂ (Decision.Alike plan) (judge plan left leftDecisions leftHost)
      (judge plan right rightDecisions rightHost) := by
  unfold judge
  rw [scanned.id, duplicateIds_alike decisions]
  split
  · exact decisions
  · exact List.rel_append decisions (verdicts_alike (alike.after decisions) scanned)

theorem foldl_judge_alike (alike : left.Alike plan right)
    (decisions : List.Forall₂ (Decision.Alike plan) leftDecisions rightDecisions)
    (pending : List.Forall₂ (Host.Alike plan) leftHosts rightHosts) :
    List.Forall₂ (Decision.Alike plan) (leftHosts.foldl (judge plan left) leftDecisions)
      (rightHosts.foldl (judge plan right) rightDecisions) := by
  induction pending generalizing leftDecisions rightDecisions with
  | nil => exact decisions
  | cons host _ inductionHypothesis => exact inductionHypothesis (judge_alike alike decisions host)

theorem judgedSteps_alike (alike : left.Alike plan right)
    (decisions : List.Forall₂ (Decision.Alike plan) leftDecisions rightDecisions)
    (scanned : leftHost.Alike plan rightHost) :
    List.Forall₂ (Step.Alike plan) (judgedSteps plan left leftDecisions leftHost)
      (judgedSteps plan right rightDecisions rightHost) := by
  unfold judgedSteps
  rw [scanned.id, duplicateIds_alike decisions]
  split
  · exact .nil
  · have remaining := alike.after decisions
    have decided := verdicts_alike remaining scanned
    unfold hostSteps
    rcases FactFilter.ofHostFacts_cases scanned.facts with
      ⟨_, _, first, second⟩ | ⟨made, first, second⟩
    · rw [first, second]
      exact .cons .malformed .nil
    · rw [first, second]
      cases made with
      | none => exact .nil
      | some pair =>
          obtain ⟨basis, filter⟩ := pair
          obtain ⟨accepted, competing⟩ := rivals_alike remaining leftHost.account first
          dsimp only
          rw [← scanned.account, accepted.length_eq, competing.length_eq]
          refine .cons (.culled _) ?_
          rw [List.forall₂_map_left_iff, List.forall₂_map_right_iff]
          exact decided.imp fun _ _ same => .remove same

theorem pageSteps_alike (alike : left.Alike plan right)
    (decisions : List.Forall₂ (Decision.Alike plan) leftDecisions rightDecisions)
    (page : List.Forall₂ (Host.Alike plan) leftHosts rightHosts) :
    List.Forall₂ (Step.Alike plan) (pageSteps plan left leftDecisions leftHosts)
      (pageSteps plan right rightDecisions rightHosts) := by
  induction page generalizing leftDecisions rightDecisions with
  | nil => exact .nil
  | cons host _ inductionHypothesis =>
      exact .cons .scan (List.rel_append (judgedSteps_alike alike decisions host)
        (inductionHypothesis (judge_alike alike decisions host)))

/-- The cursors behind alike pages are the same. -/
theorem cursorAfter_alike (page : List.Forall₂ (Host.Alike plan) leftHosts rightHosts)
    (cursor : Option HostId) : Scan.cursorAfter cursor leftHosts = Scan.cursorAfter cursor rightHosts := by
  rw [Scan.cursorAfter, Scan.cursorAfter, ← List.getLast?_map, ← List.getLast?_map,
    map_alike page fun same => same.id]

theorem due_alike (decisions : List.Forall₂ (Decision.Alike plan) leftDecisions rightDecisions) :
    List.Forall₂ (Decision.Alike plan) (plan.due leftDecisions) (plan.due rightDecisions) := by
  unfold Plan.due
  split
  · exact .nil
  · exact decisions

theorem scanSteps_alike (alike : left.Alike plan right) (account : String) (budget : Nat)
    (cursor : Option HostId)
    (decisions : List.Forall₂ (Decision.Alike plan) leftDecisions rightDecisions) :
    List.Forall₂ (Step.Alike plan) (scanSteps plan left account budget cursor leftDecisions)
      (scanSteps plan right account budget cursor rightDecisions) := by
  induction budget generalizing cursor leftDecisions rightDecisions with
  | zero => exact .cons (.fail _) .nil
  | succ budget inductionHypothesis =>
      have page := (alike.after (due_alike decisions)).page account cursor plan.options.chunkSize
      have judged := foldl_judge_alike alike decisions page
      unfold scanSteps
      dsimp only
      rw [page.length_eq, cursorAfter_alike page]
      refine List.rel_append (pageSteps_alike alike decisions page) ?_
      split
      · exact .nil
      · exact inductionHypothesis _ judged

/-- The steps of runs over alike inventories are alike. -/
theorem runSteps_alike (alike : left.Alike plan right) :
    List.Forall₂ (Step.Alike plan) (runSteps plan left) (runSteps plan right) := by
  have account : ∀ account, List.Forall₂ (Step.Alike plan) (accountSteps plan left account)
      (accountSteps plan right account) := by
    intro account
    have scanned := scanSteps_alike alike account plan.pageBudget none .nil
    unfold accountSteps underPolicy
    rw [alike.policies]
    split
    · exact scanned
    · split
      · exact .cons (.fail _) .nil
      · exact scanned
  unfold runSteps
  rw [alike.accounts]
  induction right.accounts with
  | nil => exact .nil
  | cons name _ inductionHypothesis =>
      rw [List.flatMap_cons, List.flatMap_cons]
      exact List.rel_append (.cons .enter (account name)) inductionHypothesis

end Steps

end Pruning

end HostPruning
