import HostPruning.Proofs.Criteria
import HostPruning.Proofs.Evidence

/-!
# Malformed hosts

A host with malformed facts is passed over when its turn to be scanned comes. Nothing keeps it from
being a candidate of another host, though: a filter sees of a candidate only what stands under the keys
that the scanned host is matched on. `malformed_overlooked` says when a malformed host takes part all
the same, and `malformed_host_removed` shows one that is removed in favour of another.
-/

namespace HostPruning

/-- A value and one that contains it are of one kind. -/
theorem Json.Contains.kind_eq {stored value : Json} (contained : stored.Contains value) :
    stored.kind = value.kind := by
  cases stored <;> cases value <;> first | rfl | cases contained

namespace Facts

variable {raw candidate : Json.Members} {facts : FactTable} {key : String} {value : Json}

/-- The kind of value that a key asks for. -/
def kindOf (key : String) : Json.Kind := if key ∈ multiValuedKeys then .list else .string

/-- Only values of the kind that is asked for are read. -/
theorem kind_of_parseKnown {fact : FactValue} (read : parseKnown key value = .ok fact) :
    value.kind = kindOf key := by
  unfold parseKnown at read
  unfold kindOf
  split at read
  next several =>
    rw [if_pos several]
    cases value with
    | array items => rfl
    | _ => cases read
  next single =>
    rw [if_neg single]
    cases value with
    | string text => rfl
    | _ => cases read

/-- A candidate that fits has a value of the right kind under every selected key that it has. -/
theorem Fits.kind_eq (fits : Fits raw candidate) (parsed : parse raw = .ok facts)
    (selected : Selected raw key) (present : candidate.get? key = some value) :
    value.kind = kindOf key := by
  obtain ⟨own, found⟩ := Option.ne_none_iff_exists'.1 selected.1
  obtain ⟨fact, read⟩ := parseKnown_of_parseKeys parsed selected.known found
  rw [(fits.agrees key own value selected found present).kind_eq, kind_of_parseKnown read]

end Facts

namespace Pruning

open Facts
open Rehearsal (smallId)

variable {World : Type}

/-- How a scanned host can have a malformed one among its candidates. -/
structure Overlooked (scanned malformed : Host) : Prop where
  apart : scanned ≠ malformed
  /-- The scanned host itself is well formed. -/
  read : ∃ facts, parse scanned.facts = .ok facts
  fits : Fits scanned.facts malformed.facts
  /-- What is of the wrong kind stands under keys that the scanned host is not matched on. -/
  unlooked : ∀ key value, malformed.facts.get? key = some value → value.kind ≠ kindOf key →
    ¬ Selected scanned.facts key
  /-- Not everything is of the wrong kind. -/
  seen : ∃ key ∈ knownKeys, ∃ value, malformed.facts.get? key = some value ∧ value.kind = kindOf key

/-- Malformed hosts are never scanned for duplicates, and one is removed, or survives a removal, only as
a candidate that its scanned host overlooks the defects of. This holds whatever else happens to the store
meanwhile. -/
theorem malformed_overlooked {around : Surroundings World} (honest : around.store.Honest) (plan : Plan)
    (world : World) :
    ∀ decision ∈ (performed around plan world).2.decisions, ∀ host,
      host = decision.duplicate ∨ host = decision.survivor →
        ∀ defect, parse host.facts = .error defect → Overlooked decision.scanned host := by
  intro decision decided host involved defect malformed
  obtain ⟨account, sourced⟩ := performed_sourced around plan world decision decided
  obtain ⟨basis, filter, asked, found, made, answered, duplicate, survivor⟩ := sourced.answered
  obtain ⟨selected, ⟨facts, -, parsed, -⟩, -⟩ := FactFilter.exists_identified made
  have accepted : filter.accepts host.facts = true := by
    rcases involved with rfl | rfl
    · exact honest account filter asked found answered _ duplicate sourced.duplicate_account
    · exact honest account filter asked found answered _ survivor sourced.survivor_account
  have fits := (FactFilter.accepts_iff_fits made host.facts).1 accepted
  obtain ⟨key, value, stored, isSelected, -, present, -⟩ := fits.shares
  exact
    { apart := by
        rintro rfl
        rw [parsed] at malformed
        cases malformed
      read := ⟨facts, parsed⟩
      fits := fits
      unlooked := fun key value present wrong isSelected =>
        wrong (fits.kind_eq parsed isSelected present)
      seen := ⟨key, isSelected.known, stored, present, fits.kind_eq parsed isSelected present⟩ }

/-- A host that carries the provider identifier `p` and some further facts. -/
def markedHost (id : HostId) (further : Json.Members) (offset : Int) : Host :=
  Inventory.exampleHost id "acct-1" (.object (("provider_id", .string "p") :: further)) offset

/-- Three hosts of one provider identifier. The newest has an insights identifier that is null, the oldest
a name that is a number. -/
def markedHosts : Inventory :=
  .ofHosts [markedHost (smallId 1) [("insights_id", .null)] 2, markedHost (smallId 2) [] 1,
    markedHost (smallId 3) [("fqdn", .ofInt 7)] 0]

/-- The three hosts before a run. -/
def markedHostStage : Rehearsal.Stage Inventory := .start markedHosts (.start [] none)

/-- A malformed host is removed, and the host that survives it is malformed too. -/
theorem malformed_host_removed :
    ∃ removal ∈ removed Rehearsal.calm (Rehearsal.calmPlan 1) markedHostStage,
      (∃ defect, parse removal.duplicate.facts = .error defect) ∧
        ∃ defect, parse removal.survivor.facts = .error defect := by
  have removals : removed Rehearsal.calm (Rehearsal.calmPlan 1) markedHostStage =
      [⟨markedHost (smallId 2) [] 1, markedHost (smallId 2) [] 1,
          markedHost (smallId 1) [("insights_id", .null)] 2⟩,
        ⟨markedHost (smallId 2) [] 1, markedHost (smallId 3) [("fqdn", .ofInt 7)] 0,
          markedHost (smallId 1) [("insights_id", .null)] 2⟩] := by rfl
  rw [removals]
  exact ⟨_, List.mem_cons_of_mem _ List.mem_cons_self, ⟨.notText "fqdn" .number, rfl⟩,
    ⟨.notText "insights_id" .null, rfl⟩⟩

/-- Both malformed hosts are overlooked by the one between them. -/
theorem marked_hosts_overlooked :
    Overlooked (markedHost (smallId 2) [] 1) (markedHost (smallId 1) [("insights_id", .null)] 2) ∧
      Overlooked (markedHost (smallId 2) [] 1) (markedHost (smallId 3) [("fqdn", .ofInt 7)] 0) := by
  have decision : (⟨markedHost (smallId 2) [] 1, markedHost (smallId 3) [("fqdn", .ofInt 7)] 0,
      markedHost (smallId 1) [("insights_id", .null)] 2⟩ : Decision) ∈
      (performed Rehearsal.calm.toSurroundings (Rehearsal.calmPlan 1) markedHostStage).2.decisions :=
    List.mem_cons_of_mem _ List.mem_cons_self
  have overlooked := malformed_overlooked Rehearsal.calm.honest (Rehearsal.calmPlan 1) markedHostStage
    _ decision
  exact ⟨overlooked _ (.inr rfl) (.notText "insights_id" .null) rfl,
    overlooked _ (.inl rfl) (.notText "fqdn" .number) rfl⟩

end Pruning

end HostPruning
