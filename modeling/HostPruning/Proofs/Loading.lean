import HostPruning.Database.Row
import HostPruning.Facts.Filter.Decode
import HostPruning.Proofs.Knowledge
import HostPruning.Proofs.Reading

/-!
# Stored facts and loaded facts

A row's facts are one text that is read twice. The database reads it for a condition, keeping
repeated names, and a host is loaded from it with the names of every object settled. The two
see the same value (`decode_facts`). Facts that name each key once lose nothing when they are
settled, and containment looks only at texts and lists of texts, which settling leaves alone;
so a filter accepts the loaded facts exactly when it accepts the stored ones
(`accepts_loadedFacts`).
-/

namespace HostPruning

namespace Json

/-- Settling the names of objects turns nothing into a text and no text into anything else. -/
@[simp]
theorem text?_dedup (value : Json) : value.dedup.text? = value.text? := by
  cases value <;> simp [dedup, text?]

namespace Members

/-- A new name is set behind the others. -/
theorem set_of_fresh {name : String} {value : Json} {members : Members}
    (fresh : name ∉ members.map Prod.fst) :
    Members.set name value members = members ++ [(name, value)] := by
  induction members with
  | nil => rfl
  | cons member rest inductionHypothesis =>
      rw [List.map_cons, List.mem_cons, not_or] at fresh
      rw [Members.set, if_neg (Ne.symm fresh.1), inductionHypothesis fresh.2, List.cons_append]

theorem foldl_set_of_nodup {kept members : Members}
    (once : ((kept ++ members).map Prod.fst).Nodup) :
    members.foldl (fun kept member => Members.set member.1 member.2 kept) kept = kept ++ members := by
  induction members generalizing kept with
  | nil => rw [List.foldl_nil, List.append_nil]
  | cons member rest inductionHypothesis =>
      have fresh : member.1 ∉ kept.map Prod.fst := by
        rw [List.map_append, List.map_cons, List.nodup_append] at once
        exact fun present => once.2.2 _ present _ List.mem_cons_self rfl
      have split : kept ++ member :: rest = (kept ++ [member]) ++ rest := by simp
      rw [List.foldl_cons, set_of_fresh fresh, split, inductionHypothesis (split ▸ once)]

/-- Members that name each key once are settled already. -/
theorem dedup_of_nodup {members : Members} (once : (members.map Prod.fst).Nodup) :
    members.dedup = members :=
  foldl_set_of_nodup once

end Members

/-- Settling the values of members leaves their names. -/
@[simp]
theorem map_fst_dedupMembers (members : Members) :
    (dedupMembers members).map Prod.fst = members.map Prod.fst := by
  induction members with
  | nil => rfl
  | cons member rest inductionHypothesis =>
      rw [dedupMembers, List.map_cons, List.map_cons, inductionHypothesis]

theorem get?_dedupMembers (members : Members) (name : String) :
    Members.get? (dedupMembers members) name = (Members.get? members name).map dedup := by
  induction members with
  | nil => rfl
  | cons member rest inductionHypothesis =>
      obtain ⟨present, value⟩ := member
      simp only [Members.get?, dedupMembers, List.lookup_cons] at inductionHypothesis ⊢
      split
      · rfl
      · exact inductionHypothesis

end Json

namespace FactValue

@[simp]
theorem listed_dedupItems (items : List Json) (text : String) :
    listed (Json.dedupItems items) text = listed items text := by
  induction items with
  | nil => rfl
  | cons item rest inductionHypothesis =>
      unfold listed at inductionHypothesis ⊢
      rw [Json.dedupItems, List.any_cons, List.any_cons, inductionHypothesis, Json.text?_dedup]

/-- Containment does not look into objects. -/
@[simp]
theorem containedIn_dedup (value : FactValue) (stored : Json) :
    value.containedIn stored.dedup = value.containedIn stored := by
  cases stored with
  | array items =>
      cases value with
      | single text => simp [Json.dedup, containedIn]
      | many texts =>
          rw [Json.dedup, containedIn, containedIn]
          simp only [funext (listed_dedupItems items)]
  | object members => cases value <;> simp [Json.dedup, containedIn]
  | _ => simp [Json.dedup]

end FactValue

namespace FactFilter

/-- A filter sees of each fact only whether it is there and what it contains. -/
theorem accepts_congr {left right : Json.Members}
    (there : ∀ key, (left.get? key).isSome = (right.get? key).isSome)
    (contained : ∀ key (value : FactValue),
      (left.get? key).any value.containedIn = (right.get? key).any value.containedIn)
    (filter : FactFilter) : filter.accepts left = filter.accepts right := by
  induction filter using partsInduction with
  | contains key value => rw [accepts_contains_eq, accepts_contains_eq, contained]
  | conflicts key value => rw [accepts_conflicts_eq, accepts_conflicts_eq, there, contained]
  | anyOf parts inductionHypothesis =>
      rw [accepts_anyOf, accepts_anyOf, any_eq_any inductionHypothesis]
  | noneOf parts inductionHypothesis =>
      rw [accepts_noneOf, accepts_noneOf, any_eq_any inductionHypothesis]
  | allOf parts inductionHypothesis =>
      rw [accepts_allOf, accepts_allOf, all_eq_all inductionHypothesis]

end FactFilter

namespace Database

open FactFilter (membersOf)

/-- The facts a host is loaded with. -/
def loadedFacts (stored : Json) : Json.Members := membersOf stored.dedup

/-- Whether stored facts name each key once. -/
def NamesOnce (stored : Json) : Prop := ((membersOf stored).map Prod.fst).Nodup

/-- The facts decoded from a row's text are those the database sees in it, with repeated names
settled. -/
theorem decodeFacts_loads {row : HostRow} {id : HostId} {facts : Json.Members}
    (decoded : HostRow.decodeFacts id row.facts = .ok facts) : facts = loadedFacts row.stored := by
  unfold HostRow.decodeFacts Json.read Json.readRepeated at decoded
  cases read : Json.readAs .records row.facts with
  | none => simp [read] at decoded
  | some stored =>
      have seen : row.stored = stored := by
        rw [HostRow.stored, Json.readAs_widen Json.records_within_stored read, Option.getD_some]
      rw [seen, loadedFacts]
      rw [read, Option.map_some] at decoded
      cases settled : stored.dedup with
      | object members =>
          rw [settled] at decoded
          exact (Except.ok.inj decoded).symm
      | _ =>
          rw [settled] at decoded
          exact (Except.ok.inj decoded).symm

/-- A host is loaded with the facts that the database's own functions see in its row. -/
theorem decode_facts {row : HostRow} {host : Host} (decoded : row.decode = .ok host) :
    host.facts = loadedFacts row.stored := by
  unfold HostRow.decode at decoded
  split at decoded
  case h_1 => cases decoded
  case h_2 id _ =>
    split at decoded
    case h_1 => cases decoded
    case h_2 =>
      split at decoded
      case h_1 => cases decoded
      case h_2 facts found =>
        split at decoded
        case h_1 => cases decoded
        case h_2 =>
          obtain rfl := Except.ok.inj decoded
          exact decodeFacts_loads found

/-- Under each key is loaded what is stored, with the names in it settled. -/
theorem get?_loadedFacts {stored : Json} (once : NamesOnce stored) (key : String) :
    (loadedFacts stored).get? key = ((membersOf stored).get? key).map Json.dedup := by
  cases stored with
  | object members =>
      have settled : (Json.Members.dedup (Json.dedupMembers members)) = Json.dedupMembers members :=
        Json.Members.dedup_of_nodup (by rwa [Json.map_fst_dedupMembers])
      rw [loadedFacts, Json.dedup, settled]
      exact Json.get?_dedupMembers members key
  | array items => simp [loadedFacts, Json.dedup, membersOf, Json.Members.get?]
  | _ => simp [loadedFacts, Json.dedup, membersOf, Json.Members.get?]

/-- A filter accepts the loaded facts exactly when it accepts the stored ones. -/
theorem accepts_loadedFacts {stored : Json} (once : NamesOnce stored) (filter : FactFilter) :
    filter.accepts (loadedFacts stored) = filter.accepts (membersOf stored) := by
  refine FactFilter.accepts_congr (fun key => ?_) (fun key value => ?_) filter
  · rw [get?_loadedFacts once, Option.isSome_map]
  · rw [get?_loadedFacts once, Option.any_map]
    exact congrArg (Option.any · _) (funext (FactValue.containedIn_dedup value))

/-- A filter is grounded in the loaded facts exactly when it is in the stored ones. -/
theorem grounded_loadedFacts {stored : Json} (once : NamesOnce stored) {filter : FactFilter} :
    filter.Grounded (loadedFacts stored) ↔ filter.Grounded (membersOf stored) := by
  unfold FactFilter.Grounded
  simp only [get?_loadedFacts once, ne_eq, Option.map_eq_none_iff]

end Database

end HostPruning
