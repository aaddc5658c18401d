import HostPruning.Proofs.Pages
import HostPruning.Proofs.Policies
import HostPruning.Proofs.Preparing
import HostPruning.Proofs.Rows
import HostPruning.Proofs.Selection

/-!
# A database that holds an inventory

`Represents` relates a database to an inventory: its rows are those of the stored hosts in any
order, and its policies are the stored ones. There is one lemma for each operation. The
answers agree because texts of identifiers compare as the identifiers do, because a
condition selects what its filter accepts, and because rows of distinct identifiers have one
order only; the hosts come back with their modification times in UTC.
-/

namespace HostPruning

namespace Inventory

/-- A host that is new is put among the others. -/
theorem insertHost_perm {host : Host} {hosts : List Host} (fresh : ∀ other ∈ hosts, other.id ≠ host.id) :
    (insertHost host hosts).Perm (host :: hosts) := by
  induction hosts with
  | nil => exact List.Perm.refl _
  | cons head rest inductionHypothesis =>
      have later := inductionHypothesis fun other among => fresh other (List.mem_cons_of_mem _ among)
      unfold insertHost
      rw [if_neg (Ne.symm (fresh head List.mem_cons_self))]
      split
      · exact List.Perm.refl _
      · exact (later.cons head).trans (List.Perm.swap host head rest)

end Inventory

namespace Database

open HostRow
open FactFilter (membersOf)

/-- A database that holds what an inventory holds: the rows of its hosts, each of which comes back
from its row, and its policies. -/
structure Represents (database : Database) (inventory : Inventory) : Prop where
  rows : ∃ rows, database.hosts = some rows ∧ rows.Perm (inventory.hosts.map written)
  restorable : ∀ host ∈ inventory.hosts, Restorable host
  policies : ∃ table, database.policies = some table ∧
    ∀ account, (table.get? account).map StoredPolicy.policy = inventory.policies.get? account

/-! ### Orders -/

/-- Rows of hosts with distinct identifiers have one order only under an order that tells
identifiers apart. -/
theorem mergeSort_eq {rows : List HostRow} {sorted : List Host} {before : HostRow → HostRow → Bool}
    (trans : ∀ first second third, before first second = true → before second third = true →
      before first third = true)
    (total : ∀ left right, (before left right || before right left) = true)
    (tells : ∀ left right, before left right = true → before right left = true → left.id = right.id)
    (distinct : DistinctIds sorted) (same : rows.Perm (sorted.map written))
    (inOrder : sorted.Pairwise fun earlier later => before (written earlier) (written later) = true) :
    rows.mergeSort before = sorted.map written := by
  have perm : (rows.mergeSort before).Perm (sorted.map written) := (List.mergeSort_perm rows before).trans same
  refine List.Perm.eq_of_pairwise ?_ (List.pairwise_mergeSort trans total rows)
    (List.pairwise_map.2 inOrder) perm
  intro left right leftThere rightThere above below
  obtain ⟨leftHost, leftStored, rfl⟩ := List.mem_map.1 (perm.mem_iff.1 leftThere)
  obtain ⟨rightHost, rightStored, rfl⟩ := List.mem_map.1 rightThere
  have sameText := tells _ _ above below
  rw [id_written, id_written, HostId.text_inj] at sameText
  rw [distinct.eq_of_id leftStored rightStored sameText]

theorem byId_iff {left right : HostRow} : byId left right = true ↔ left.id ≤ right.id := by
  rw [byId, Bool.not_eq_true', decide_eq_false_iff_not, String.not_lt]

theorem byModification_iff {left right : HostRow} :
    byModification left right = true ↔ right.modifiedNanos < left.modifiedNanos ∨
      left.modifiedNanos = right.modifiedNanos ∧ right.id ≤ left.id := by
  rw [byModification, Bool.or_eq_true, Bool.and_eq_true, Bool.not_eq_true', decide_eq_true_eq,
    decide_eq_true_eq, decide_eq_false_iff_not, String.not_lt]

/-- Texts of identifiers are in order when the identifiers are. -/
theorem text_le_text {left right : HostId} : left.text ≤ right.text ↔ ¬ right < left := by
  rw [← HostId.text_lt_text, String.not_lt]

/-- Rows sorted by identifier are sorted as their hosts are. -/
theorem mergeSort_byId {rows : List HostRow} {hosts : List Host} (ascending : Ascending hosts)
    (same : rows.Perm (hosts.map written)) : rows.mergeSort byId = hosts.map written := by
  have distinct : DistinctIds hosts := by
    refine ascending.imp ?_
    intro earlier later before equal
    exact AscendingKey.irrefl later.id (equal ▸ before)
  refine mergeSort_eq ?_ ?_ ?_ distinct same ?_
  · intro first second third upper lower
    rw [byId_iff] at upper lower ⊢
    exact String.le_trans upper lower
  · intro left right
    rw [Bool.or_eq_true, byId_iff, byId_iff]
    exact String.le_total _ _
  · intro left right above below
    exact String.le_antisymm (byId_iff.1 above) (byId_iff.1 below)
  · refine ascending.imp ?_
    intro earlier later before
    rw [byId_iff, id_written, id_written, text_le_text]
    exact fun after => AscendingKey.irrefl later.id (AscendingKey.trans after before)

/-- Rows sorted by modification are sorted as survivors are. -/
theorem mergeSort_byModification {rows : List HostRow} {hosts : List Host} (distinct : DistinctIds hosts)
    (same : rows.Perm (hosts.map written)) :
    rows.mergeSort byModification = (inSurvivorOrder hosts).map written := by
  refine mergeSort_eq ?_ ?_ ?_ (distinct.perm (inSurvivorOrder_perm hosts).symm)
    (same.trans ((inSurvivorOrder_perm hosts).symm.map _)) ?_
  · intro first second third upper lower
    rw [byModification_iff] at upper lower ⊢
    rcases upper with later | ⟨equal, above⟩
    · rcases lower with stillLater | ⟨stillEqual, -⟩
      · exact Or.inl (stillLater.trans later)
      · exact Or.inl (stillEqual ▸ later)
    · rcases lower with stillLater | ⟨stillEqual, stillAbove⟩
      · exact Or.inl (equal ▸ stillLater)
      · exact Or.inr ⟨equal.trans stillEqual, String.le_trans stillAbove above⟩
  · intro left right
    rw [Bool.or_eq_true, byModification_iff, byModification_iff]
    rcases Int.lt_trichotomy left.modifiedNanos right.modifiedNanos with less | equal | greater
    · exact Or.inr (Or.inl less)
    · rcases String.le_total right.id left.id with above | below
      · exact Or.inl (Or.inr ⟨equal, above⟩)
      · exact Or.inr (Or.inr ⟨equal.symm, below⟩)
    · exact Or.inl (Or.inl greater)
  · intro left right above below
    rw [byModification_iff] at above below
    rcases above with later | ⟨equal, rightBelow⟩
    · rcases below with earlier | ⟨equal, -⟩ <;> omega
    · rcases below with earlier | ⟨-, leftBelow⟩
      · omega
      · exact String.le_antisymm leftBelow rightBelow
  · refine (inSurvivorOrder_pairwise hosts).imp ?_
    intro earlier later notAbove
    rw [byModification_iff, id_written, id_written, modifiedNanos_written, modifiedNanos_written,
      text_le_text, HostId.lt_def]
    rw [Host.outranks_iff] at notAbove
    omega

/-! ### Queries -/

/-- Whether a row is among those a page is cut from. -/
def pageable (account : String) (after : Option HostId) (row : HostRow) : Bool :=
  row.account = account && (match after with
    | none => true
    | some cursor => cursor.text < row.id)

theorem pageable_written (account : String) (after : Option HostId) (host : Host) :
    pageable account after (written host) = (Inventory.above after host && host.account = account) := by
  cases after with
  | none =>
      simp only [pageable, Inventory.above, Bool.and_true, Bool.true_and]
      rfl
  | some cursor =>
      have cursors : decide (cursor.text < (written host).id) = decide (cursor < host.id) :=
        decide_eq_decide.2 (by rw [id_written, HostId.text_lt_text])
      simp only [pageable, Inventory.above, cursors, account_written]
      exact Bool.and_comm _ _

theorem insertRow_of_insertHost {database next : Database} {host : Host}
    (taken : database.insertHost host = .ok next) :
    ∃ row, HostRow.ofHost host = .ok row ∧ insertRow row database = some next := by
  unfold insertHost at taken
  split at taken
  · cases taken
  next row made =>
    split at taken
    · cases taken
    next database inserted =>
      obtain rfl := Except.ok.inj taken
      exact ⟨row, made, inserted⟩

/-- A row that goes in is new and comes last. -/
theorem fresh_of_insertRow {database next : Database} {rows : List HostRow} {row : HostRow}
    (stored : database.hosts = some rows) (inserted : insertRow row database = some next) :
    hasId rows row.id = false ∧ next = { database with hosts := some (rows ++ [row]) } := by
  rw [insertRow, stored] at inserted
  dsimp only at inserted
  by_cases admitted : (row.admissible && ! hasId rows row.id) = true
  · rw [if_pos admitted] at inserted
    rw [Bool.and_eq_true, Bool.not_eq_true'] at admitted
    exact ⟨admitted.2, (Option.some.inj inserted).symm⟩
  · rw [if_neg admitted] at inserted
    cases inserted

/-- The rows that a query selects are those of the hosts that are selected. -/
theorem filter_rows {rows : List HostRow} {hosts : List Host} (same : rows.Perm (hosts.map written))
    {wanted : HostRow → Bool} {kept : Host → Bool}
    (agree : ∀ host ∈ hosts, wanted (written host) = kept host) :
    (rows.filter wanted).Perm ((hosts.filter kept).map written) := by
  have selected : (hosts.map written).filter wanted = (hosts.filter kept).map written := by
    rw [List.filter_map]
    exact congrArg _ (List.filter_congr agree)
  exact selected ▸ same.filter wanted

/-- A page has the rows of the first hosts of an account above the cursor. -/
theorem loadPage_written {database : Database} {rows : List HostRow} (stored : database.hosts = some rows)
    {hosts : List Host} (ascending : Ascending hosts) (same : rows.Perm (hosts.map written))
    (account : String) (after : Option HostId) {limit : Nat} (bounded : limit ≤ greatestLimit) :
    database.loadPage account after limit = decodeAll ((((hosts.filter fun host => host.account = account).filter
      (Inventory.above after)).take limit).map written) := by
  have sorted : (rows.filter (pageable account after)).mergeSort byId =
      ((hosts.filter fun host => host.account = account).filter (Inventory.above after)).map written := by
    rw [List.filter_filter]
    exact mergeSort_byId (Ascending.filter ascending _)
      (filter_rows same fun host _ => pageable_written account after host)
  rw [List.map_take, ← sorted, loadPage, if_neg (Nat.not_lt.2 bounded), Database.rows, stored]
  rfl

namespace Represents

variable {database : Database} {inventory : Inventory}

/-- Stored hosts are decoded from their rows. -/
theorem decodeAll_eq (represents : Represents database inventory) {hosts : List Host}
    (stored : ∀ host ∈ hosts, host ∈ inventory.hosts) :
    decodeAll (hosts.map written) = .ok (hosts.map Host.inUtc) :=
  decodeAll_written fun host among => represents.restorable host (stored host among)

theorem accountNames_eq (represents : Represents database inventory) :
    database.accountNames = .ok inventory.accounts := by
  obtain ⟨rows, stored, same⟩ := represents.rows
  have accounts : ∀ account, account ∈ rows.map HostRow.account ↔
      account ∈ inventory.hosts.map Host.account := by
    intro account
    have owned := (same.map HostRow.account).mem_iff (a := account)
    rwa [List.map_map] at owned
  simp only [accountNames, Database.rows, stored, Except.map]
  exact congrArg Except.ok (ascendingDistinct_congr accounts)

/-- A page has the hosts that the inventory's page has. -/
theorem loadPage_eq (represents : Represents database inventory) (account : String)
    (after : Option HostId) {limit : Nat} (bounded : limit ≤ greatestLimit) :
    database.loadPage account after limit = .ok ((inventory.page account after limit).map Host.inUtc) := by
  obtain ⟨rows, stored, same⟩ := represents.rows
  rw [loadPage_written stored inventory.ascending same account after bounded]
  refine represents.decodeAll_eq fun host among => ?_
  exact List.mem_of_mem_filter (List.mem_of_mem_filter (List.mem_of_mem_take among))

/-- The condition of the filter of some facts selects the rows of the hosts it accepts. -/
theorem selects_eq (represents : Represents database inventory) {selected : FactTable}
    {filter : FactFilter} (made : FactFilter.ofFacts selected = some filter) {clause : Query.Clause}
    (compiled : Query.compile filter = .ok clause) {host : Host} (stored : host ∈ inventory.hosts) :
    clause.selects (written host).stored = filter.accepts host.facts := by
  have seen : membersOf (written host).stored = host.facts := by
    rw [stored_written (represents.restorable host stored)]
    rfl
  rw [Bool.eq_iff_iff, ← seen]
  exact ⟨Query.accepts_of_selects compiled,
    Query.selects_of_accepts compiled (FactFilter.grounded_ofFacts made _)⟩

/-- Candidates that can be asked for are the hosts that the inventory's are, in the same order. -/
theorem loadCandidates_eq (represents : Represents database inventory) (account : String)
    {selected : FactTable} {filter : FactFilter} (made : FactFilter.ofFacts selected = some filter)
    (plain : ∀ key ∈ selected.keys, Query.Condition.plainKey key = true) (askable : Askable filter) :
    database.loadCandidates account filter =
      .ok ((inventory.candidates account filter).map Host.inUtc) := by
  obtain ⟨rows, stored, same⟩ := represents.rows
  obtain ⟨clause, compiled⟩ := Query.exists_compile (FactFilter.plain_ofFacts made plain)
  have agree : ∀ host ∈ inventory.hosts,
      ((written host).account = account && clause.selects (written host).stored) =
        (filter.accepts host.facts && host.account = account) := by
    intro host present
    rw [represents.selects_eq made compiled present]
    exact Bool.and_comm _ _
  have sorted : (rows.filter fun row => row.account = account && clause.selects row.stored).mergeSort
      byModification = (inventory.candidates account filter).map written := by
    rw [Inventory.candidates, Inventory.hostsOf, List.filter_filter]
    exact mergeSort_byModification (inventory.distinctIds.sublist List.filter_sublist)
      (filter_rows same agree)
  have prepared := prepare_eq_ok_iff.2 (askable clause compiled)
  simp only [loadCandidates, compiled, prepared, Database.rows, stored, sorted]
  refine represents.decodeAll_eq fun host among => ?_
  exact List.mem_of_mem_filter (List.mem_of_mem_filter (mem_inSurvivorOrder.1 among))

theorem policyOf_eq (represents : Represents database inventory) (account : String) :
    (database.policyOf account).map (Option.map StoredPolicy.policy) =
      .ok (inventory.policies.get? account) := by
  obtain ⟨table, stored, same⟩ := represents.policies
  simp only [policyOf, policyTable, stored, Except.map]
  exact congrArg Except.ok (same account)

/-- A row of an identifier is there when its host is. -/
theorem hasId_eq {rows : List HostRow} (same : rows.Perm (inventory.hosts.map written)) (id : HostId) :
    hasId rows id.text = inventory.contains id := by
  rw [Bool.eq_iff_iff, hasId, Inventory.contains, List.any_eq_true, List.any_eq_true]
  constructor
  · rintro ⟨row, there, found⟩
    obtain ⟨host, stored, rfl⟩ := List.mem_map.1 (same.mem_iff.1 there)
    have text := of_decide_eq_true found
    rw [id_written, HostId.text_inj] at text
    exact ⟨host, stored, decide_eq_true text⟩
  · rintro ⟨host, stored, found⟩
    refine ⟨written host, same.mem_iff.2 (List.mem_map_of_mem stored), decide_eq_true ?_⟩
    rw [id_written, of_decide_eq_true found]

/-! ### Changes -/

/-- Removing a host comes to the same. -/
theorem removeHost_eq (represents : Represents database inventory) (id : HostId) :
    ∃ next, database.removeHost id = .ok (if inventory.contains id then .deleted else .notFound, next) ∧
      Represents next (if inventory.contains id then inventory.erase id else inventory) := by
  obtain ⟨rows, stored, same⟩ := represents.rows
  have present := hasId_eq same id
  simp only [removeHost, Database.rows, stored, present]
  cases inventory.contains id with
  | false => exact ⟨database, rfl, represents⟩
  | true =>
      refine ⟨_, rfl, ⟨_, rfl, ?_⟩, ?_, represents.policies⟩
      · refine filter_rows same fun host _ => ?_
        simp [HostId.text_inj]
      · exact fun host among => represents.restorable host (List.mem_of_mem_filter among)

/-- Storing a host comes to the same. -/
theorem insertHost (represents : Represents database inventory) {host : Host} {next : Database}
    (recordable : Json.Recordable Json.Dialect.records.depth (.object host.facts))
    (taken : database.insertHost host = .ok next) : Represents next (inventory.insert host) := by
  obtain ⟨rows, stored, same⟩ := represents.rows
  obtain ⟨row, made, inserted⟩ := insertRow_of_insertHost taken
  obtain ⟨rfl, stale⟩ := ofHost_eq_ok made
  obtain ⟨fresh, rfl⟩ := fresh_of_insertRow stored inserted
  rw [id_written, hasId_eq same] at fresh
  have new : ∀ other ∈ inventory.hosts, other.id ≠ host.id := by
    intro other there equal
    have contained := Inventory.contains_of_mem there
    rw [equal, fresh] at contained
    cases contained
  have placed := Inventory.insertHost_perm new
  refine ⟨⟨_, rfl, ?_⟩, ?_, represents.policies⟩
  · refine (List.perm_append_comm.trans ?_).trans (placed.map written).symm
    exact same.cons (written host)
  · intro other there
    rcases List.mem_cons.1 (placed.mem_iff.1 there) with rfl | earlier
    · exact ⟨recordable, stale⟩
    · exact represents.restorable other earlier

/-- Storing a policy comes to the same. -/
theorem setPolicy (represents : Represents database inventory) {account : String}
    {policy : Lifecycle.Policy} (named : Text.blank account = false) (valid : policy.validate = .ok ())
    (updatedAt : String) :
    ∃ next, database.setPolicy account policy updatedAt = .ok next ∧
      Represents next (inventory.setPolicy account policy) := by
  obtain ⟨table, stored, same⟩ := represents.policies
  refine ⟨{ database with policies := some (table.insert account ⟨policy, updatedAt⟩) }, ?_,
    represents.rows, represents.restorable, _, rfl, fun other => ?_⟩
  · exact setPolicy_eq_ok_iff.2 ⟨named, Lifecycle.Policy.validate_eq_ok_iff.1 valid, table, stored, rfl⟩
  · simp only [Inventory.setPolicy, Table.get?_insert]
    split
    · rfl
    · exact same other

end Represents

/-- A migrated database without hosts holds the inventory without hosts. -/
theorem represents_empty : Represents empty.migrate.2 Inventory.empty where
  rows := ⟨[], rfl, List.Perm.refl _⟩
  restorable := by simp [Inventory.empty]
  policies := ⟨∅, rfl, fun _ => rfl⟩

end Database

end HostPruning
