import HostPruning.Proofs.Performing
import HostPruning.Proofs.Recording
import HostPruning.Proofs.Records
import HostPruning.Proofs.Representation

/-!
# The database refines the inventory

Started empty and asked the same, a database and an inventory in memory answer the same; so a
run over the one does what a run over the other does. `Represents` is the invariant: one
operation keeps it and gets the same answer (`answer_represented`), a sequence of operations by
induction (`answers_represented`), and a run because the two stores mirror each other
(`mirror_represented`). Hosts come out of the database with their modification times in
UTC, which is all there is to tell the answers apart.

The inventory has no limits and the database has three: facts may nest deeper than it reads back, and a
filter may be too deep or have too many values. `Operation.Within` keeps to them, and without it the
answers differ (`answers_differ_beyond_limits`).
-/

namespace HostPruning

open Pruning Database

/-! ### Operations -/

/-- What a store of hosts can be asked. -/
inductive Operation where
  | insert (host : Host)
  | delete (id : HostId)
  | setPolicy (account : String) (policy : Lifecycle.Policy) (updatedAt : String)
  | accounts
  | page (account : String) (after : Option HostId) (limit : Nat)
  | candidates (account : String) (filter : FactFilter)
  | policy (account : String)

/-- What a store of hosts answers. -/
inductive Answer where
  | done
  | removal (removal : Removal)
  | accounts (names : List String)
  | hosts (hosts : List Host)
  | policy (stored : Option Lifecycle.Policy)

/-- An answer whose hosts are shown in another light. -/
def Answer.through (seen : Host → Host) : Answer → Answer
  | hosts found => hosts (found.map seen)
  | other => other

/-- A host store that can be filled. -/
structure Stock (State : Type) where
  store : HostStore State
  insert : Host → Call State Unit
  setPolicy : (account : String) → Lifecycle.Policy → (updatedAt : String) → Call State Unit

/-- Put an answer of a call into words. -/
def Call.told {State Result : Type} (tell : Result → Answer) (call : Call State Result) :
    Call State Answer := fun state =>
  ((call state).1.map tell, (call state).2)

namespace Stock

variable {State : Type}

/-- Carry out an operation. -/
def answer (stock : Stock State) : Operation → Call State Answer
  | .insert host => (stock.insert host).told fun _ => .done
  | .delete id => (stock.store.delete id).told .removal
  | .setPolicy account offsets updatedAt => (stock.setPolicy account offsets updatedAt).told fun _ => .done
  | .accounts => stock.store.accounts.told .accounts
  | .page account after limit => (stock.store.page account after limit).told .hosts
  | .candidates account filter => (stock.store.candidates account filter).told .hosts
  | .policy account => (stock.store.policy account).told .policy

/-- Carry out operations one after the other, whatever comes of them. -/
def answers (stock : Stock State) : List Operation → State → List (Except Failure Answer) × State
  | [], state => ([], state)
  | operation :: rest, state =>
      let (answer, next) := stock.answer operation state
      let (others, last) := stock.answers rest next
      (answer :: others, last)

end Stock

/-- The inventory in memory, which takes every host and every policy. -/
def Inventory.stock : Stock Inventory where
  store := Inventory.store
  insert host inventory := (.ok (), inventory.insert host)
  setPolicy account policy _ inventory := (.ok (), inventory.setPolicy account policy)

/-- A change of the database, which a fault leaves undone. -/
def Database.change (change : Database → Except DatabaseFault Database) : Call Database Unit :=
  fun database =>
    match change database with
    | .ok next => (.ok (), next)
    | .error fault => (.error (.storage (.database fault)), database)

/-- The database, which refuses hosts and policies that it cannot keep. -/
def Database.stock : Stock Database where
  store := Database.store
  insert host := change (Database.insertHost host)
  setPolicy account policy updatedAt := change (Database.setPolicy account policy updatedAt)

/-- The operations that stores of hosts are used for: hosts that the database takes, valid policies for
accounts with a name, pages of a size that a query can ask for, filters of facts with plain keys. -/
def Operation.Proper (database : Database) : Operation → Prop
  | .insert host => (database.insertHost host).isOk = true
  | .setPolicy account offsets _ => Text.blank account = false ∧ offsets.validate = .ok ()
  | .page _ _ limit => limit ≤ greatestLimit
  | .candidates _ filter => ∃ selected : FactTable, FactFilter.ofFacts selected = some filter ∧
      ∀ key ∈ selected.keys, Query.Condition.plainKey key = true
  | .delete _ => True
  | .accounts => True
  | .policy _ => True

/-- The operations within the limits of the database: facts that a record can hold, so that they are read
back, and filters that a query can be prepared for. -/
def Operation.Within : Operation → Prop
  | .insert host => Json.Recordable Json.Dialect.records.depth (.object host.facts)
  | .candidates _ filter => Askable filter
  | .delete _ => True
  | .setPolicy _ _ _ => True
  | .accounts => True
  | .page _ _ _ => True
  | .policy _ => True

/-- The operations on which the stores are compared. -/
def Operation.Admitted (database : Database) (operation : Operation) : Prop :=
  operation.Proper database ∧ operation.Within

theorem Operation.Admitted.insert {database : Database} {host : Host}
    (taken : (database.insertHost host).isOk = true)
    (recordable : Json.Recordable Json.Dialect.records.depth (.object host.facts)) :
    (Operation.insert host).Admitted database :=
  ⟨taken, recordable⟩

/-- Every host that comes in as a line of text may be inserted, if the database takes it and its
floats are read back. -/
theorem admitted_of_ofText {database : Database} {text : String} {host : Host}
    (read : Host.ofText text = some host) (taken : (database.insertHost host).isOk = true)
    (floats : ∀ float, Json.Inside float (.object host.facts) → (Json.Number.real float).ReadsBack) :
    (Operation.insert host).Admitted database :=
  .insert taken (Host.recordable_ofText read floats)

/-- Whether every operation of a sequence is allowed when it comes. -/
def AllAllowed (allowed : Database → Operation → Prop) : List Operation → Database → Prop
  | [], _ => True
  | operation :: rest, database =>
      allowed database operation ∧ AllAllowed allowed rest (Database.stock.answer operation database).2

/-! ### Calls -/

section Calls

variable {State Other World Result Translated : Type} {alike : State → Other → Prop}
  {translate : Result → Translated} {call : Call State Result} {other : Call Other Translated}

/-- Calls that answer the same are told the same. -/
theorem Call.Alike.told {seen : Host → Host} {tell : Result → Answer} {tellOther : Translated → Answer}
    (same : Call.Alike alike translate call other)
    (tells : ∀ result, tellOther (translate result) = (tell result).through seen) :
    Call.Alike alike (Answer.through seen) (call.told tell) (other.told tellOther) := by
  intro state otherState worlds
  obtain ⟨answers, onward⟩ := same worlds
  refine ⟨?_, onward⟩
  simp only [Call.told, answers]
  cases (call state).1 with
  | error failure => rfl
  | ok result => exact congrArg Except.ok (tells result)

/-- Calls that keep a property of one of the states. -/
theorem Call.Alike.keeping {kept : State → Prop} (same : Call.Alike alike translate call other)
    (keeps : ∀ {state}, kept state → kept (call state).2) :
    Call.Alike (fun state otherState => alike state otherState ∧ kept state) translate call other := by
  rintro state otherState ⟨states, held⟩
  obtain ⟨answers, onward⟩ := same states
  exact ⟨answers, onward, keeps held⟩

/-- States that are alike, each beside the same world. -/
def Beside (alike : State → Other → Prop) (whole : State × World) (other : Other × World) : Prop :=
  alike whole.1 other.1 ∧ other.2 = whole.2

theorem Call.Alike.onFirst (same : Call.Alike alike translate call other) :
    Call.Alike (Beside alike) translate
      (call.onPart Prod.fst fun state (whole : State × World) => (state, whole.2))
      (other.onPart Prod.fst fun state (whole : Other × World) => (state, whole.2)) := by
  rintro ⟨state, world⟩ ⟨otherState, otherWorld⟩ ⟨states, rfl⟩
  obtain ⟨answers, onward⟩ := same states
  exact ⟨answers, onward, rfl⟩

theorem Call.Alike.onSecond (call : Call World Result) :
    Call.Alike (Beside alike) id
      (call.onPart Prod.snd fun world (whole : State × World) => (whole.1, world))
      (call.onPart Prod.snd fun world (whole : Other × World) => (whole.1, world)) := by
  rintro ⟨state, world⟩ ⟨otherState, otherWorld⟩ ⟨states, rfl⟩
  refine ⟨?_, states, rfl⟩
  dsimp only [Call.onPart]
  cases (call otherWorld).1 <;> rfl

end Calls

/-- Whether an inventory's content is held by a database. -/
def HeldBy (inventory : Inventory) (database : Database) : Prop := Represents database inventory

/-- Whether the candidates of every host can be asked for by the host's own filter. -/
def Inventory.Modest (inventory : Inventory) : Prop :=
  ∀ host ∈ inventory.hosts, host.valueCount < greatestParameterCount

instance (inventory : Inventory) : Decidable inventory.Modest :=
  inferInstanceAs (Decidable (∀ host ∈ inventory.hosts, host.valueCount < greatestParameterCount))

/-- Whether an inventory of modest hosts is held by a database. -/
def HeldModestly (inventory : Inventory) (database : Database) : Prop :=
  HeldBy inventory database ∧ inventory.Modest

theorem query_eq {Result : Type} {ask : Database → Except DatabaseFault Result} {database : Database}
    {result : Result} (answered : ask database = .ok result) : query ask database = (.ok result, database) := by
  rw [query, answered]

theorem accounts_alike : Call.Alike HeldBy id Inventory.store.accounts Database.store.accounts := by
  intro inventory database represents
  have answered : Database.store.accounts database = (.ok inventory.accounts, database) :=
    query_eq (Represents.accountNames_eq represents)
  rw [answered]
  exact ⟨rfl, represents⟩

theorem Represents.notePage {database : Database} {inventory : Inventory}
    (represents : Represents database inventory) (size : Nat) :
    Represents database (inventory.notePage size) :=
  ⟨represents.rows, represents.restorable, represents.policies⟩

theorem page_alike (account : String) (after : Option HostId) {limit : Nat} (bounded : limit ≤ greatestLimit) :
    Call.Alike HeldBy (List.map Host.inUtc) (Inventory.store.page account after limit)
      (Database.store.page account after limit) := by
  intro inventory database represents
  have answered : Database.store.page account after limit database =
      (.ok ((inventory.page account after limit).map Host.inUtc), database) :=
    query_eq (Represents.loadPage_eq represents account after bounded)
  rw [answered]
  exact ⟨rfl, Represents.notePage represents _⟩

theorem candidates_alike (account : String) {selected : FactTable} {filter : FactFilter}
    (made : FactFilter.ofFacts selected = some filter)
    (plain : ∀ key ∈ selected.keys, Query.Condition.plainKey key = true) (askable : Askable filter) :
    Call.Alike HeldBy (List.map Host.inUtc) (Inventory.store.candidates account filter)
      (Database.store.candidates account filter) := by
  intro inventory database represents
  have answered : Database.store.candidates account filter database =
      (.ok ((inventory.candidates account filter).map Host.inUtc), database) :=
    query_eq (Represents.loadCandidates_eq represents account made plain askable)
  rw [answered]
  exact ⟨rfl, represents⟩

theorem delete_alike (id : HostId) :
    Call.Alike HeldBy (fun removal => removal) (Inventory.store.delete id) (Database.store.delete id) := by
  intro inventory database represents
  obtain ⟨next, removed, kept⟩ := Represents.removeHost_eq represents id
  have answered : Database.store.delete id database =
      (.ok (if inventory.contains id then .deleted else .notFound), next) := by
    simp only [Database.store, removed]
  rw [answered]
  cases there : inventory.contains id with
  | true =>
      rw [there] at kept
      simp only [Inventory.store, there]
      exact ⟨rfl, kept⟩
  | false =>
      rw [there] at kept
      simp only [Inventory.store, there]
      exact ⟨rfl, kept⟩

theorem policy_alike (account : String) :
    Call.Alike HeldBy id (Inventory.store.policy account) (Database.store.policy account) := by
  intro inventory database represents
  have stored := Represents.policyOf_eq represents account
  have answered : Database.store.policy account database =
      (.ok (inventory.policies.get? account), database) := by
    simp only [Database.store, query]
    rw [stored]
  rw [answered]
  exact ⟨rfl, represents⟩

theorem change_eq {alter : Database → Except DatabaseFault Database} {database next : Database}
    (altered : alter database = .ok next) : change alter database = (.ok (), next) := by
  rw [change, altered]

/-! ### Answers -/

/-- One operation gets the same answer and leaves the same behind. -/
theorem answer_represented {database : Database} {inventory : Inventory}
    (represents : Represents database inventory) {operation : Operation}
    (admitted : operation.Admitted database) :
    (Database.stock.answer operation database).1 =
        (Inventory.stock.answer operation inventory).1.map (Answer.through Host.inUtc) ∧
      Represents (Database.stock.answer operation database).2
        (Inventory.stock.answer operation inventory).2 := by
  cases operation with
  | insert host =>
      obtain ⟨taken, recordable⟩ := admitted
      change (database.insertHost host).isOk = true at taken
      cases inserted : database.insertHost host with
      | error fault => rw [inserted] at taken; cases taken
      | ok next =>
          have answered : Database.stock.insert host database = (.ok (), next) := change_eq inserted
          simp only [Stock.answer, Call.told, answered]
          exact ⟨rfl, represents.insertHost recordable inserted⟩
  | delete id =>
      have unseen : ∀ removal, Answer.removal removal = (Answer.removal removal).through Host.inUtc :=
        fun _ => rfl
      exact Call.Alike.told (@delete_alike id) unseen represents
  | setPolicy account offsets updatedAt =>
      obtain ⟨⟨named, valid⟩, -⟩ := admitted
      obtain ⟨next, stored, kept⟩ := represents.setPolicy named valid updatedAt
      have answered : Database.stock.setPolicy account offsets updatedAt database = (.ok (), next) :=
        change_eq stored
      simp only [Stock.answer, Call.told, answered]
      exact ⟨rfl, kept⟩
  | accounts => exact Call.Alike.told @accounts_alike (fun _ => rfl) represents
  | page account after limit =>
      have bounded : limit ≤ greatestLimit := admitted.1
      exact Call.Alike.told (@page_alike account after limit bounded) (fun _ => rfl) represents
  | candidates account filter =>
      obtain ⟨⟨selected, made, plain⟩, askable⟩ := admitted
      exact Call.Alike.told (@candidates_alike account selected filter made plain askable) (fun _ => rfl)
        represents
  | policy account => exact Call.Alike.told (@policy_alike account) (fun _ => rfl) represents

/-- A sequence of operations gets the same answers and leaves the same behind. -/
theorem answers_represented {operations : List Operation} {database : Database} {inventory : Inventory}
    (represents : Represents database inventory) (admitted : AllAllowed Operation.Admitted operations database) :
    (Database.stock.answers operations database).1 =
        (Inventory.stock.answers operations inventory).1.map (Except.map (Answer.through Host.inUtc)) ∧
      Represents (Database.stock.answers operations database).2
        (Inventory.stock.answers operations inventory).2 := by
  induction operations generalizing database inventory with
  | nil => exact ⟨rfl, represents⟩
  | cons operation rest inductionHypothesis =>
      obtain ⟨answered, kept⟩ := answer_represented represents admitted.1
      obtain ⟨others, left⟩ := inductionHypothesis kept admitted.2
      refine ⟨?_, left⟩
      simp only [Stock.answers, List.map_cons, answered, others]

/-! ### Pruning -/

namespace Pruning

variable {World : Type}

/-- Surroundings of a store and of all that a run meets outside it, each with a state of its own. -/
def Outside.around {State : Type} (outside : Outside World) (store : HostStore State) :
    Surroundings (State × World) where
  store := store.onPart Prod.fst fun state whole => (state, whole.2)
  emitter :=
    { emit := fun key event =>
        (outside.emitter.emit key event).onPart Prod.snd fun world whole => (whole.1, world)
      flush := outside.emitter.flush.onPart Prod.snd fun world whole => (whole.1, world) }
  stopRequested whole := (outside.stopRequested whole.2).map id fun world => (whole.1, world)
  eventTime whole := outside.eventTime whole.2

/-- The filters that runs ask candidates by have plain keys. -/
theorem plainKey_of_known {key : String} (known : key ∈ Facts.knownKeys) :
    Query.Condition.plainKey key = true := by
  have plain : ∀ key ∈ Facts.knownKeys, Query.Condition.plainKey key = true := by decide +kernel
  exact plain key known

/-- Calls after which no other hosts are stored than before keep an inventory of modest hosts. -/
theorem alike_modestly {Result Translated : Type} {translate : Result → Translated}
    {call : Call Inventory Result} {other : Call Database Translated}
    (same : Call.Alike HeldBy translate call other)
    (kept : ∀ inventory, (call inventory).2.hosts ⊆ inventory.hosts) :
    Call.Alike (Beside HeldModestly) translate
      (call.onPart Prod.fst fun inventory (whole : Inventory × World) => (inventory, whole.2))
      (other.onPart Prod.fst fun database (whole : Database × World) => (database, whole.2)) := by
  refine Call.Alike.onFirst (Call.Alike.keeping same ?_)
  intro inventory modest host among
  exact modest host (kept inventory among)

/-- To a run, a database is as good as the inventory of modest hosts that it holds. -/
theorem mirror_represented (outside : Outside World) {plan : Plan}
    (bounded : plan.options.chunkSize ≤ greatestLimit) :
    Mirror plan (outside.around Inventory.store) (outside.around Database.store) (Beside HeldModestly)
      Host.inUtc fun host => host.valueCount < greatestParameterCount where
  faithful := Host.faithful_inUtc
  accounts := alike_modestly @accounts_alike fun _ => List.Subset.refl _
  pages account after := alike_modestly (@page_alike account after _ bounded) fun _ => List.Subset.refl _
  paged := by
    rintro account after ⟨inventory, world⟩ ⟨database, otherWorld⟩ found ⟨⟨-, modest⟩, -⟩ answered host among
    obtain rfl : inventory.page account after plan.options.chunkSize = found := Except.ok.inj answered
    exact modest host (Inventory.mem_hostsOf.1 (List.mem_filter.1 (List.mem_of_mem_take among)).1).1
  candidates account _ _ _ few made := by
    obtain ⟨selected, identified, ofSelected⟩ := FactFilter.exists_identified made
    have plain : ∀ key ∈ selected.keys, Query.Condition.plainKey key = true := by
      intro key present
      obtain ⟨entry, among, rfl⟩ := List.mem_map.1 present
      exact plainKey_of_known (identified.readFrom among).known
    have askable := Host.askable_of_valueCount few made
    intro world otherWorld
    exact alike_modestly (@candidates_alike account selected _ ofSelected plain askable)
      fun _ => List.Subset.refl _
  deletes id := alike_modestly (@delete_alike id) fun inventory => by
    simp only [Inventory.store]
    split
    next => exact List.filter_subset_self _
    next => exact List.Subset.refl _
  policies account := alike_modestly (@policy_alike account) fun _ => List.Subset.refl _
  emits key event := Call.Alike.onSecond (outside.emitter.emit key event)
  flushes := Call.Alike.onSecond outside.emitter.flush
  stops := by
    rintro ⟨inventory, world⟩ ⟨database, otherWorld⟩ ⟨held, rfl⟩
    exact ⟨rfl, held, rfl⟩
  times := by
    rintro ⟨inventory, world⟩ ⟨database, otherWorld⟩ ⟨held, rfl⟩
    rfl

/-- What pruning over an inventory and over a database comes to, when it comes to the same: the
summary or the failure, what is left outside, the emitter with its events among it, and stores of
which one still holds the other's content. -/
structure SameOutcome (result : Except Failure Summary × (Inventory × World))
    (other : Except Failure Summary × (Database × World)) : Prop where
  summary : other.1 = result.1
  outside : other.2.2 = result.2.2
  stores : Represents other.2.1 result.2.1

theorem sameOutcome_of_alike {call : Call (Inventory × World) Summary}
    {other : Call (Database × World) Summary}
    (same : Call.Alike (Beside HeldModestly) (fun summary => summary) call other) {inventory : Inventory}
    {database : Database} (held : HeldModestly inventory database) (world : World) :
    SameOutcome (call (inventory, world)) (other (database, world)) := by
  have begun : Beside HeldModestly (inventory, world) (database, world) := ⟨held, rfl⟩
  obtain ⟨answers, ⟨stores, -⟩, outside⟩ := same begun
  refine ⟨?_, outside, stores⟩
  rw [answers]
  cases (call (inventory, world)).1 <;> rfl

/-- Whether pruning a database is pruning an inventory, both for all accounts and for any one. -/
structure SamePruning (outside : Outside World) (plan : Plan) (inventory : Inventory)
    (database : Database) (world : World) : Prop where
  run : SameOutcome (run (outside.around Inventory.store) plan (inventory, world))
    (run (outside.around Database.store) plan (database, world))
  removals : (performed (outside.around Database.store) plan (database, world)).2.removals =
    (performed (outside.around Inventory.store) plan (inventory, world)).2.removals.map
      (Decision.through Host.inUtc)
  account : ∀ account, SameOutcome
    (runAccount (outside.around Inventory.store) plan account (inventory, world))
    (runAccount (outside.around Database.store) plan account (database, world))
  accountOnly : ∀ account, SameOutcome
    (resolveAccount (outside.around Inventory.store) plan account (inventory, world))
    (resolveAccount (outside.around Database.store) plan account (database, world))
  accountRemovals : ∀ account,
    (passAccount (outside.around Database.store) plan account (database, world)).2.removals =
      (passAccount (outside.around Inventory.store) plan account (inventory, world)).2.removals.map
        (Decision.through Host.inUtc)

/-- Pruning a database that holds an inventory of modest hosts is pruning the inventory. -/
theorem samePruning_represented (outside : Outside World) {plan : Plan}
    (bounded : plan.options.chunkSize ≤ greatestLimit) {inventory : Inventory} {database : Database}
    (represents : Represents database inventory) (modest : inventory.Modest) (world : World) :
    SamePruning outside plan inventory database world := by
  have mirror := mirror_represented outside bounded
  have held : HeldModestly inventory database := ⟨represents, modest⟩
  have begun : Beside HeldModestly (inventory, world) (database, world) := ⟨held, rfl⟩
  constructor
  · exact sameOutcome_of_alike (run_alike mirror) held world
  · exact (performed_alike mirror begun).2.removals
  · intro account
    exact sameOutcome_of_alike (runAccount_alike mirror account) held world
  · intro account
    exact sameOutcome_of_alike (resolveAccount_alike mirror account) held world
  · intro account
    exact (passAccount_alike mirror account begun).pass.removals

end Pruning

/-- Started empty and asked the same within the limits of the database, a database and an inventory answer
the same, hosts with their modification times as instants; and to prune the one then is to prune the other,
where the stored hosts have filters within these limits too. -/
theorem database_refines_inventory {operations : List Operation}
    (admitted : AllAllowed Operation.Admitted operations empty.migrate.2) :
    (Database.stock.answers operations empty.migrate.2).1 =
        (Inventory.stock.answers operations Inventory.empty).1.map
          (Except.map (Answer.through Host.inUtc)) ∧
      ((Inventory.stock.answers operations Inventory.empty).2.Modest →
        ∀ {World : Type} (outside : Pruning.Outside World) (plan : Pruning.Plan) (world : World),
          plan.options.chunkSize ≤ greatestLimit →
            Pruning.SamePruning outside plan
              (Inventory.stock.answers operations Inventory.empty).2
              (Database.stock.answers operations empty.migrate.2).2 world) := by
  obtain ⟨answered, left⟩ := answers_represented represents_empty admitted
  refine ⟨answered, ?_⟩
  intro modest World outside plan world bounded
  exact Pruning.samePruning_represented outside bounded left modest world

open Rehearsal Pruning in
/-- Two hosts of one name, one of them written at another offset, with a float among their facts; a
policy, queries, the removal of a third host, and a run that removes one of the two. -/
theorem same_names_refine :
    let facts : Json := .object [("fqdn", .string "node"), ("load", .number (.real ⟨false, 2 ^ 52, -53⟩))]
    let first := Inventory.exampleHost ⟨1, by decide⟩ "acct-1" facts 0
    let second := { Inventory.exampleHost ⟨2, by decide⟩ "acct-1" facts 1 with
      modifiedOn := ⟨1767232801000000000, 7200⟩ }
    let third := Inventory.exampleHost ⟨3, by decide⟩ "acct-2" (.object []) 2
    let selected : FactTable := Table.empty.insert "fqdn" (.single "node")
    let operations := [.insert first, .insert second, .insert third,
      .setPolicy "acct-1" .standard "2026-01-01T00:00:00Z", .accounts, .page "acct-1" none 10,
      .candidates "acct-1" ((FactFilter.ofFacts selected).getD (.anyOf [])), .policy "acct-1",
      .delete third.id]
    let outside := recording (fun _ _ => false) fun _ _ => .ofUnixSeconds 0
    let audience : Audience Recorder := ⟨.start [] none, 0⟩
    let inventory := (Inventory.stock.answers operations Inventory.empty).2
    AllAllowed Operation.Admitted operations empty.migrate.2 ∧ inventory.Modest ∧
      (performed (outside.around Inventory.store) (calmPlan 1) (inventory, audience)).2.removals.length = 1 ∧
      SamePruning outside (calmPlan 1) inventory
        (Database.stock.answers operations empty.migrate.2).2 audience := by
  intro facts first second third selected operations outside audience inventory
  have recordable : Json.Recordable Json.Dialect.records.depth facts := by
    refine .object (by decide) fun member among => ?_
    rcases List.mem_cons.1 among with rfl | later
    · exact .string "node"
    · obtain rfl := List.mem_singleton.1 later
      exact .real (by decide +kernel)
  have nothing : Json.Recordable Json.Dialect.records.depth (.object []) := .object (by decide) (by simp)
  have askable : Askable ((FactFilter.ofFacts selected).getD (.anyOf [])) := by
    intro clause compiled
    obtain rfl := Except.ok.inj compiled
    decide +kernel
  have admitted : AllAllowed Operation.Admitted operations empty.migrate.2 :=
    ⟨.insert (by decide +kernel) recordable, .insert (by decide +kernel) recordable,
      .insert (by decide +kernel) nothing, ⟨⟨by decide +kernel, by decide +kernel⟩, trivial⟩,
      ⟨trivial, trivial⟩, ⟨(by decide : 10 ≤ greatestLimit), trivial⟩,
      ⟨⟨selected, rfl, by decide +kernel⟩, askable⟩, ⟨trivial, trivial⟩, ⟨trivial, trivial⟩, trivial⟩
  have modest : inventory.Modest := by decide +kernel
  refine ⟨admitted, modest, by decide +kernel, ?_⟩
  exact (database_refines_inventory admitted).2 modest outside (calmPlan 1) audience (by decide)

/-! ### Beyond the limits -/

/-- A list in a list, and so on. -/
def nestedLists : Nat → Json
  | 0 => .array []
  | deeper + 1 => .array [nestedLists deeper]

/-- Texts of one letter, of two letters and so on. -/
def rungs (count : Nat) : List String :=
  (List.range count).map fun rung => String.ofList (List.replicate (rung + 1) 'a')

theorem replicate_lt {shorter longer : Nat} (before : shorter < longer) (char : Char) :
    List.replicate shorter char < List.replicate longer char := by
  induction shorter generalizing longer with
  | zero =>
      cases longer with
      | zero => cases before
      | succ longer => exact List.nil_lt_cons char _
  | succ shorter inductionHypothesis =>
      cases longer with
      | zero => cases before
      | succ longer =>
          have later := inductionHypothesis (Nat.lt_of_succ_lt_succ before)
          exact List.cons_lt_cons_iff.2 (Or.inr ⟨rfl, later⟩)

theorem rungs_ascending (count : Nat) : (rungs count).Pairwise fun earlier later => earlier < later := by
  refine List.pairwise_map.2 (List.pairwise_lt_range.imp fun before => ?_)
  rw [String.lt_iff_toList_lt, String.toList_ofList, String.toList_ofList]
  exact replicate_lt (Nat.succ_lt_succ before) 'a'

theorem plainKey_of_mem_rungs {count : Nat} {key : String} (among : key ∈ rungs count) :
    Query.Condition.plainKey key = true := by
  obtain ⟨rung, -, rfl⟩ := List.mem_map.1 among
  have plain : Query.Condition.plainChar 'a' = true := by decide
  simp [Query.Condition.plainKey, plain]

/-- Facts under as many keys as one likes. -/
def manyFacts (count : Nat) : FactTable where
  entries := (rungs count).map fun key => (key, .single "")
  ascending := List.pairwise_map.2 (rungs_ascending count)

/-- A fact with as many texts as one likes. -/
def longFact (count : Nat) : FactTable :=
  Table.empty.insert "ip_addresses" (.many ⟨rungs count, rungs_ascending count⟩)

theorem manyFacts_nonempty (others : Nat) : (manyFacts (others + 1)).isEmpty = false := by
  simp [Table.isEmpty, manyFacts, rungs, List.range_succ]

theorem plain_manyFacts (count : Nat) :
    ∀ key ∈ (manyFacts count).keys, Query.Condition.plainKey key = true := by
  intro key present
  obtain ⟨entry, among, rfl⟩ := List.mem_map.1 present
  obtain ⟨key, rung, rfl⟩ := List.mem_map.1 among
  exact plainKey_of_mem_rungs rung

theorem plain_longFact (count : Nat) :
    ∀ key ∈ (longFact count).keys, Query.Condition.plainKey key = true := by
  intro key present
  have only : key = "ip_addresses" := List.mem_singleton.1 present
  rw [only]
  decide +kernel

/-- The filter of facts that have one. -/
def filterOf (selected : FactTable) : FactFilter := (FactFilter.ofFacts selected).getD (.anyOf [])

theorem ofFacts_filterOf {selected : FactTable} (nonempty : selected.isEmpty = false) :
    FactFilter.ofFacts selected = some (filterOf selected) := by
  obtain ⟨filter, made⟩ := FactFilter.exists_ofFacts nonempty
  rw [filterOf, made, Option.getD_some]

/-- A thousand keys make a filter too deep. -/
theorem not_askable_manyFacts : ¬ Askable (filterOf (manyFacts 1000)) := by
  have made : FactFilter.ofFacts (manyFacts 1000) = some (filterOf (manyFacts 1000)) :=
    ofFacts_filterOf (manyFacts_nonempty 999)
  obtain ⟨clause, compiled⟩ := Query.exists_compile (FactFilter.plain_ofFacts made (plain_manyFacts 1000))
  intro askable
  have deep := FactFilter.lt_depth_ofFacts made compiled
  have size : (manyFacts 1000).size = 1000 := by simp [Table.size, manyFacts, rungs]
  rw [size] at deep
  have shallow : clause.condition.depth + _ < 1000 := (askable clause compiled).1
  omega

theorem holes_longFact {count : Nat} {filter : FactFilter} {clause : Query.Clause}
    (made : FactFilter.ofFacts (longFact count) = some filter) (compiled : Query.compile filter = .ok clause) :
    clause.condition.holes = 2 * count + 7 := by
  have entries : (longFact count).entries = [("ip_addresses", .many ⟨rungs count, rungs_ascending count⟩)] :=
    rfl
  rw [FactFilter.holes_ofFacts made compiled, entries]
  simp only [Query.containsCondition, Query.Condition.holes, Query.Condition.holesOf, rungs,
    List.length_map, List.length_range, List.map_cons, List.map_nil, List.sum_singleton]
  omega

/-- A list of so many texts asks for more values than a query takes. -/
theorem not_askable_longFact : ¬ Askable (filterOf (longFact 16380)) := by
  have made : FactFilter.ofFacts (longFact 16380) = some (filterOf (longFact 16380)) := ofFacts_filterOf rfl
  obtain ⟨clause, compiled⟩ := Query.exists_compile (FactFilter.plain_ofFacts made (plain_longFact 16380))
  intro askable
  have few := (askable clause compiled).2
  rw [holes_longFact made compiled] at few
  exact absurd few (by decide)

theorem isOk_answer_candidates (account : String) (filter : FactFilter) (database : Database) :
    (Database.stock.answer (.candidates account filter) database).1.isOk =
      (database.loadCandidates account filter).isOk := by
  simp only [Stock.answer, Call.told, stock, store, query]
  cases database.loadCandidates account filter <;> rfl

/-- Candidates that cannot be asked for are refused by a database without hosts, and an inventory without
hosts answers that there are none. -/
theorem candidates_differ {selected : FactTable} (nonempty : selected.isEmpty = false)
    (plain : ∀ key ∈ selected.keys, Query.Condition.plainKey key = true)
    (refused : ¬ Askable (filterOf selected)) :
    let asked := [Operation.candidates "acct-1" (filterOf selected)]
    AllAllowed Operation.Proper asked empty.migrate.2 ∧
      (Database.stock.answers asked empty.migrate.2).1.map Except.isOk = [false] ∧
      (Inventory.stock.answers asked Inventory.empty).1.map Except.isOk = [true] := by
  refine ⟨⟨⟨selected, ofFacts_filterOf nonempty, plain⟩, trivial⟩, ?_, rfl⟩
  have unanswered := loadCandidates_of_not_askable refused "acct-1" empty.migrate.2
  simp only [Stock.answers, List.map_cons, List.map_nil, isOk_answer_candidates, unanswered]

theorem isOk_answer_insert (host : Host) (database : Database) :
    (Database.stock.answer (.insert host) database).1.isOk = (database.insertHost host).isOk := by
  simp only [Stock.answer, Call.told, stock, change]
  cases database.insertHost host <;> rfl

/-- Beyond the limits of the database the answers differ. Facts that nest deeper than those of a record are
taken by either store, and only the inventory gives them back; candidates that share one of a thousand keys,
or one list of 16380 texts, can only be asked of the inventory. -/
theorem answers_differ_beyond_limits :
    let deep := Inventory.exampleHost ⟨1, by decide⟩ "acct-1" (.object [("nested", nestedLists 126)]) 0
    let filed := [Operation.insert deep, .page "acct-1" none 1]
    (AllAllowed Operation.Proper filed empty.migrate.2 ∧
      (Database.stock.answers filed empty.migrate.2).1.map Except.isOk = [true, false] ∧
      (Inventory.stock.answers filed Inventory.empty).1.map Except.isOk = [true, true]) ∧
    ∀ selected ∈ [manyFacts 1000, longFact 16380],
      let asked := [Operation.candidates "acct-1" (filterOf selected)]
      AllAllowed Operation.Proper asked empty.migrate.2 ∧
        (Database.stock.answers asked empty.migrate.2).1.map Except.isOk = [false] ∧
        (Inventory.stock.answers asked Inventory.empty).1.map Except.isOk = [true] := by
  intro deep filed
  -- The facts are written and read here once; that they are taken is the first of the answers.
  have answered : (Database.stock.answers filed empty.migrate.2).1.map Except.isOk = [true, false] := by
    decide +kernel
  have taken : (insertHost deep empty.migrate.2).isOk = true :=
    (isOk_answer_insert deep empty.migrate.2).symm.trans (List.cons.inj answered).1
  have page : 1 ≤ greatestLimit := by decide
  refine ⟨⟨⟨taken, page, trivial⟩, answered, rfl⟩, fun selected among => ?_⟩
  rcases List.mem_cons.1 among with rfl | last
  · exact candidates_differ (manyFacts_nonempty 999) (plain_manyFacts 1000) not_askable_manyFacts
  · obtain rfl := List.mem_singleton.1 last
    exact candidates_differ rfl (plain_longFact 16380) not_askable_longFact

end HostPruning
