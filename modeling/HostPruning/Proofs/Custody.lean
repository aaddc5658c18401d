import HostPruning.Rehearsal.Stage
import HostPruning.Proofs.Verdicts

/-!
# Surroundings in which only the run changes the inventory

A `Custody` is what a run meets when nobody else touches the store: behind each world
stands one inventory, every read leaves it alone and answers by it, a removal erases the
one host asked for, and neither emitter nor stop signal reaches it. Nothing more is asked.
Calls may fail, which changes nothing; accounts and candidates come in any order, and
candidates of other accounts may be among them; emitter, stop signal and clock do as they
like.

`Rehearsal.custody` shows that the inventory in memory is in custody under every script
that lets nobody else delete.
-/

namespace HostPruning

/-- A call that leaves the inventory alone and, when it answers, answers by it. -/
def Call.Reads {World Answer : Type} (call : Call World Answer) (held : World → Inventory)
    (truth : Inventory → Answer → Prop) : Prop :=
  ∀ world, held (call world).2 = held world ∧
    ∀ answer, (call world).1 = .ok answer → truth (held world) answer

/-- What the answer to a removal says about the inventory before and after it. -/
def Removal.Describes (id : HostId) (before after : Inventory) : Except Failure Removal → Prop
  | .ok .deleted => after = before.erase id
  | .ok .notFound => before.contains id = false ∧ after = before
  | .error _ => after = before

/-- The failures that the calls of a store answer with. -/
inductive HostStore.Fails {World : Type} (store : HostStore World) : Failure → Prop where
  | accounts {world : World} {failure : Failure}
      (answered : (store.accounts world).1 = .error failure) : Fails store failure
  | page {account : String} {after : Option HostId} {limit : Nat} {world : World}
      {failure : Failure} (answered : (store.page account after limit world).1 = .error failure) :
      Fails store failure
  | candidates {account : String} {filter : FactFilter} {world : World} {failure : Failure}
      (answered : (store.candidates account filter world).1 = .error failure) :
      Fails store failure
  | delete {id : HostId} {world : World} {failure : Failure}
      (answered : (store.delete id world).1 = .error failure) : Fails store failure
  | policy {account : String} {world : World} {failure : Failure}
      (answered : (store.policy account world).1 = .error failure) : Fails store failure

namespace Pruning

/-- Surroundings whose store answers for an inventory that only the run changes. -/
structure Custody (World : Type) extends Surroundings World where
  /-- The inventory behind a world. -/
  held : World → Inventory
  accounts_reads : store.accounts.Reads held fun inventory listed =>
    ∀ account, account ∈ listed ↔ account ∈ inventory.accounts
  page_reads : ∀ account after limit, (store.page account after limit).Reads held
    fun inventory page => page = inventory.page account after limit
  candidates_reads : ∀ account filter, (store.candidates account filter).Reads held
    fun inventory found =>
      (found.filter fun host => host.account = account).Perm (inventory.candidates account filter)
  policy_reads : ∀ account, (store.policy account).Reads held
    fun inventory policy => policy = inventory.policies.get? account
  delete_describes : ∀ id world,
    Removal.Describes id (held world) (held (store.delete id world).2) (store.delete id world).1
  emit_keeps : ∀ key event world, held (emitter.emit key event world).2 = held world
  flush_keeps : ∀ world, held (emitter.flush world).2 = held world
  stop_keeps : ∀ world, held (stopRequested world).2 = held world

end Pruning

namespace Rehearsal

open Pruning

/-- The inventory on a stage; the sizes of answered pages are no part of what is stored. -/
def Stage.inventory (stage : Stage Inventory) : Inventory := { stage.state with pageSizes := [] }

/-- A scripted call reads when the call it scripts does. -/
theorem scripted_reads {Answer : Type} (script : Script) (kind : CallKind)
    {call : Call Inventory Answer} {truth : Inventory → Answer → Prop}
    (reads : call.Reads (fun inventory => { inventory with pageSizes := [] }) truth) :
    (Stage.scripted script kind call).Reads Stage.inventory truth := by
  intro stage
  simp only [Stage.scripted]
  split
  · exact ⟨rfl, fun _ answered => by cases answered⟩
  · exact reads stage.state

/-- A rehearsal on an inventory in memory in which nobody else deletes a host. -/
def custody (script : Script) (eventTime : Moment)
    (alone : script.vanishing = [] ∧ script.leaking = false ∧ script.bare = false) :
    Custody (Stage Inventory) where
  toSurroundings := surroundings script Inventory.store eventTime
  held := Stage.inventory
  accounts_reads := by
    simp only [surroundings, disturbedStore, alone.2.1]
    refine scripted_reads script .accounts fun inventory => ⟨rfl, ?_⟩
    rintro listed answered account
    cases answered
    exact Iff.rfl
  page_reads account after limit := by
    refine scripted_reads script .page fun inventory => ⟨rfl, ?_⟩
    rintro page answered
    cases answered
    rfl
  candidates_reads account filter := by
    simp only [surroundings, disturbedStore, alone.2.1]
    refine scripted_reads script .candidates fun inventory => ⟨rfl, ?_⟩
    rintro found answered
    cases answered
    refine List.Perm.of_eq (List.filter_eq_self.2 fun host present => ?_)
    have stored := (List.mem_filter.1 (mem_inSurvivorOrder.1 present)).1
    exact decide_eq_true (Inventory.mem_hostsOf.1 stored).2
  policy_reads account := by
    simp only [surroundings, disturbedStore, alone.2.2]
    refine scripted_reads script .policy fun inventory => ⟨rfl, ?_⟩
    rintro policy answered
    cases answered
    rfl
  delete_describes id stage := by
    have undisturbed : deleteVanishing script Inventory.store id = Inventory.store.delete id := by
      funext inventory
      rw [deleteVanishing, alone.1]
      rfl
    simp only [surroundings, disturbedStore, Stage.scripted, undisturbed]
    split
    · rfl
    · cases stored : stage.state.contains id with
      | true =>
          simp only [Inventory.store, stored]
          rfl
      | false =>
          simp only [Inventory.store, stored]
          exact ⟨stored, rfl⟩
  emit_keeps _ _ _ := rfl
  flush_keeps stage := by
    simp only [surroundings, disturbedEmitter]
    split
    · rfl
    · split <;> rfl
  stop_keeps _ := rfl

theorem small_bounded (number : Nat) : number % 16 < Width.count 128 :=
  Nat.lt_trans (Nat.mod_lt number (by decide)) (by decide)

/-- One of the first sixteen identifiers. -/
def smallId (number : Nat) : HostId := ⟨number % 16, small_bounded number⟩

/-- A host of one account with a list of addresses, modified some seconds after the others' epoch. -/
def addressedHost (id : HostId) (addresses : List String) (offset : Int) : Host :=
  Inventory.exampleHost id "acct-1"
    (.object [("ip_addresses", .array (addresses.map .string))]) offset

/-- Three hosts, of which the oldest has no address and the others have one each. -/
def threeHosts : Inventory :=
  .ofHosts [addressedHost ⟨1, by decide⟩ [] 0, addressedHost ⟨2, by decide⟩ ["10.0.0.2"] 1,
    addressedHost ⟨3, by decide⟩ ["10.0.0.3"] 2]

/-- The three hosts before a run. -/
def threeHostStage : Stage Inventory := .start threeHosts (.start [] none)

/-- A rehearsal in which nothing goes wrong. -/
def calm : Custody (Stage Inventory) := custody {} (.ofUnixSeconds 1767225600) ⟨rfl, rfl, rfl⟩

/-- The standard options, some days into the year of the three hosts. -/
def calmPlan (days : Int) : Plan where
  options := .standard
  clock := ⟨.ofUnixSeconds (1767225600 + days * 86400), .standard⟩
  pageBudget := 4

end Rehearsal

end HostPruning
