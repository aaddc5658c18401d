import HostPruning.Proofs.Memory

/-!
# Accounts do not see each other

A pass over an account removes hosts of that account only, so in custody it leaves all other
accounts as they were (`passAccount_spares`). In memory it also does not see them: two
inventories that hold the same for the account lead to the same pass as far as anyone outside
the store can tell, and to inventories that still agree (`passAccount_unaware`). `Isolated`
says both of the pruning of one account.
-/

namespace HostPruning

open Pruning

namespace Inventory

/-- An inventory with the hosts and the policy of one account alone. -/
def restrict (inventory : Inventory) (account : String) : Inventory where
  hosts := inventory.hostsOf account
  ascending := inventory.ascending.filter _
  policies := inventory.policies.filter fun key _ => key = account
  pageSizes := []

theorem hostsOf_restrict (inventory : Inventory) (account : String) :
    (inventory.restrict account).hostsOf account = inventory.hostsOf account := by
  simp [hostsOf, restrict]

theorem policy_restrict (inventory : Inventory) (account : String) :
    (inventory.restrict account).policies.get? account = inventory.policies.get? account :=
  lookup_filter (fun key => key = account) (decide_eq_true rfl) inventory.policies.entries

/-- What is held for an account is all of it. -/
theorem restrict_agree (inventory : Inventory) (account : String) :
    (inventory.restrict account).Agree account inventory :=
  ⟨hostsOf_restrict inventory account, policy_restrict inventory account⟩

/-- Removals make the same inventory in any order. -/
theorem after_perm {first second : List Decision} (same : first.Perm second)
    (inventory : Inventory) : inventory.after first = inventory.after second :=
  after_congr inventory fun _ => (same.map _).mem_iff

end Inventory

namespace Pruning

open Inventory

section Passes

variable {World : Type} {plan : Plan} {account other : String}

/-- A pass only removes hosts of its account. -/
theorem passAccount_removals_within (custody : Custody World) (plan : Plan) (account : String)
    (world : World) : ∀ decision ∈ (passAccount custody.toSurroundings plan account world).2.removals,
      decision.duplicate ∈ (custody.held world).hostsOf account := by
  have leads : Leads custody plan [account] (custody.held world)
      (accountDecisions plan (custody.held world) account)
      (passAccount custody.toSurroundings plan account world) :=
    passAccount_leads plan (List.mem_singleton_self account) rfl
  intro decision among
  have decided := leads.removed.trans ((prefix_due plan _).trans leads.decided)
  exact (accountDecisions_within (decided.subset among)).1

/-- What a pass leaves is what it met without the hosts it removed. -/
theorem held_passAccount (custody : Custody World) (plan : Plan) (account : String) (world : World) :
    custody.held (passAccount custody.toSurroundings plan account world).2.world =
      (custody.held world).after (passAccount custody.toSurroundings plan account world).2.removals :=
  (passAccount_leads plan (List.mem_singleton_self account) rfl).held

/-- A pass over an account leaves every other account as it was. -/
theorem passAccount_spares (custody : Custody World) (plan : Plan) (apart : other ≠ account)
    (world : World) :
    (custody.held (passAccount custody.toSurroundings plan account world).2.world).Agree other
      (custody.held world) := by
  have foreign : Foreign (custody.held world) [other]
      (passAccount custody.toSurroundings plan account world).2.removals := by
    intro decision among
    obtain ⟨stored, belongs⟩ := mem_hostsOf.1
      (passAccount_removals_within custody plan account world decision among)
    exact ⟨stored, fun same => apart (belongs ▸ List.mem_singleton.1 same).symm⟩
  rw [held_passAccount]
  exact foreign.agree (List.Subset.refl _) (List.mem_singleton_self other)

/-- A pass over an account does not see the others. -/
theorem passAccount_unaware {left right : Inventory} (agree : left.Agree account right)
    (outside : Outside World) (plan : Plan) (world : World) :
    (passAccount outside.custody.toSurroundings plan account ⟨left, world⟩).map id Pass.shelved =
      (passAccount outside.custody.toSurroundings plan account ⟨right, world⟩).map id Pass.shelved := by
  have heldAgree : (outside.custody.held ⟨left, world⟩).Agree account
      (outside.custody.held ⟨right, world⟩) := ⟨agree.hosts, agree.policy⟩
  rw [passAccount_shelved plan account rfl, passAccount_shelved plan account rfl,
    accountSteps_congr heldAgree]

end Passes

/-- Whether pruning an account has no part in other accounts and they have none in it. -/
structure Isolated {World : Type} (outside : Outside World) (plan : Plan) (account : String) : Prop where
  /-- What is stored for others is left alone. -/
  spares : ∀ shelf other, other ≠ account →
    (resolveAccount outside.custody.toSurroundings plan account shelf).2.inventory.Agree other
      shelf.inventory
  /-- What is stored for others makes no difference. -/
  unaware : ∀ left right world, left.Agree account right →
    let leftEnd := resolveAccount outside.custody.toSurroundings plan account ⟨left, world⟩
    let rightEnd := resolveAccount outside.custody.toSurroundings plan account ⟨right, world⟩
    leftEnd.1 = rightEnd.1 ∧ leftEnd.2.world = rightEnd.2.world ∧
      leftEnd.2.inventory.Agree account rightEnd.2.inventory

theorem isolated {World : Type} (outside : Outside World) (plan : Plan) (account : String) :
    Isolated outside plan account where
  spares shelf other apart := by
    obtain ⟨hosts, policy⟩ := passAccount_spares outside.custody plan apart shelf
    exact ⟨hosts, policy⟩
  unaware left right world agree := by
    have alike := passAccount_unaware agree outside plan world
    have component {Part : Type} (part : Ending × Pass World → Part) := congrArg part alike
    have removals := component fun result => result.2.removals
    have leftHeld := held_passAccount outside.custody plan account ⟨left, world⟩
    have rightHeld := held_passAccount outside.custody plan account ⟨right, world⟩
    have remaining : (outside.custody.held
        (passAccount outside.custody.toSurroundings plan account ⟨left, world⟩).2.world).Agree account
          (outside.custody.held
            (passAccount outside.custody.toSurroundings plan account ⟨right, world⟩).2.world) := by
      have heldAgree : (outside.custody.held ⟨left, world⟩).Agree account
        (outside.custody.held ⟨right, world⟩) := ⟨agree.hosts, agree.policy⟩
      rw [leftHeld, rightHeld]
      exact removals ▸ heldAgree.after _
    refine ⟨component fun result => result.1.outcome result.2.summary,
      component fun result => result.2.world, ⟨remaining.hosts, remaining.policy⟩⟩

end Pruning

end HostPruning
