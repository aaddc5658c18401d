import HostPruning.Database.Store
import HostPruning.Proofs.Collections
import HostPruning.Proofs.Windows

/-!
# Policies that a database stores

Offsets are looked at more than once, and each place asks for something else: a policy is validated before
it is stored, the table checks the row, and a run validates what it finds stored. `Policy.Sound` says what
validation asks for, in order and within bounds, and this is more than the table asks for
(`StoredPolicy.admissible_of_sound`). So a policy is stored exactly when its account has a name and the
policy is sound (`setPolicy_eq_ok_iff`), and what is stored is sound (`Ruled`).
-/

namespace HostPruning

namespace Lifecycle

/-- Offsets that are positive, in order and within bounds. -/
structure Offsets.Sound (offsets : Offsets) : Prop where
  positive : 0 < offsets.stale
  warned : offsets.stale ≤ offsets.warning
  deleted : offsets.warning ≤ offsets.delete
  bounded : offsets.delete ≤ greatestOffset

/-- A policy with sound offsets for both kinds of hosts. -/
def Policy.Sound (policy : Policy) : Prop := ∀ kind, (policy.offsets kind).Sound

theorem Offsets.sound_iff {offsets : Offsets} : offsets.defect? = none ↔ offsets.Sound := by
  rw [Offsets.defect?_eq_none]
  constructor
  · rintro ⟨positive, warned, deleted, bounded⟩
    exact ⟨positive, warned, deleted, bounded⟩
  · rintro ⟨positive, warned, deleted, bounded⟩
    exact ⟨positive, warned, deleted, bounded⟩

theorem Offsets.validate_of_sound {offsets : Offsets} (sound : offsets.Sound) (label : String) :
    offsets.validate label = .ok () := by
  rw [Offsets.validate, Offsets.sound_iff.2 sound]

/-- Validation accepts sound policies and no others. -/
theorem Policy.validate_eq_ok_iff {policy : Policy} : policy.validate = .ok () ↔ policy.Sound := by
  constructor
  · intro valid kind
    exact Offsets.sound_iff.1 (Policy.defect?_offsets valid kind)
  · intro sound
    have conventional : policy.conventional.Sound := sound .conventional
    have immutable : policy.immutable.Sound := sound .edge
    rw [Policy.validate, Offsets.validate_of_sound conventional]
    exact Offsets.validate_of_sound immutable _

end Lifecycle

open Lifecycle (Policy)

/-- The table takes every sound policy. -/
theorem StoredPolicy.admissible_of_sound {stored : StoredPolicy} (sound : stored.policy.Sound) :
    stored.admissible = true := by
  have taken : ∀ {offsets : Lifecycle.Offsets}, offsets.Sound → takes offsets = true := by
    rintro offsets ⟨positive, warned, deleted, -⟩
    simp [takes, positive, warned, deleted]
  rw [admissible, Bool.and_eq_true]
  exact ⟨taken (sound .conventional), taken (sound .edge)⟩

namespace Database

variable {database next : Database} {account updatedAt : String} {policy : Policy}

theorem upsertPolicy_of_sound (sound : policy.Sound) (account updatedAt : String)
    (table : Table String StoredPolicy) :
    upsertPolicy account ⟨policy, updatedAt⟩ table = some (table.insert account ⟨policy, updatedAt⟩) := by
  have admissible := @StoredPolicy.admissible_of_sound ⟨policy, updatedAt⟩ sound
  rw [upsertPolicy, if_pos admissible]

/-- A policy is stored exactly when its account has a name, it is sound, and there is a table for it. -/
theorem setPolicy_eq_ok_iff : database.setPolicy account policy updatedAt = .ok next ↔
    Text.blank account = false ∧ policy.Sound ∧ ∃ table, database.policies = some table ∧
      next = { database with policies := some (table.insert account ⟨policy, updatedAt⟩) } := by
  constructor
  · intro taken
    unfold setPolicy at taken
    split at taken
    next => cases taken
    next named =>
      split at taken
      next => cases taken
      next valid =>
        have sound := Policy.validate_eq_ok_iff.1 valid
        cases stored : database.policies with
        | none => simp [policyTable, stored] at taken
        | some table =>
            simp only [policyTable, stored, upsertPolicy_of_sound sound] at taken
            cases taken
            exact ⟨by simpa using named, sound, table, rfl, rfl⟩
  · rintro ⟨named, sound, table, stored, rfl⟩
    have valid := Policy.validate_eq_ok_iff.2 sound
    simp [setPolicy, named, valid, policyTable, stored, upsertPolicy_of_sound sound]

/-- The checks of the table never get to see a policy that they would refuse. -/
theorem setPolicy_ne_policyRefused (database : Database) (account : String) (policy : Policy)
    (updatedAt name : String) : database.setPolicy account policy updatedAt ≠ .error (.policyRefused name) := by
  intro refused
  unfold setPolicy at refused
  split at refused
  next => cases refused
  next =>
    split at refused
    next => cases refused
    next valid =>
      have sound := Policy.validate_eq_ok_iff.1 valid
      cases stored : database.policies with
      | none => simp [policyTable, stored] at refused
      | some table => simp [policyTable, stored, upsertPolicy_of_sound sound] at refused

/-- The policy that is stored for an account. -/
def policy? (account : String) (database : Database) : Option Policy :=
  ((database.policies.getD ∅).get? account).map StoredPolicy.policy

theorem policy?_congr {other : Database} (same : other.policies.getD ∅ = database.policies.getD ∅)
    (account : String) : other.policy? account = database.policy? account := by
  rw [policy?, policy?, same]

/-- A policy that is stored takes the place of its account's and leaves the others'. -/
theorem policy?_setPolicy (taken : database.setPolicy account policy updatedAt = .ok next) (other : String) :
    next.policy? other = if other = account then some policy else database.policy? other := by
  obtain ⟨-, -, table, stored, rfl⟩ := setPolicy_eq_ok_iff.1 taken
  simp only [policy?, stored, Option.getD_some, Table.get?_insert]
  split <;> rfl

/-- The store answers with the policy that is stored. -/
theorem policy_store (there : database.policies.isSome = true) (account : String) :
    store.policy account database = (.ok (database.policy? account), database) := by
  obtain ⟨table, stored⟩ := Option.isSome_iff_exists.1 there
  simp [store, query, policyOf, policyTable, stored, policy?, Except.map]

/-- A policy that the store answers with is stored. -/
theorem policy?_of_answered {found : Option Policy} (answered : (store.policy account database).1 = .ok found) :
    database.policy? account = found := by
  cases stored : database.policies with
  | none => simp [store, query, policyOf, policyTable, stored, Except.map] at answered
  | some table =>
      rw [policy_store (by simp [stored])] at answered
      exact Except.ok.inj answered

/-- Whether all policies that are stored are sound. -/
def Ruled (database : Database) : Prop :=
  ∀ account policy, database.policy? account = some policy → policy.Sound

namespace Ruled

/-- A database without policies is ruled, for one. -/
theorem of_none (nothing : database.policies.getD ∅ = ∅) : database.Ruled := by
  intro account policy stored
  rw [policy?, nothing] at stored
  cases stored

theorem congr (ruled : database.Ruled) (same : next.policies.getD ∅ = database.policies.getD ∅) :
    next.Ruled := by
  intro account policy stored
  exact ruled account policy ((policy?_congr same account).symm.trans stored)

theorem setPolicy (ruled : database.Ruled) (taken : database.setPolicy account policy updatedAt = .ok next) :
    next.Ruled := by
  intro other found stored
  rw [policy?_setPolicy taken] at stored
  split at stored
  next =>
    obtain rfl := Option.some.inj stored
    exact (setPolicy_eq_ok_iff.1 taken).2.1
  next => exact ruled other found stored

end Ruled

end Database

end HostPruning
