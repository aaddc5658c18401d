import Mathlib.Algebra.Ring.Nat
import HostPruning.Proofs.Isolation
import HostPruning.Proofs.Recording

/-!
# A run is the sum of its accounts

Nobody stops the runs considered here. Each account is then pruned as it would be alone, in
an inventory that holds nothing else: later passes meet a store that earlier ones have
changed and a recorder that has heard their events, and both are of other accounts.
`Standing` says what series of passes leave behind, whatever their order, and
`passAccount_standing` is the one step from which the run and every other order of the
accounts follow by induction (`visitAccounts_standing`, `resolveEach_standing`).
-/

namespace HostPruning.Pruning

open Inventory Rehearsal

/-! ### Sums of counts -/

/-- The sum of the counts of accounts, field by field. -/
def Summary.total (dryRun : Bool) (counts : List Summary) : Summary where
  accountsProcessed := (counts.map Summary.accountsProcessed).sum
  hostsScanned := (counts.map Summary.hostsScanned).sum
  duplicatesFound := (counts.map Summary.duplicatesFound).sum
  hostsDeleted := (counts.map Summary.hostsDeleted).sum
  eventsEmitted := (counts.map Summary.eventsEmitted).sum
  eventsFailed := (counts.map Summary.eventsFailed).sum
  malformedSkipped := (counts.map Summary.malformedSkipped).sum
  culledSkipped := (counts.map Summary.culledSkipped).sum
  interrupted := counts.any Summary.interrupted
  dryRun := dryRun

theorem Summary.foldl_absorb (counts : List Summary) (run : Summary) :
    counts.foldl Summary.absorb run = run.absorb (Summary.total run.dryRun counts) := by
  induction counts generalizing run with
  | nil => simp [Summary.absorb, Summary.total]
  | cons account rest inductionHypothesis =>
      rw [List.foldl_cons, inductionHypothesis]
      simp [Summary.absorb, Summary.total, Nat.add_assoc, Bool.or_assoc]

/-- Taking up accounts one after the other adds up their counts. -/
theorem Summary.foldl_absorb_start (dryRun : Bool) (counts : List Summary) :
    counts.foldl Summary.absorb { dryRun := dryRun } = Summary.total dryRun counts := by
  rw [Summary.foldl_absorb]
  simp [Summary.absorb, Summary.total]

/-! ### An account alone -/

variable {eventTime : Nat → Recorder → Moment} {refused : List HostId}

/-- An audience that nothing was heard by: a recorder that refuses some hosts, and no poll. -/
def Audience.fresh (refused : List HostId) : Audience Recorder := ⟨.start refused none, 0⟩

/-- A recorder, and nobody who asks a run to stop. -/
def unstopped (eventTime : Nat → Recorder → Moment) : Outside (Audience Recorder) :=
  recording (fun _ _ => false) eventTime

/-- A pass over an account in an inventory that holds nothing else, before a fresh audience. -/
def passAlone (eventTime : Nat → Recorder → Moment) (refused : List HostId) (plan : Plan)
    (inventory : Inventory) (account : String) : Ending × Pass (Shelf (Audience Recorder)) :=
  passAccount (unstopped eventTime).custody.toSurroundings plan account
    ⟨inventory.restrict account, .fresh refused⟩

section Alone

variable {plan : Plan} {inventory : Inventory} {account : String}

/-- What an audience has heard and how often it was asked has no part in the steps it attends. -/
theorem perform_afresh {audience : Audience Recorder} (refusing : audience.mail.refused = refused)
    (steps : List Step) :
    ((unstopped eventTime).perform plan steps (Pass.start plan audience)).map id
        (Frame.ofView (Audience.behind [] 0)).around =
      ((unstopped eventTime).perform plan steps (Pass.start plan (.fresh refused))).map id
        (Frame.ofView (Audience.behind audience.mail.heard audience.polls)).around := by
  have framed : ∀ (heard : List (HostId × DeleteEvent)) polls pass,
      (recordingUndated fun _ _ => false).perform plan steps
          ((Frame.ofView (Audience.behind heard polls)).around pass) =
        ((unstopped eventTime).perform plan steps pass).map id
          (Frame.ofView (Audience.behind heard polls)).around := fun heard polls pass =>
    Frame.perform_framed (recording_behind eventTime heard polls fun _ _ => rfl)
      (fun _ _ => Frame.passes_ofView _ _) pass
  have alike : audience.behind [] 0 =
      (Audience.fresh refused).behind audience.mail.heard audience.polls := by
    simp [Audience.behind, Audience.fresh, Recorder.behind, Recorder.start, Recorder.heard, refusing]
  have started : (Frame.ofView (Audience.behind [] 0)).around (Pass.start plan audience) =
      (Frame.ofView (Audience.behind audience.mail.heard audience.polls)).around
        (Pass.start plan (.fresh refused)) := by
    simp [Frame.around, Frame.ofView, Pass.start, alike]
  rw [← framed, ← framed, started]

/-- In any store that agrees with the inventory on an account, and whatever was heard before, a pass
over the account ends, counts and removes as it does alone. -/
theorem passAccount_alone (eventTime : Nat → Recorder → Moment) (plan : Plan)
    {shelf : Shelf (Audience Recorder)} (agree : shelf.inventory.Agree account inventory)
    (refusing : shelf.world.mail.refused = refused) :
    let pass := passAccount (unstopped eventTime).custody.toSurroundings plan account shelf
    let alone := passAlone eventTime refused plan inventory account
    pass.1 = alone.1 ∧ pass.2.summary = alone.2.summary ∧ pass.2.removals = alone.2.removals := by
  intro pass alone
  have heldAgree : ((unstopped eventTime).custody.held shelf).Agree account
      ((unstopped eventTime).custody.held ⟨inventory.restrict account, .fresh refused⟩) := by
    obtain ⟨hosts, policy⟩ := agree.trans (restrict_agree inventory account).symm
    exact ⟨hosts, policy⟩
  -- Both take the same steps; the audience of the one has only heard more before.
  have looks : (pass.map id Pass.shelved).map id (Frame.ofView (Audience.behind [] 0)).around =
      (alone.map id Pass.shelved).map id
        (Frame.ofView (Audience.behind shelf.world.mail.heard shelf.world.polls)).around := by
    dsimp only [pass, alone, passAlone]
    rw [passAccount_shelved plan account rfl, passAccount_shelved plan account rfl,
      accountSteps_congr heldAgree]
    exact perform_afresh refusing _
  have component {Part : Type} (part : Ending × Pass (Audience Recorder) → Part) :=
    congrArg part looks
  exact ⟨component Prod.fst, component fun result => result.2.summary,
    component fun result => result.2.removals⟩

/-- What an account alone is left with. -/
theorem passAlone_hosts (eventTime : Nat → Recorder → Moment) (refused : List HostId) (plan : Plan)
    (inventory : Inventory) (account : String) :
    (passAlone eventTime refused plan inventory account).2.world.inventory.hosts =
      (inventory.after (passAlone eventTime refused plan inventory account).2.removals).hostsOf
        account := by
  have held := held_passAccount (unstopped eventTime).custody plan account
    ⟨inventory.restrict account, .fresh refused⟩
  rw [hostsOf_after]
  exact congrArg Inventory.hosts held

/-- What is heard of an account alone. -/
theorem passAlone_heard (eventTime : Nat → Recorder → Moment) (refused : List HostId) (plan : Plan)
    (inventory : Inventory) (account : String) :
    (passAlone eventTime refused plan inventory account).2.world.world.mail.heard =
      deliveries refused (passAlone eventTime refused plan inventory account).2.removals := by
  have attended : Attended refused [] (passAlone eventTime refused plan inventory account).2.removals
      (passAlone eventTime refused plan inventory account).2.world.world.mail :=
    passAccount_attended (fun _ _ => false) eventTime plan account
      ⟨inventory.restrict account, .fresh refused⟩ rfl
  exact attended.heard

theorem passAlone_within (decision : Decision)
    (among : decision ∈ (passAlone eventTime refused plan inventory account).2.removals) :
    decision.duplicate ∈ inventory.hostsOf account := by
  have within : decision.duplicate ∈ (inventory.restrict account).hostsOf account :=
    passAccount_removals_within _ _ _ _ decision among
  rwa [hostsOf_restrict] at within

/-- With room for its pages and a valid policy, all that can end an account early is a refused
event. -/
theorem passAlone_ends (roomy : plan.Roomy inventory) (valid : ValidPolicy inventory account) :
    (passAlone eventTime refused plan inventory account).1 = .completed ∨
      ∃ key cause, (passAlone eventTime refused plan inventory account).1 =
        .failed (.emission key cause) := by
  have leads : Leads (unstopped eventTime).custody plan [account] _ _
      (passAlone eventTime refused plan inventory account) :=
    passAccount_leads plan (List.mem_singleton_self account) rfl
  have uninterrupted : (passAlone eventTime refused plan inventory account).1 ≠ .interrupted :=
    passAccount_uninterrupted (fun _ => rfl) plan account _
  cases ended : (passAlone eventTime refused plan inventory account).1 with
  | completed => exact Or.inl rfl
  | interrupted => exact absurd ended uninterrupted
  | failed failure =>
      apply Or.inr
      cases leads.failed failure ended with
      | store fails => exact absurd fails (Outside.custody_answers _ failure)
      | @emission _ decision world aborts last answered =>
          have refusal : (Recorder.emit decision.duplicate.id (DeleteEvent.ofDuplicate
            decision.duplicate decision.survivor.id (eventTime world.world.polls world.world.mail))
              world.world.mail).1 = .error failure := answered
          unfold Recorder.emit at refusal
          split at refusal
          · cases refusal
            exact ⟨_, _, rfl⟩
          · cases refusal
      | policy visited stored invalid =>
          obtain rfl := List.mem_singleton.1 visited
          have known : (inventory.restrict _).policies.get? _ = some _ := stored
          rw [policy_restrict] at known
          rw [valid _ known] at invalid
          cases invalid
      | @pages other short =>
          have fewer : ((inventory.restrict account).hostsOf other).length ≤ inventory.size :=
            Nat.le_trans (List.length_filter_le _ _) (List.length_filter_le _ _)
          rcases short with zero | small
          · exact absurd zero roomy.positive
          · exact absurd (Nat.lt_of_lt_of_le roomy.enough small) (Nat.not_lt_of_le fewer)

end Alone

/-! ### Accounts in a row -/

/-- Prune accounts one after the other, whatever comes of each, and list what came of each. -/
def resolveEach {World : Type} (around : Surroundings World) (plan : Plan) :
    List String → World → List (Except Failure Summary) × World
  | [], world => ([], world)
  | account :: rest, world =>
      let (result, world) := resolveAccount around plan account world
      let (results, world) := resolveEach around plan rest world
      (result :: results, world)

/-- The removals that accounts call for, each alone. -/
def removalsAlone (eventTime : Nat → Recorder → Moment) (refused : List HostId) (plan : Plan)
    (inventory : Inventory) (accounts : List String) : List Decision :=
  accounts.flatMap fun account => (passAlone eventTime refused plan inventory account).2.removals

/-- A shelf on which an inventory is left without some removed hosts, before an audience that has
heard of these and of nothing else. -/
structure Standing (refused : List HostId) (inventory : Inventory) (removals : List Decision)
    (shelf : Shelf (Audience Recorder)) : Prop where
  hosts : shelf.inventory.hosts = (inventory.after removals).hosts
  policies : shelf.inventory.policies = inventory.policies
  attended : Attended refused [] removals shelf.world.mail

section Row

variable {plan : Plan} {inventory : Inventory} {account : String} {accounts done : List String}
  {shelf : Shelf (Audience Recorder)}

theorem Standing.fresh (eventTime : Nat → Recorder → Moment) (refused : List HostId) (plan : Plan)
    (inventory : Inventory) :
    Standing refused inventory (removalsAlone eventTime refused plan inventory [])
      ⟨inventory, .fresh refused⟩ :=
  ⟨congrArg Inventory.hosts (after_nil inventory).symm, rfl, rfl, rfl⟩

/-- Removals for other accounts are of other accounts. -/
theorem removalsAlone_foreign (apart : account ∉ accounts) :
    Foreign inventory [account] (removalsAlone eventTime refused plan inventory accounts) := by
  intro decision among
  obtain ⟨other, present, removed⟩ := List.mem_flatMap.1 among
  obtain ⟨stored, belongs⟩ := mem_hostsOf.1 (passAlone_within decision removed)
  exact ⟨stored, fun same => apart (List.mem_singleton.1 same ▸ belongs ▸ present)⟩

/-- After passes over other accounts, a pass over an account does what it does alone. -/
theorem passAccount_standing
    (standing : Standing refused inventory (removalsAlone eventTime refused plan inventory done) shelf)
    (apart : account ∉ done) :
    let pass := passAccount (unstopped eventTime).custody.toSurroundings plan account shelf
    let alone := passAlone eventTime refused plan inventory account
    pass.1 = alone.1 ∧ pass.2.summary = alone.2.summary ∧
      Standing refused inventory
        (removalsAlone eventTime refused plan inventory (done ++ [account])) pass.2.world := by
  intro pass alone
  obtain ⟨hosts, policies, attended⟩ := standing
  have untouched : (inventory.after (removalsAlone eventTime refused plan inventory done)).Agree account
      inventory :=
    (removalsAlone_foreign apart).agree (List.Subset.refl _) (List.mem_singleton_self account)
  have agree : shelf.inventory.Agree account inventory := by
    refine ⟨?_, congrArg (Table.get? · account) policies⟩
    rw [Inventory.hostsOf, hosts]
    exact untouched.hosts
  obtain ⟨ending, summary, removals⟩ := passAccount_alone eventTime plan agree attended.refusing
  have left := congrArg Inventory.hosts
    (held_passAccount (unstopped eventTime).custody plan account shelf)
  have further := passAccount_attended (fun _ _ => false) eventTime plan account shelf attended.refusing
  have added : removalsAlone eventTime refused plan inventory (done ++ [account]) =
      removalsAlone eventTime refused plan inventory done ++ pass.2.removals := by
    dsimp only [pass]
    rw [removals]
    simp [removalsAlone]
  refine ⟨ending, summary, ?_⟩
  rw [added]
  constructor
  · rw [after_append]
    exact left.trans (congrArg (List.filter _) hosts)
  · exact (congrArg Inventory.policies
      (held_passAccount (unstopped eventTime).custody plan account shelf)).trans policies
  · exact attended.append further

/-- Whatever accounts are pruned one after the other, each comes to what it comes to alone. -/
theorem resolveEach_standing
    (standing : Standing refused inventory (removalsAlone eventTime refused plan inventory done) shelf)
    (distinct : (done ++ accounts).Nodup) :
    let alone := passAlone eventTime refused plan inventory
    let each := resolveEach (unstopped eventTime).custody.toSurroundings plan accounts shelf
    each.1 = accounts.map (fun account => (alone account).1.outcome (alone account).2.summary) ∧
      Standing refused inventory
        (removalsAlone eventTime refused plan inventory (done ++ accounts)) each.2 := by
  induction accounts generalizing done shelf with
  | nil =>
      rw [List.append_nil]
      exact ⟨rfl, standing⟩
  | cons account rest inductionHypothesis =>
      intro alone each
      have apart : account ∉ done := fun earlier =>
        (List.nodup_cons.1 (List.nodup_middle.1 distinct)).1 (List.mem_append_left _ earlier)
      have split : done ++ account :: rest = done ++ [account] ++ rest := by simp
      obtain ⟨ending, summary, onward⟩ := passAccount_standing standing apart
      rw [split] at distinct ⊢
      obtain ⟨results, left⟩ := inductionHypothesis onward distinct
      have here : (resolveAccount (unstopped eventTime).custody.toSurroundings plan account shelf).1 =
          (alone account).1.outcome (alone account).2.summary := by
        dsimp only [resolveAccount]
        rw [ending, summary]
      exact ⟨congr (congrArg List.cons here) results, left⟩

/-- A poll is not heard. -/
theorem Standing.polled {removals : List Decision} (standing : Standing refused inventory removals shelf)
    (eventTime : Nat → Recorder → Moment) :
    Standing refused inventory removals ((unstopped eventTime).custody.stopRequested shelf).2 :=
  ⟨standing.hosts, standing.policies, standing.attended⟩

/-- A run over accounts from some progress, none of whose accounts fails alone: it comes to its end
with the sum of what they come to alone. -/
structure Summed (eventTime : Nat → Recorder → Moment) (refused : List HostId) (plan : Plan)
    (inventory : Inventory) (accounts done : List String)
    (progress : Progress (Shelf (Audience Recorder)))
    (visited : Ending × Progress (Shelf (Audience Recorder))) : Prop where
  alone : ∀ account ∈ accounts, (passAlone eventTime refused plan inventory account).1 = .completed
  ending : visited.1 = .completed
  summary : visited.2.summary = (accounts.map fun account =>
    (passAlone eventTime refused plan inventory account).2.summary).foldl Summary.absorb progress.summary
  standing : Standing refused inventory
    (removalsAlone eventTime refused plan inventory (done ++ accounts)) visited.2.world

/-- A run over accounts fails over a refused event, as one of them does alone, or it is the sum of
what they come to alone. -/
theorem visitAccounts_standing {progress : Progress (Shelf (Audience Recorder))}
    (roomy : plan.Roomy inventory) (valid : ∀ account ∈ accounts, ValidPolicy inventory account)
    (standing : Standing refused inventory (removalsAlone eventTime refused plan inventory done)
      progress.world)
    (distinct : (done ++ accounts).Nodup) :
    let visited := visitAccounts (unstopped eventTime).custody.toSurroundings plan accounts progress
    ((∃ account ∈ accounts, (passAlone eventTime refused plan inventory account).1 ≠ .completed) ∧
        ∃ key cause, visited.1 = .failed (.emission key cause)) ∨
      Summed eventTime refused plan inventory accounts done progress visited := by
  induction accounts generalizing done progress with
  | nil =>
      intro visited
      apply Or.inr
      refine ⟨fun _ absent => absurd absent List.not_mem_nil, rfl, rfl, ?_⟩
      rw [List.append_nil]
      exact standing
  | cons account rest inductionHypothesis =>
      have apart : account ∉ done := fun earlier =>
        (List.nodup_cons.1 (List.nodup_middle.1 distinct)).1 (List.mem_append_left _ earlier)
      have split : done ++ account :: rest = done ++ [account] ++ rest := by simp
      have goesOn : (unstopped eventTime).custody.stopRequested progress.world =
        (false, ((unstopped eventTime).custody.stopRequested progress.world).2) := rfl
      have polled : Standing refused inventory (removalsAlone eventTime refused plan inventory done)
        ((unstopped eventTime).custody.stopRequested progress.world).2 := standing.polled eventTime
      obtain ⟨ending, summary, onward⟩ := passAccount_standing polled apart
      unfold visitAccounts
      rw [goesOn]
      dsimp only
      cases passed : passAccount (unstopped eventTime).custody.toSurroundings plan account
          ((unstopped eventTime).custody.stopRequested progress.world).2 with
      | mk passEnding pass =>
          rw [passed] at ending summary onward
          -- The account ends here as it does alone: completed, or over a refused event.
          rcases passAlone_ends roomy (valid account List.mem_cons_self) with completed | failed
          · rw [completed] at ending
            dsimp only at ending
            subst ending
            rw [split] at distinct
            have others := @inductionHypothesis (done ++ [account]) (progress.absorb pass)
              (fun other later => valid other (List.mem_cons_of_mem _ later)) onward distinct
            rcases others with ⟨⟨other, later, fails⟩, failed⟩ | summed
            · exact Or.inl ⟨⟨other, List.mem_cons_of_mem _ later, fails⟩, failed⟩
            · apply Or.inr
              refine ⟨?_, summed.ending, ?_, split ▸ summed.standing⟩
              · intro other among
                rcases List.mem_cons.1 among with rfl | later
                · exact completed
                · exact summed.alone other later
              · rw [summed.summary, List.map_cons, List.foldl_cons, ← summary]
                rfl
          · obtain ⟨key, cause, failed⟩ := failed
            rw [failed] at ending
            dsimp only at ending
            subst ending
            apply Or.inl
            refine ⟨⟨account, List.mem_cons_self, ?_⟩, key, cause, rfl⟩
            rw [failed]
            simp

/-- What is left of an account after passes over several ones is what is left of it alone. -/
theorem Standing.hostsOf
    (standing : Standing refused inventory
      (removalsAlone eventTime refused plan inventory accounts) shelf)
    (distinct : accounts.Nodup) (among : account ∈ accounts) :
    shelf.inventory.hostsOf account =
      (passAlone eventTime refused plan inventory account).2.world.inventory.hosts := by
  -- The removals for other accounts come first in another order and leave this one alone.
  obtain ⟨before, rest, rfl⟩ := List.append_of_mem among
  have elsewhere : account ∉ before ++ rest := (List.nodup_cons.1 (List.nodup_middle.1 distinct)).1
  have reordered : (removalsAlone eventTime refused plan inventory (before ++ account :: rest)).Perm
      (removalsAlone eventTime refused plan inventory (before ++ rest) ++
        (passAlone eventTime refused plan inventory account).2.removals) := by
    simp only [removalsAlone, List.flatMap_append, List.flatMap_cons, List.append_assoc]
    exact List.perm_append_comm.append_left _
  have others : (inventory.after (removalsAlone eventTime refused plan inventory
      (before ++ rest))).Agree account inventory :=
    (removalsAlone_foreign elsewhere).agree (List.Subset.refl _) (List.mem_singleton_self account)
  rw [Inventory.hostsOf, standing.hosts, after_perm reordered, after_append, passAlone_hosts]
  exact (others.after _).hosts

/-- What is heard of passes over several accounts is what is heard of each alone, in a row. -/
theorem Standing.heard
    (standing : Standing refused inventory
      (removalsAlone eventTime refused plan inventory accounts) shelf) :
    shelf.world.mail.heard = accounts.flatMap fun account =>
      (passAlone eventTime refused plan inventory account).2.world.world.mail.heard := by
  simp only [standing.attended.heard, removalsAlone, deliveries_flatMap, passAlone_heard,
    List.nil_append]

/-- What is heard of an account is what is heard of it alone, in the same order. -/
theorem Standing.heardOf
    (standing : Standing refused inventory
      (removalsAlone eventTime refused plan inventory accounts) shelf)
    (distinct : accounts.Nodup) (among : account ∈ accounts) :
    (shelf.world.mail.heard.filter fun entry => entry.2.account = account) =
      (passAlone eventTime refused plan inventory account).2.world.world.mail.heard := by
  rw [standing.heard]
  refine filter_flatMap_of_key (fun other entry heard => ?_) distinct among
  rw [passAlone_heard] at heard
  obtain ⟨decision, removed, about⟩ := exists_of_mem_deliveries heard
  exact about.trans (mem_hostsOf.1 (passAlone_within decision removed)).2

/-- In whatever order accounts are taken, the same is left stored. -/
theorem Standing.perm {order : List String} {other : Shelf (Audience Recorder)}
    (standing : Standing refused inventory
      (removalsAlone eventTime refused plan inventory accounts) shelf)
    (reordered : order.Perm accounts)
    (otherStanding : Standing refused inventory
      (removalsAlone eventTime refused plan inventory order) other) :
    other.inventory.hosts = shelf.inventory.hosts ∧
      other.inventory.policies = shelf.inventory.policies := by
  have removals : (removalsAlone eventTime refused plan inventory order).Perm
      (removalsAlone eventTime refused plan inventory accounts) := reordered.flatMap_right _
  constructor
  · rw [standing.hosts, otherStanding.hosts, after_perm removals]
  · rw [standing.policies, otherStanding.policies]

/-- In the course of a run, an account comes to what it comes to alone. -/
theorem resolveAccount_in_turn {progress : Progress (Shelf (Audience Recorder))}
    (roomy : plan.Roomy inventory) (valid : ∀ account ∈ accounts, ValidPolicy inventory account)
    (completed : ∀ account ∈ accounts,
      (passAlone eventTime refused plan inventory account).1 = .completed)
    (standing : Standing refused inventory (removalsAlone eventTime refused plan inventory [])
      progress.world)
    (distinct : accounts.Nodup) (apart : account ∉ accounts) :
    let around := (unstopped eventTime).custody.toSurroundings
    let reached := (visitAccounts around plan accounts progress).2.world
    (resolveAccount around plan account (around.stopRequested reached).2).1 =
      (passAlone eventTime refused plan inventory account).1.outcome
        (passAlone eventTime refused plan inventory account).2.summary := by
  intro around reached
  rcases visitAccounts_standing roomy valid standing distinct with
    ⟨⟨other, present, fails⟩, -⟩ | summed
  · exact absurd (completed other present) fails
  · obtain ⟨ending, summary, -⟩ := passAccount_standing (summed.standing.polled eventTime) apart
    dsimp only [resolveAccount, around, reached]
    rw [ending, summary]

end Row

/-- A run is its passes, then a flush that is not heard. -/
theorem run_unstopped (eventTime : Nat → Recorder → Moment) (plan : Plan)
    (shelf : Shelf (Audience Recorder)) :
    let around := (unstopped eventTime).custody.toSurroundings
    let visited := visitAccounts around plan shelf.inventory.accounts (Progress.start plan shelf)
    let whole := run around plan shelf
    whole.1 = visited.1.outcome visited.2.summary ∧
      whole.2.inventory = visited.2.world.inventory ∧
      whole.2.world.mail.heard = visited.2.world.world.mail.heard := by
  intro around visited whole
  have finished : whole = finish around (visited.1.outcome visited.2.summary) visited.2.world := by
    dsimp only [whole, around]
    rw [run_shelved, performed_visits]
  rw [finished]
  dsimp only [around, unstopped]
  rw [finish_recording]
  exact ⟨rfl, rfl, rfl⟩

/-- The pruning of an account in an inventory that holds nothing else, before a fresh audience. -/
def resolveAlone (eventTime : Nat → Recorder → Moment) (refused : List HostId) (plan : Plan)
    (inventory : Inventory) (account : String) : Except Failure Summary × Shelf (Audience Recorder) :=
  resolveAccount (unstopped eventTime).custody.toSurroundings plan account
    ⟨inventory.restrict account, .fresh refused⟩

/-- A run over an inventory before a fresh audience is the sum of its accounts, each of which has
some counts. -/
structure ByAccounts (eventTime : Nat → Recorder → Moment) (refused : List HostId) (plan : Plan)
    (inventory : Inventory) (counts : String → Summary)
    (whole : Except Failure Summary × Shelf (Audience Recorder)) : Prop where
  /-- These are the counts of the account alone. -/
  alone : ∀ account ∈ inventory.accounts,
    (resolveAlone eventTime refused plan inventory account).1 = .ok (counts account)
  /-- They are what the run counts for the account when its turn comes. -/
  inTurn : ∀ before account after, inventory.accounts = before ++ account :: after →
    let around := (unstopped eventTime).custody.toSurroundings
    let reached := (visitAccounts around plan before
      (Progress.start plan ⟨inventory, .fresh refused⟩)).2.world
    (resolveAccount around plan account (around.stopRequested reached).2).1 = .ok (counts account)
  /-- The run returns their sum. -/
  summed : whole.1 = .ok (Summary.total plan.options.dryRun (inventory.accounts.map counts))
  /-- It leaves of each account what is left of it alone. -/
  hosts : ∀ account ∈ inventory.accounts, whole.2.inventory.hostsOf account =
    (resolveAlone eventTime refused plan inventory account).2.inventory.hosts
  policies : whole.2.inventory.policies = inventory.policies
  /-- The events are those of each account alone, one account after the other. -/
  events : whole.2.world.mail.heard = inventory.accounts.flatMap fun account =>
    (resolveAlone eventTime refused plan inventory account).2.world.mail.heard
  eventsOf : ∀ account ∈ inventory.accounts,
    (whole.2.world.mail.heard.filter fun entry => entry.2.account = account) =
      (resolveAlone eventTime refused plan inventory account).2.world.mail.heard
  /-- No account has a part in another one. -/
  isolated : ∀ account, Isolated (unstopped eventTime) plan account
  /-- Pruned one by one in any order, the accounts come to the same counts, the same events and the
  same store. -/
  anyOrder : ∀ order, order.Perm inventory.accounts →
    let each := resolveEach (unstopped eventTime).custody.toSurroundings plan order
      ⟨inventory, .fresh refused⟩
    each.1 = order.map (fun account => .ok (counts account)) ∧
      each.2.inventory.hosts = whole.2.inventory.hosts ∧
      each.2.inventory.policies = whole.2.inventory.policies ∧
      ∀ account ∈ inventory.accounts,
        (each.2.world.mail.heard.filter fun entry => entry.2.account = account) =
          (resolveAlone eventTime refused plan inventory account).2.world.mail.heard

/-- A run that nobody stops and no refused event ends is the sum of its accounts, each alone in a
store of its own. -/
theorem run_by_accounts (eventTime : Nat → Recorder → Moment) (refused : List HostId) {plan : Plan}
    {inventory : Inventory} (roomy : plan.Roomy inventory)
    (valid : ∀ account ∈ inventory.accounts, ValidPolicy inventory account)
    (unended : ∀ key cause, (run (unstopped eventTime).custody.toSurroundings plan
      ⟨inventory, .fresh refused⟩).1 ≠ .error (.emission key cause)) :
    ∃ counts, ByAccounts eventTime refused plan inventory counts
      (run (unstopped eventTime).custody.toSurroundings plan ⟨inventory, .fresh refused⟩) := by
  have distinct : inventory.accounts.Nodup := ascendingDistinct_nodup _
  have fresh : Standing refused inventory (removalsAlone eventTime refused plan inventory [])
    (Progress.start plan ⟨inventory, .fresh refused⟩).world :=
      Standing.fresh eventTime refused plan inventory
  obtain ⟨outcome, left, heard⟩ := run_unstopped eventTime plan ⟨inventory, .fresh refused⟩
  rcases visitAccounts_standing roomy valid fresh distinct with ⟨-, key, cause, failed⟩ | summed
  · refine absurd ?_ (unended key cause)
    rw [outcome, failed]
    rfl
  have standing := summed.standing
  rw [List.nil_append] at standing
  have alone : ∀ account ∈ inventory.accounts,
      (resolveAlone eventTime refused plan inventory account).1 =
        .ok (passAlone eventTime refused plan inventory account).2.summary := by
    intro account present
    have completed := summed.alone account present
    rw [passAlone] at completed
    dsimp only [resolveAlone, resolveAccount]
    rw [completed]
    rfl
  refine ⟨fun account => (passAlone eventTime refused plan inventory account).2.summary, ?_⟩
  constructor
  case alone => exact alone
  case inTurn =>
    intro before account after split
    have earlier : ∀ other ∈ before, other ∈ inventory.accounts := fun other among =>
      split ▸ List.mem_append_left _ among
    have here : account ∈ inventory.accounts := split ▸ List.mem_append_right _ List.mem_cons_self
    rw [split] at distinct
    have apart : account ∉ before := fun among =>
      (List.nodup_cons.1 (List.nodup_middle.1 distinct)).1 (List.mem_append_left _ among)
    have turn := resolveAccount_in_turn roomy (fun other among => valid other (earlier other among))
      (fun other among => summed.alone other (earlier other among)) fresh
      (List.nodup_append.1 distinct).1 apart
    exact turn.trans (alone account here)
  case summed =>
    rw [outcome, summed.ending, summed.summary]
    exact congrArg Except.ok (Summary.foldl_absorb_start _ _)
  case hosts =>
    intro account present
    rw [left]
    exact standing.hostsOf distinct present
  case policies =>
    rw [left]
    exact standing.policies
  case events =>
    rw [heard]
    exact standing.heard
  case eventsOf =>
    intro account present
    rw [heard]
    exact standing.heardOf distinct present
  case isolated => exact fun account => Pruning.isolated _ plan account
  case anyOrder =>
    intro order reordered each
    have orderDistinct : order.Nodup := reordered.nodup_iff.2 distinct
    obtain ⟨results, eachStanding⟩ := resolveEach_standing fresh orderDistinct
    obtain ⟨hosts, policies⟩ := standing.perm reordered eachStanding
    rw [left]
    refine ⟨?_, hosts, policies, fun account present =>
      eachStanding.heardOf orderDistinct (reordered.mem_iff.2 present)⟩
    exact results.trans <|
      List.map_congr_left fun account listed => alone account (reordered.mem_iff.1 listed)

/-- One of a few hosts that all have the same address. -/
def neighbour (number : Fin 5) (account : String) (offset : Int) : Host :=
  exampleHost ⟨number, Nat.lt_trans number.isLt (by decide)⟩ account
    (.object [("ip_addresses", .array [.string "10.0.0.1"])]) offset

/-- Four hosts of two accounts, all with the same address. -/
def neighbours : Inventory :=
  .ofHosts [neighbour 1 "acct-1" 0, neighbour 2 "acct-2" 1, neighbour 3 "acct-1" 2,
    neighbour 4 "acct-2" 3]

/-- Each account keeps its newest host; the event of one of the removed hosts is refused. -/
theorem neighbours_by_accounts :
    let around := (unstopped fun _ _ => .ofUnixSeconds 0).custody.toSurroundings
    let plan := { calmPlan 1 with
      options := { Options.standard with emitFailure := .«continue» }, pageBudget := 5 }
    let refused : List HostId := [⟨1, by decide⟩]
    let whole := run around plan ⟨neighbours, .fresh refused⟩
    plan.Roomy neighbours ∧ whole.2.inventory.hosts.map (fun host => host.id.value) = [3, 4] ∧
      ∃ counts, ByAccounts (fun _ _ => .ofUnixSeconds 0) refused plan neighbours counts whole := by
  intro around plan refused whole
  have roomy : plan.Roomy neighbours := ⟨by decide, by decide⟩
  have succeeds : whole.1.isOk = true := by decide
  refine ⟨roomy, by decide, run_by_accounts _ refused roomy ?_ ?_⟩
  · intro account _ policy stored
    have none : neighbours.policies.get? account = none := rfl
    rw [none] at stored
    cases stored
  · intro key cause failed
    have failing : whole.1 = .error (.emission key cause) := failed
    rw [failing] at succeeds
    cases succeeds

end HostPruning.Pruning
