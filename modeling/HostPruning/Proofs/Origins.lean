import HostPruning.Proofs.Custody
import HostPruning.Proofs.Tracing

/-!
# Where a failure of a run comes from

A run has few failures of its own. In any surroundings what it fails with is what a call answered, or a
stored policy that is not valid, or the end of the pages an account may take (`Origin`). Where no call
leaves a kind of worlds, the policy was answered in a world of that kind, so a kind of worlds that stores
valid policies only rules this origin out.

`Explained` is carried through a pass, and by induction on the accounts through a run.
-/

namespace HostPruning.Pruning

variable {World : Type} {around : Surroundings World} {kind : World → Prop}

/-- A kind of worlds that no call but a flush leaves. -/
structure Surroundings.Keeps (around : Surroundings World) (kind : World → Prop) : Prop where
  reads : ∀ {before after}, Reading around before after → kind before → kind after
  deletes : ∀ id {world}, kind world → kind (around.store.delete id world).2
  emits : ∀ key event {world}, kind world → kind (around.emitter.emit key event world).2

/-- What a run over worlds of a kind can fail with. -/
inductive Origin (around : Surroundings World) (kind : World → Prop) : Failure → Prop where
  | store {failure : Failure} (fails : around.store.Fails failure) : Origin around kind failure
  | event {failure : Failure} {key : HostId} {event : DeleteEvent} {world : World}
      (answered : (around.emitter.emit key event world).1 = .error failure) : Origin around kind failure
  | flush {failure : Failure} {world : World}
      (answered : (around.emitter.flush world).1 = .error failure) : Origin around kind failure
  | policy {account : String} {policy : Lifecycle.Policy} {defect : SettingDefect} {world : World}
      (met : kind world) (answered : (around.store.policy account world).1 = .ok (some policy))
      (invalid : policy.validate = .error defect) : Origin around kind (.setting defect)
  | pages : Origin around kind .pagesExhausted

/-- A part of a run that ended in a world of the kind, and with a failure only if it has an origin. -/
structure Explained (around : Surroundings World) (kind : World → Prop) (ending : Ending) (world : World) :
    Prop where
  met : kind world
  origin : ∀ failure, ending = .failed failure → Origin around kind failure

namespace Explained

variable {world : World}

theorem completed (met : kind world) : Explained around kind .completed world :=
  ⟨met, by rintro failure ⟨⟩⟩

theorem interrupted (met : kind world) : Explained around kind .interrupted world :=
  ⟨met, by rintro failure ⟨⟩⟩

theorem failed {failure : Failure} (met : kind world) (origin : Origin around kind failure) :
    Explained around kind (.failed failure) world :=
  ⟨met, by rintro _ ⟨⟩; exact origin⟩

/-- A call ends a part of a run with what it answered. -/
theorem after {Answer : Type} {answer : Except Failure Answer} (met : kind world)
    (origin : ∀ failure, answer = .error failure → Origin around kind failure) :
    Explained around kind (.after answer) world := by
  cases answer with
  | ok _ => exact completed met
  | error failure => exact failed met (origin failure rfl)

end Explained

/-! ### Passes -/

section Passes

variable {plan : Plan} {account : String}

theorem publishRemoval_explained (keeps : around.Keeps kind) (decision : Decision) {pass : Pass World}
    (met : kind pass.world) :
    Explained around kind (publishRemoval around plan decision pass).1
      (publishRemoval around plan decision pass).2.world := by
  have kept := keeps.emits decision.duplicate.id
    (DeleteEvent.ofDuplicate decision.duplicate decision.survivor.id (around.eventTime pass.world)) met
  unfold publishRemoval
  dsimp only
  split
  next world handed =>
    rw [handed] at kept
    exact .completed kept
  next failure world refused =>
    rw [refused] at kept
    split
    next => exact .completed kept
    next => exact .failed kept (.event (congrArg Prod.fst refused))

theorem removeDuplicate_explained (keeps : around.Keeps kind) (decision : Decision) {pass : Pass World}
    (met : kind pass.world) :
    Explained around kind (removeDuplicate around plan decision pass).1
      (removeDuplicate around plan decision pass).2.world := by
  have kept := keeps.deletes decision.duplicate.id met
  unfold removeDuplicate
  dsimp only [Pass.decide]
  split
  next => exact .completed met
  next =>
    split
    next failure world failed =>
      rw [failed] at kept
      exact .failed kept (.store (.delete (congrArg Prod.fst failed)))
    next world absent =>
      rw [absent] at kept
      exact .completed kept
    next world deleted =>
      rw [deleted] at kept
      exact publishRemoval_explained keeps decision kept

theorem removeDuplicates_explained (keeps : around.Keeps kind) (scanned survivor : Host)
    (duplicates : List Host) {pass : Pass World} (met : kind pass.world) :
    Explained around kind (removeDuplicates around plan scanned survivor duplicates pass).1
      (removeDuplicates around plan scanned survivor duplicates pass).2.world := by
  induction duplicates generalizing pass with
  | nil => exact .completed met
  | cons duplicate rest inductionHypothesis =>
      have polled := keeps.reads (.stop pass.world) met
      unfold removeDuplicates
      split
      next world stopped =>
        rw [stopped] at polled
        exact .interrupted polled
      next world goesOn =>
        rw [goesOn] at polled
        have removed := @removeDuplicate_explained _ _ _ plan keeps ⟨scanned, duplicate, survivor⟩
          (pass.inWorld world) polled
        split
        next after completed =>
          rw [completed] at removed
          exact inductionHypothesis removed.met
        next => exact removed

theorem carried_explained (keeps : around.Keeps kind) (clock : Lifecycle.Clock) :
    Carried around plan clock account fun ending pass => Explained around kind ending pass.world where
  counts _ explained := explained
  pages := by
    intro pass scan explained
    have kept := keeps.reads (fetch_reads around scan pass.world) explained.met
    refine .after kept fun failure failed => ?_
    have answered : (around.store.page scan.account scan.fetched scan.chunkSize pass.world).1 =
        .error failure := by
      unfold Scan.fetch at failed
      split at failed
      next refused =>
        cases failed
        exact congrArg Prod.fst refused
      next => cases failed
    exact .store (.page answered)
  candidates := by
    intro pass filter explained
    exact .after (keeps.reads (.candidates account filter pass.world) explained.met)
      fun failure failed => .store (.candidates failed)
  resolves := by
    intro pass scanned world filter found _ explained
    unfold resolveCandidates
    dsimp only
    split
    · exact explained
    · exact removeDuplicates_explained keeps scanned _ _ explained.met
  exhausted explained := .failed explained.met .pages

/-- A pass fails with what has an origin. -/
theorem passAccount_explained (keeps : around.Keeps kind) (plan : Plan) (account : String) {world : World}
    (met : kind world) :
    Explained around kind (passAccount around plan account world).1
      (passAccount around plan account world).2.world := by
  have kept := keeps.reads (accountClock_reads around plan account world) met
  apply passAccount_carries (motive := fun ending pass => Explained around kind ending pass.world)
  · intro clock next answered
    rw [answered] at kept
    exact ⟨carried_explained keeps clock, .completed kept⟩
  · intro failure next failed
    rw [failed] at kept
    refine .failed kept ?_
    -- The policy is answered in the world the pass begins with, which is of the kind.
    unfold accountClock at failed
    split at failed
    next refused =>
      cases failed
      exact .store (.policy (congrArg Prod.fst refused))
    next => cases failed
    next answered =>
      split at failed
      next invalid =>
        cases failed
        exact .policy met (congrArg Prod.fst answered) invalid
      next => cases failed

end Passes

/-! ### Runs -/

section Runs

variable {plan : Plan}

theorem visitAccounts_explained (keeps : around.Keeps kind) (accounts : List String)
    {progress : Progress World} (met : kind progress.world) :
    Explained around kind (visitAccounts around plan accounts progress).1
      (visitAccounts around plan accounts progress).2.world := by
  induction accounts generalizing progress with
  | nil => exact .completed met
  | cons account rest inductionHypothesis =>
      have polled := keeps.reads (.stop progress.world) met
      unfold visitAccounts
      split
      next world stopped =>
        rw [stopped] at polled
        exact .interrupted polled
      next world goesOn =>
        rw [goesOn] at polled
        have passed := passAccount_explained keeps plan account polled
        split
        next pass completed =>
          rw [completed] at passed
          exact inductionHypothesis passed.met
        next ended =>
          rw [ended] at passed
          exact passed

theorem performed_explained (keeps : around.Keeps kind) {world : World} (met : kind world) :
    Explained around kind (performed around plan world).1 (performed around plan world).2.world := by
  have kept := keeps.reads (scanAccounts_reads around world) met
  unfold performed
  split
  next failure next failed =>
    rw [failed] at kept
    unfold scanAccounts at failed
    split at failed
    next => cases failed
    next refused =>
      cases failed
      exact .failed kept (.store (.accounts (congrArg Prod.fst refused)))
  next accounts next listed =>
    rw [listed] at kept
    exact visitAccounts_explained keeps accounts kept

variable {world : World} {failure : Failure} {account : String}

/-- What a run fails with has an origin. -/
theorem origin_of_run (keeps : around.Keeps kind) (met : kind world)
    (returned : (run around plan world).1 = .error failure) : Origin around kind failure := by
  rcases performed_of_run_error returned with failed | ⟨last, flushed⟩
  · exact (performed_explained keeps met).origin failure failed
  · exact .flush flushed

/-- What the pruning of an account fails with has an origin. -/
theorem origin_of_resolveAccount (keeps : around.Keeps kind) (met : kind world)
    (returned : (resolveAccount around plan account world).1 = .error failure) :
    Origin around kind failure :=
  (passAccount_explained keeps plan account met).origin failure (outcome_error returned)

theorem origin_of_runAccount (keeps : around.Keeps kind) (met : kind world)
    (returned : (runAccount around plan account world).1 = .error failure) :
    Origin around kind failure := by
  rcases finish_error returned with failed | flushed
  · exact origin_of_resolveAccount keeps met failed
  · exact .flush flushed

end Runs

end HostPruning.Pruning
