import HostPruning.CommandLine.Job
import HostPruning.Proofs.Furnishing
import HostPruning.Proofs.Origins
import HostPruning.Proofs.Refinement

/-!
# Settings that were validated do not fail later

Offsets are validated when settings are read, when a policy is stored, when a run begins and when it comes
to an account; the table checks them once more. `settings_stay_valid` puts the four together. Over any
operations on a migrated database a policy is taken exactly when its account has a name and it is sound,
the table never refuses one, and each account has the policy it was last given. So a run under settings
that were read finds nothing to object to: neither its own options nor any policy in its way.

One operation is put in `answer_policies`, and sequences of them follow by induction. That a run keeps
the policies is `around_keeps`, and with `Origin` this leaves no failure that is a defect of a setting.
-/

namespace HostPruning

open Pruning Database
open Lifecycle (Policy)

/-! ### Emitters -/

/-- An emitter that fails as emitters may: for an event with the host it was about, for a flush as a
flush. -/
structure Emitter.Proper {State : Type} (emitter : Emitter State) : Prop where
  emits : ∀ key event state failure, (emitter.emit key event state).1 = .error failure →
    ∃ fault, failure = .emission key fault
  flushes : ∀ state failure, (emitter.flush state).1 = .error failure → ∃ fault, failure = .flush fault

namespace Emitter

theorem proper_recorder : Rehearsal.Recorder.emitter.Proper where
  emits := by
    intro key event recorder failure refused
    unfold Rehearsal.Recorder.emitter Rehearsal.Recorder.emit at refused
    dsimp only at refused
    split at refused
    next => exact ⟨_, (Except.error.inj refused).symm⟩
    next => cases refused
  flushes := by
    rintro recorder failure ⟨⟩

theorem proper_journal : Events.Journal.emitter.Proper where
  emits := by
    intro key event journal failure refused
    unfold Events.Journal.emitter Events.Journal.emit at refused
    dsimp only at refused
    split at refused
    next => exact ⟨_, (Except.error.inj refused).symm⟩
    next =>
      split at refused
      next => exact ⟨_, (Except.error.inj refused).symm⟩
      next => cases refused
  flushes := by
    intro journal failure refused
    unfold Events.Journal.emitter Events.Journal.flush at refused
    dsimp only at refused
    split at refused
    next => exact ⟨_, (Except.error.inj refused).symm⟩
    next => cases refused

theorem proper_publisher (notices : List Events.Notice) :
    (⟨Events.Publisher.emit, Events.Publisher.flush notices⟩ : Emitter Events.Publisher).Proper where
  emits := by
    intro key event publisher failure refused
    unfold Events.Publisher.emit Events.Publisher.emitOver at refused
    dsimp only at refused
    split at refused
    next => exact ⟨_, (Except.error.inj refused).symm⟩
    next =>
      split at refused
      next => exact ⟨_, (Except.error.inj refused).symm⟩
      next => cases refused
  flushes := by
    intro publisher failure refused
    unfold Events.Publisher.flush at refused
    dsimp only at refused
    split at refused
    next => cases refused
    next =>
      split at refused
      next => cases refused
      next => exact ⟨_, (Except.error.inj refused).symm⟩

/-- The events of a job leave through emitters that are proper, whichever its outlet is. -/
theorem proper_outlet (notices : List Events.Notice) : (CommandLine.Outlet.emitter notices).Proper where
  emits := by
    intro key event outlet failure refused
    cases outlet with
    | nowhere => cases refused
    | journal path name lines => exact proper_journal.emits key event lines failure refused
    | broker publisher => exact (proper_publisher notices).emits key event publisher failure refused
  flushes := by
    intro outlet failure refused
    cases outlet with
    | nowhere => cases refused
    | journal path name lines => exact proper_journal.flushes lines failure refused
    | broker publisher => exact (proper_publisher notices).flushes publisher failure refused

end Emitter

/-! ### Failures of a database -/

namespace Database

theorem query_error {Result : Type} (ask : Database → Except DatabaseFault Result) {database : Database}
    {failure : Failure} (failed : (query ask database).1 = .error failure) :
    ∃ fault, failure = .storage (.database fault) := by
  unfold query at failed
  dsimp only at failed
  split at failed
  next => cases failed
  next =>
    cases failed
    exact ⟨_, rfl⟩

/-- A database that is part of a larger state fails with its own faults only. -/
theorem fault_of_fails {Whole : Type} {part : Whole → Database} {put : Database → Whole → Whole}
    {failure : Failure} (fails : (store.onPart part put).Fails failure) :
    ∃ fault, failure = .storage (.database fault) := by
  cases fails with
  | accounts answered => exact query_error accountNames answered
  | @page account after limit _ _ answered => exact query_error (loadPage account after limit) answered
  | @candidates account filter _ _ answered =>
      exact query_error (loadCandidates account filter) answered
  | @policy account _ _ answered =>
      exact query_error (fun database => (database.policyOf account).map (Option.map StoredPolicy.policy))
        answered
  | @delete id whole failure answered =>
      simp only [HostStore.onPart, Call.onPart, store] at answered
      split at answered
      next => cases answered
      next =>
        cases answered
        exact ⟨_, rfl⟩

variable {database next : Database} {account : String}

theorem policies_insertHost {host : Host} (taken : database.insertHost host = .ok next) :
    next.policies = database.policies := by
  obtain ⟨row, -, inserted⟩ := insertRow_of_insertHost taken
  cases stored : database.hosts with
  | none => simp [insertRow, stored] at inserted
  | some rows =>
      obtain ⟨-, rfl⟩ := fresh_of_insertRow stored inserted
      rfl

theorem policies_removeHost {id : HostId} {removal : Removal}
    (taken : database.removeHost id = .ok (removal, next)) : next.policies = database.policies := by
  unfold Database.removeHost at taken
  split at taken
  next => cases taken
  next =>
    split at taken
    · cases taken
      rfl
    · cases taken
      rfl

theorem policies_delete (id : HostId) (database : Database) :
    (store.delete id database).2.policies = database.policies := by
  simp only [store]
  split
  next removed => exact policies_removeHost removed
  next => rfl

/-- What this library makes of an empty database stores sound policies only. -/
theorem Reached.ruled (reached : Reached database) : database.Ruled := by
  induction reached with
  | empty => exact .of_none rfl
  | migrate _ ruled => exact ruled.congr (sameStored_migrate _).policies
  | schemaStatus _ ruled => exact ruled.congr rfl
  | insertHost _ taken ruled => exact ruled.congr (by rw [policies_insertHost taken])
  | importFile reached file content skipExisting ruled =>
      have migrated := ruled.congr (sameStored_migrate _).policies
      cases content with
      | none =>
          unfold Database.importFile
          split
          next same =>
            rw [same] at migrated
            exact migrated
          next same =>
            rw [same] at migrated
            exact migrated
      | some lines =>
          rcases importFile_cases reached.supported file skipExisting lines with
            ⟨-, fault, failed⟩ | ⟨added, summary, read, -⟩
          · rw [failed]
            exact migrated
          · rw [read]
            exact migrated.congr rfl
  | removeHost _ taken ruled => exact ruled.congr (by rw [policies_removeHost taken])
  | setPolicy _ taken ruled => exact ruled.setPolicy taken

end Database

/-! ### Policies over operations -/

namespace Operation

/-- The policy that an operation gave an account, if it was taken. -/
def given? (account : String) : Operation × Except Failure Answer → Option Policy
  | (.setPolicy other offsets _, .ok _) => if other = account then some offsets else none
  | _ => none

/-- The policy that the last operation gave an account among those that were taken. -/
def lastGiven? (account : String) (operations : List Operation) (answers : List (Except Failure Answer)) :
    Option Policy :=
  ((operations.zip answers).filterMap (given? account)).getLast?

end Operation

namespace Database

variable {database : Database}

/-- A policy that is taken is stored, and nothing else changes what policies there are. -/
theorem answer_policies (operation : Operation) (database : Database) :
    let result := stock.answer operation database
    (∃ account policy updatedAt, operation = .setPolicy account policy updatedAt ∧ result.1 = .ok .done ∧
        database.setPolicy account policy updatedAt = .ok result.2) ∨
      (∀ account, Operation.given? account (operation, result.1) = none) ∧
        result.2.policies = database.policies := by
  cases operation with
  | insert host =>
      refine Or.inr ⟨fun _ => rfl, ?_⟩
      simp only [Stock.answer, Call.told, stock, change]
      split
      next taken => exact policies_insertHost taken
      next => rfl
  | delete id => exact Or.inr ⟨fun _ => rfl, policies_delete id database⟩
  | setPolicy account policy updatedAt =>
      simp only [Stock.answer, Call.told, stock, change]
      split
      next taken => exact Or.inl ⟨account, policy, updatedAt, rfl, rfl, taken⟩
      next => exact Or.inr ⟨fun _ => rfl, rfl⟩
  | accounts => exact Or.inr ⟨fun _ => rfl, rfl⟩
  | page account after limit => exact Or.inr ⟨fun _ => rfl, rfl⟩
  | candidates account filter => exact Or.inr ⟨fun _ => rfl, rfl⟩
  | policy account => exact Or.inr ⟨fun _ => rfl, rfl⟩

/-- What operations make of the policies: there stays a table for them, each account has the one it was
last given, and they stay sound. -/
theorem answers_policies (operations : List Operation) (there : database.policies.isSome = true) :
    let past := stock.answers operations database
    past.2.policies.isSome = true ∧
      (∀ account, past.2.policy? account =
        (Operation.lastGiven? account operations past.1).or (database.policy? account)) ∧
      (database.Ruled → past.2.Ruled) := by
  induction operations generalizing database with
  | nil => exact ⟨there, fun _ => rfl, id⟩
  | cons operation rest inductionHypothesis =>
      simp only [Stock.answers, Operation.lastGiven?, List.zip_cons_cons, List.filterMap_cons]
      rcases answer_policies operation database with
        ⟨account, policy, updatedAt, rfl, answered, taken⟩ | ⟨nothing, same⟩
      · have thereStill : (stock.answer (.setPolicy account policy updatedAt) database).2.policies.isSome =
            true := by
          obtain ⟨-, -, table, -, stored⟩ := setPolicy_eq_ok_iff.1 taken
          rw [stored, Option.isSome_some]
        obtain ⟨thereAfter, settled, ruled⟩ := inductionHypothesis thereStill
        refine ⟨thereAfter, fun other => ?_, fun before => ruled (before.setPolicy taken)⟩
        rw [settled, policy?_setPolicy taken, answered]
        -- What is given now counts for its account unless the account is given a policy later.
        by_cases same : other = account
        · simp [Operation.given?, Operation.lastGiven?, same, List.getLast?_cons]
        · simp [Operation.given?, Operation.lastGiven?, same, Ne.symm same]
      · have thereStill : (stock.answer operation database).2.policies.isSome = true := by
          rw [same]
          exact there
        have kept : (stock.answer operation database).2.policies.getD ∅ = database.policies.getD ∅ := by
          rw [same]
        obtain ⟨thereAfter, settled, ruled⟩ := inductionHypothesis thereStill
        refine ⟨thereAfter, fun account => ?_, fun before => ruled (before.congr kept)⟩
        rw [settled, policy?_congr kept, nothing, Operation.lastGiven?]

/-- Whether setting a policy does all that it promises: it is taken exactly when its account has a name
and it is sound, never refused by the table, and what it does not set stays as it is. -/
structure Settles (account : String) (policy : Policy) (before : Database)
    (result : Except Failure Unit × Database) : Prop where
  taken : result.1.isOk = true ↔ Text.blank account = false ∧ policy.Sound
  unopposed : ∀ name, result.1 ≠ .error (.storage (.database (.policyRefused name)))
  stored : result.1.isOk = true → (store.policy account result.2).1 = .ok (some policy)
  refused : result.1.isOk = false → result.2 = before
  hosts : result.2.hosts = before.hosts
  others : ∀ other, other ≠ account → (store.policy other result.2).1 = (store.policy other before).1

theorem setPolicy_settles (there : database.policies.isSome = true) (account : String) (policy : Policy)
    (updatedAt : String) :
    Settles account policy database (stock.setPolicy account policy updatedAt database) := by
  simp only [stock, change]
  cases taken : database.setPolicy account policy updatedAt with
  | ok next =>
      obtain ⟨named, sound, table, -, rfl⟩ := setPolicy_eq_ok_iff.1 taken
      refine ⟨⟨fun _ => ⟨named, sound⟩, fun _ => rfl⟩, (by rintro name ⟨⟩), fun _ => ?_, (by rintro ⟨⟩),
        rfl, ?_⟩
      · rw [policy_store rfl, policy?_setPolicy taken, if_pos rfl]
      · intro other apart
        rw [policy_store rfl, policy_store there, policy?_setPolicy taken, if_neg apart]
  | error fault =>
      have refuses : ¬ (Text.blank account = false ∧ policy.Sound) := by
        rintro ⟨named, sound⟩
        obtain ⟨table, stored⟩ := Option.isSome_iff_exists.1 there
        rw [setPolicy_eq_ok_iff.2 ⟨named, sound, table, stored, rfl⟩] at taken
        cases taken
      refine ⟨⟨(by rintro ⟨⟩), fun right => absurd right refuses⟩, ?_, (by rintro ⟨⟩), fun _ => rfl, rfl,
        fun _ _ => rfl⟩
      rintro name ⟨⟩
      exact setPolicy_ne_policyRefused database account policy updatedAt name taken

end Database

/-! ### Runs -/

namespace Pruning

variable {World : Type}

/-- No call of a run brings in a policy. -/
theorem around_keeps (outside : Outside World) :
    (outside.around store).Keeps fun state => state.1.Ruled where
  reads := by
    intro before after reading ruled
    cases reading <;> exact ruled
  deletes id state ruled :=
    ruled.congr (congrArg (fun policies => policies.getD ∅) (policies_delete id state.1))
  emits _ _ _ ruled := ruled

theorem proper_around {outside : Outside World} (proper : outside.emitter.Proper) :
    (outside.around store).emitter.Proper where
  emits key event state failure refused := proper.emits key event state.2 failure refused
  flushes state failure refused := proper.flushes state.2 failure refused

theorem proper_listening {Mail : Type} {emitter : Emitter Mail} (proper : emitter.Proper)
    (signal : Nat → Mail → Bool) (eventTime : Nat → Mail → Moment) :
    (listening emitter signal eventTime).emitter.Proper where
  emits key event audience failure refused := proper.emits key event audience.mail failure refused
  flushes audience failure refused := proper.flushes audience.mail failure refused

/-- A defect of a setting that a run over a database ends with is one of a policy stored there. -/
theorem defect_of_origin {around : Surroundings World} {kind : World → Prop} {part : World → Database}
    {put : Database → World → World} (stored : around.store = store.onPart part put)
    (proper : around.emitter.Proper) {defect : SettingDefect}
    (origin : Origin around kind (.setting defect)) :
    ∃ account policy world, kind world ∧ (part world).policy? account = some policy ∧
      policy.validate = .error defect := by
  cases origin with
  | store fails =>
      rw [stored] at fails
      obtain ⟨fault, different⟩ := fault_of_fails fails
      cases different
  | @event _ key event world answered =>
      obtain ⟨fault, different⟩ := proper.emits key event world _ answered
      cases different
  | @flush _ world answered =>
      obtain ⟨fault, different⟩ := proper.flushes world _ answered
      cases different
  | @policy account policy _ world met answered invalid =>
      rw [stored] at answered
      exact ⟨account, policy, world, met, policy?_of_answered answered, invalid⟩

/-- Whether pruning, for all accounts or for any one, never ends with a defect of a setting. -/
structure Unopposed (around : Surroundings World) (plan : Plan) (world : World) : Prop where
  run : ∀ defect, (run around plan world).1 ≠ .error (.setting defect)
  account : ∀ account defect, (runAccount around plan account world).1 ≠ .error (.setting defect)
  accountOnly : ∀ account defect,
    (resolveAccount around plan account world).1 ≠ .error (.setting defect)

/-- Pruning a database that stores sound policies only is unopposed. -/
theorem unopposed_of_ruled {outside : Outside World} (proper : outside.emitter.Proper) (plan : Plan)
    {database : Database} (ruled : database.Ruled) (world : World) :
    Unopposed (outside.around store) plan (database, world) := by
  have blameless : ∀ defect,
      ¬ Origin (outside.around store) (fun state => state.1.Ruled) (.setting defect) := by
    intro defect origin
    obtain ⟨account, policy, state, met, stored, invalid⟩ :=
      defect_of_origin rfl (proper_around proper) origin
    rw [Policy.validate_eq_ok_iff.2 (met account policy stored)] at invalid
    cases invalid
  have keeps := around_keeps outside
  exact
    { run := fun defect ended => blameless defect (origin_of_run keeps ruled ended)
      account := fun _ defect ended => blameless defect (origin_of_runAccount keeps ruled ended)
      accountOnly := fun _ defect ended => blameless defect (origin_of_resolveAccount keeps ruled ended) }

/-- The options of a request and valid settings are refused for a page size of zero and for nothing else. -/
theorem validate_of_valid {settings : Settings} (valid : settings.validate = .ok ())
    (request : CommandLine.RunRequest) (now : Moment) (budget : Nat) :
    (⟨request.options settings, ⟨now, settings.policy⟩, budget⟩ : Plan).validate =
      if request.chunkSize = some 0 then .error .chunkSizeZero else .ok () := by
  unfold Settings.validate at valid
  split at valid
  next => cases valid
  next sized =>
    split at valid
    next => cases valid
    next ruled =>
      have positive : settings.chunkSize ≠ 0 := by
        intro zero
        simp [Options.validate, Settings.options, zero] at sized
      cases asked : request.chunkSize with
      | none => simp [Plan.validate, Options.validate, CommandLine.RunRequest.options, asked, positive, ruled]
      | some size =>
          by_cases zero : size = 0 <;>
            simp [Plan.validate, Options.validate, CommandLine.RunRequest.options, asked, zero, ruled]

end Pruning

/-- Over any operations on a migrated database, setting a policy settles it, and an account has the policy
it was last given, if any, or else the one it had. Where the policies that were there at first are sound,
as they are in all that this library makes of an empty database (`Reached.ruled`), settings that were read
never meet a defect again: a run under them, with any page size but zero, begins, and whatever it ends with
is no defect of a setting. -/
theorem settings_stay_valid {before : Database} (supported : before.Supported)
    (operations : List Operation) :
    let past := stock.answers operations before.migrate.2
    (∀ account policy updatedAt,
      Settles account policy past.2 (stock.setPolicy account policy updatedAt past.2)) ∧
    (∀ account, store.policy account past.2 =
      (.ok ((Operation.lastGiven? account operations past.1).or (before.policy? account)), past.2)) ∧
    (before.Ruled → ∀ {body : String} {settings : Settings}, Settings.ofText body = .ok settings →
      ∀ (request : CommandLine.RunRequest) (now : Moment) (budget : Nat), request.chunkSize ≠ some 0 →
        let plan : Plan := ⟨request.options settings, ⟨now, settings.policy⟩, budget⟩
        plan.validate = .ok () ∧
          ∀ {World : Type} (outside : Outside World) (world : World), outside.emitter.Proper →
            Unopposed (outside.around store) plan (past.2, world)) := by
  intro past
  have brought := supported.migrate.2
  have begun : before.migrate.2.policies.isSome = true := brought.policiesThere (by decide)
  obtain ⟨there, settled, ruledAfter⟩ := answers_policies operations begun
  refine ⟨setPolicy_settles there, fun account => ?_, ?_⟩
  · rw [policy_store there, settled, policy?_congr brought.policies]
  · intro ruled body settings read request now budget positive
    refine ⟨?_, fun outside world proper => ?_⟩
    · rw [validate_of_valid (Settings.validate_of_ofText read), if_neg positive]
    · exact unopposed_of_ruled proper _ (ruledAfter (ruled.congr brought.policies)) world

open Rehearsal in
/-- A policy that is given twice, one that is bounded by nothing but validation, and one for nobody: the
second counts. Settings with a page size and a policy of their own, under which a run asks for another
page size, and finds the policy that is stored. -/
theorem second_policy_stays :
    let sound (stale : Int) : Policy := ⟨⟨stale, stale, stale⟩, .edge⟩
    let operations := [.setPolicy "acct-1" (sound 60) "2026-01-01T00:00:00Z",
      .insert (Inventory.exampleHost ⟨1, by decide⟩ "acct-1" (.object [("fqdn", .string "node")]) 0),
      .setPolicy "acct-1" (sound 3600) "2026-01-02T00:00:00Z",
      .setPolicy "acct-1" (sound (greatestOffset + 1)) "2026-01-03T00:00:00Z",
      .setPolicy " " (sound 60) "2026-01-04T00:00:00Z"]
    let past := stock.answers operations Database.empty.migrate.2
    let body := "chunk_size: 7\nstaleness:\n  conventional:\n    time_to_stale: 60\n" ++
      "    time_to_stale_warning: 120\n    time_to_delete: 180\n"
    let settings : Settings := { Settings.standard with
      chunkSize := 7
      policy := ⟨⟨60, 120, 180⟩, .edge⟩ }
    let request : CommandLine.RunRequest := ⟨none, some 2, false, none, none, false⟩
    let plan : Plan := ⟨request.options settings, ⟨.ofUnixSeconds 0, settings.policy⟩, 3⟩
    let outside := recording (fun _ _ => false) fun _ _ => .ofUnixSeconds 0
    let audience : Audience Recorder := ⟨.start [] none, 0⟩
    past.1.map Except.isOk = [true, true, true, false, false] ∧
      store.policy "acct-1" past.2 = (.ok (some (sound 3600)), past.2) ∧
      Settings.ofText body = .ok settings ∧ plan.validate = .ok () ∧
      (run (outside.around store) plan (past.2, audience)).1.isOk = true ∧
      Unopposed (outside.around store) plan (past.2, audience) := by
  intro sound operations past body settings request plan outside audience
  have reached : Reached Database.empty := .empty
  have read : Settings.ofText body = .ok settings := by decide +kernel
  have proper : outside.emitter.Proper := proper_listening Emitter.proper_recorder _ _
  obtain ⟨-, stored, unopposed⟩ := settings_stay_valid reached.supported operations
  obtain ⟨begins, runs⟩ := unopposed reached.ruled read request (.ofUnixSeconds 0) 3 (by decide)
  have last : Operation.lastGiven? "acct-1" operations past.1 = some (sound 3600) := by decide +kernel
  have answered := stored "acct-1"
  rw [last] at answered
  exact ⟨by decide +kernel, answered, read, begins, by decide +kernel, runs outside audience proper⟩

end HostPruning
