import HostPruning.Pruning.Options
import HostPruning.Scan

/-!
# Pruning runs

A pass over an account scans its hosts. Each host that carries identity facts is asked
for the hosts of the account that its filter accepts; the newest of them survives and
every other one is removed, with one event for each removal. A stop signal is looked at
before each account and before each removal, so a run ends at a removal boundary.

Everything outside the decisions is one `Surroundings`: the store, the emitter, the stop
signal and the clock of the events, over one state. `Pass` records each decision with
the scanned host it rests on, which a dry run reaches too. A page budget bounds the scan
of an account; a store that stays unchanged needs one page more than it has hosts.
-/

namespace HostPruning.Pruning

/-- All that a run meets outside itself. -/
structure Surroundings (World : Type) where
  store : HostStore World
  emitter : Emitter World
  /-- Whether the run has been asked to stop. -/
  stopRequested : World → Bool × World
  /-- The moment written into an event. -/
  eventTime : World → Moment

/-- What a run is given: options, the clock of lifecycle states, and the number of pages an
account's scan may take. -/
structure Plan where
  options : Options
  clock : Lifecycle.Clock
  pageBudget : Nat

/-- Options and standard policy have to be valid. -/
def Plan.validate (plan : Plan) : Except SettingDefect Unit :=
  match plan.options.validate with
  | .error defect => .error defect
  | .ok () => plan.clock.policy.validate

/-- A host found to be a duplicate: the scanned host whose filter found it, and the host
kept in its place. -/
structure Decision where
  scanned : Host
  duplicate : Host
  survivor : Host

/-- A pass over one account, as far as it has come. -/
structure Pass (World : Type) where
  world : World
  /-- The duplicates found, which are left out wherever they turn up again. -/
  duplicates : List HostId
  summary : Summary
  /-- The decisions, first one first. -/
  decisions : List Decision
  /-- The decisions carried out: the store answered that it removed the duplicate. -/
  removals : List Decision

/-- How a part of a run ended. -/
inductive Ending where
  | completed
  | interrupted
  | failed (failure : Failure)

variable {World : Type}

/-- Replace the world of a pass. -/
def Pass.inWorld (pass : Pass World) (world : World) : Pass World := { pass with world := world }

/-- Change the counts of a pass. -/
def Pass.count (pass : Pass World) (change : Summary → Summary) : Pass World :=
  { pass with summary := change pass.summary }

/-- Note a decision. -/
def Pass.decide (pass : Pass World) (decision : Decision) : Pass World :=
  { pass with
    duplicates := decision.duplicate.id :: pass.duplicates
    decisions := pass.decisions ++ [decision]
    summary := { pass.summary with duplicatesFound := pass.summary.duplicatesFound + 1 } }

/-- Note that a decision was carried out. -/
def Pass.carryOut (pass : Pass World) (decision : Decision) : Pass World :=
  { pass with
    removals := pass.removals ++ [decision]
    summary := { pass.summary with hostsDeleted := pass.summary.hostsDeleted + 1 } }

/-- Hand over the event of a removal and count what came of it. -/
def publishRemoval (around : Surroundings World) (plan : Plan) (decision : Decision)
    (pass : Pass World) : Ending × Pass World :=
  let event := DeleteEvent.ofDuplicate decision.duplicate decision.survivor.id (around.eventTime pass.world)
  match around.emitter.emit decision.duplicate.id event pass.world with
  | (.ok (), world) =>
      (.completed, (pass.inWorld world).count fun summary =>
        { summary with eventsEmitted := summary.eventsEmitted + 1 })
  | (.error failure, world) =>
      let pass := (pass.inWorld world).count fun summary =>
        { summary with eventsFailed := summary.eventsFailed + 1 }
      match plan.options.emitFailure with
      | .continue => (.completed, pass)
      | .abort => (.failed failure, pass)

/-- Remove a duplicate. A dry run only decides. A host that somebody else removed first gets
no event. -/
def removeDuplicate (around : Surroundings World) (plan : Plan) (decision : Decision)
    (pass : Pass World) : Ending × Pass World :=
  let pass := pass.decide decision
  if plan.options.dryRun then (.completed, pass)
  else match around.store.delete decision.duplicate.id pass.world with
    | (.error failure, world) => (.failed failure, pass.inWorld world)
    | (.ok .notFound, world) => (.completed, pass.inWorld world)
    | (.ok .deleted, world) =>
        publishRemoval around plan decision ((pass.inWorld world).carryOut decision)

/-- Remove the duplicates of a survivor one after the other; the stop signal is looked at
before each. -/
def removeDuplicates (around : Surroundings World) (plan : Plan) (scanned survivor : Host) :
    List Host → Pass World → Ending × Pass World
  | [], pass => (.completed, pass)
  | duplicate :: rest, pass =>
      match around.stopRequested pass.world with
      | (true, world) =>
          (.interrupted, (pass.inWorld world).count fun summary => { summary with interrupted := true })
      | (false, world) =>
          match removeDuplicate around plan ⟨scanned, duplicate, survivor⟩ (pass.inWorld world) with
          | (.completed, pass) => removeDuplicates around plan scanned survivor rest pass
          | ended => ended

/-- The candidates a pass considers: those of its account that it has not found to be
duplicates. -/
def eligible (account : String) (duplicates : List HostId) (candidates : List Host) : List Host :=
  candidates.filter fun candidate => candidate.account = account && ! duplicates.contains candidate.id

/-- The candidates left when culled hosts are left alone. -/
def notCulled (clock : Lifecycle.Clock) (options : Options) (candidates : List Host) : List Host :=
  if options.excludeCulled then candidates.filter fun candidate => ! clock.isCulled candidate
  else candidates

/-- Deal with the candidates of a scanned host: the first in survivor order is kept. -/
def resolveCandidates (around : Surroundings World) (plan : Plan) (clock : Lifecycle.Clock)
    (account : String) (scanned : Host) (found : List Host) (pass : Pass World) :
    Ending × Pass World :=
  let candidates := eligible account pass.duplicates found
  let kept := notCulled clock plan.options candidates
  let pass := pass.count fun summary =>
    { summary with culledSkipped := summary.culledSkipped + (candidates.length - kept.length) }
  match inSurvivorOrder kept with
  | [] => (.completed, pass)
  | survivor :: duplicates => removeDuplicates around plan scanned survivor duplicates pass

/-- Visit one scanned host. One that was found to be a duplicate, has malformed facts or no
known facts removes nothing. -/
def visitHost (around : Surroundings World) (plan : Plan) (clock : Lifecycle.Clock)
    (account : String) (host : Host) (pass : Pass World) : Ending × Pass World :=
  let pass := pass.count fun summary => { summary with hostsScanned := summary.hostsScanned + 1 }
  if pass.duplicates.contains host.id then (.completed, pass)
  else match FactFilter.ofHostFacts host.facts with
    | .error _ =>
        (.completed, pass.count fun summary =>
          { summary with malformedSkipped := summary.malformedSkipped + 1 })
    | .ok none => (.completed, pass)
    | .ok (some (_, filter)) =>
        match around.store.candidates account filter pass.world with
        | (.error failure, world) => (.failed failure, pass.inWorld world)
        | (.ok found, world) =>
            resolveCandidates around plan clock account host found (pass.inWorld world)

/-- Visit the hosts of a page. -/
def visitPage (around : Surroundings World) (plan : Plan) (clock : Lifecycle.Clock)
    (account : String) : List Host → Pass World → Ending × Pass World
  | [], pass => (.completed, pass)
  | host :: rest, pass =>
      match visitHost around plan clock account host pass with
      | (.completed, pass) => visitPage around plan clock account rest pass
      | ended => ended

/-- Visit the hosts a scan has left, at most `budget` pages of them. -/
def visitPages (around : Surroundings World) (plan : Plan) (clock : Lifecycle.Clock)
    (account : String) : Nat → Scan → Pass World → Ending × Pass World
  | 0, _, pass => (.failed .pagesExhausted, pass)
  | budget + 1, scan, pass =>
      match scan.fetch around.store pass.world with
      | (.error failure, world) => (.failed failure, pass.inWorld world)
      | (.ok scan, world) =>
          match visitPage around plan clock account scan.buffer (pass.inWorld world) with
          | (.completed, pass) =>
              if scan.exhausted then (.completed, pass)
              else visitPages around plan clock account budget { scan with buffer := [] } pass
          | ended => ended

/-- A pass that has done nothing yet. -/
def Pass.start (plan : Plan) (world : World) : Pass World where
  world := world
  duplicates := []
  summary := { accountsProcessed := 1, dryRun := plan.options.dryRun }
  decisions := []
  removals := []

/-- The clock of an account: a stored policy takes the place of the standard one and has to
be valid. -/
def accountClock (around : Surroundings World) (plan : Plan) (account : String) :
    Call World Lifecycle.Clock := fun world =>
  match around.store.policy account world with
  | (.error failure, world) => (.error failure, world)
  | (.ok none, world) => (.ok plan.clock, world)
  | (.ok (some policy), world) =>
      match policy.validate with
      | .error defect => (.error (.setting defect), world)
      | .ok () => (.ok (plan.clock.withPolicy policy), world)

/-- A pass over one account. -/
def passAccount (around : Surroundings World) (plan : Plan) (account : String) (world : World) :
    Ending × Pass World :=
  match accountClock around plan account world with
  | (.error failure, world) => (.failed failure, Pass.start plan world)
  | (.ok clock, world) =>
      visitPages around plan clock account plan.pageBudget
        (Scan.start account plan.options.chunkSize) (Pass.start plan world)

/-- What an ended pass amounts to. -/
def Ending.outcome (summary : Summary) : Ending → Except Failure Summary
  | .failed failure => .error failure
  | _ => .ok summary

/-- Prune one account. Nothing is flushed. -/
def resolveAccount (around : Surroundings World) (plan : Plan) (account : String) :
    Call World Summary := fun world =>
  let (ending, pass) := passAccount around plan account world
  (ending.outcome pass.summary, pass.world)

/-- Flush after a failure; the failure counts, whatever the flush answers. -/
def flushAnyway (around : Surroundings World) (world : World) : World :=
  (around.emitter.flush world).2

/-- End a run: flush, and let the first failure count. -/
def finish (around : Surroundings World) (outcome : Except Failure Summary) :
    Call World Summary := fun world =>
  match outcome with
  | .error failure => (.error failure, flushAnyway around world)
  | .ok summary =>
      match around.emitter.flush world with
      | (.error failure, world) => (.error failure, world)
      | (.ok (), world) => (.ok summary, world)

/-- Prune one account, then flush. -/
def runAccount (around : Surroundings World) (plan : Plan) (account : String) :
    Call World Summary := fun world =>
  let (outcome, world) := resolveAccount around plan account world
  finish around outcome world

/-- A run over accounts, as far as it has come. -/
structure Progress (World : Type) where
  world : World
  summary : Summary
  decisions : List Decision
  removals : List Decision

/-- Take the result of a pass into a run. -/
def Progress.absorb (progress : Progress World) (pass : Pass World) : Progress World where
  world := pass.world
  summary := progress.summary.absorb pass.summary
  decisions := progress.decisions ++ pass.decisions
  removals := progress.removals ++ pass.removals

/-- Prune accounts one after the other; the stop signal is looked at before each. -/
def visitAccounts (around : Surroundings World) (plan : Plan) :
    List String → Progress World → Ending × Progress World
  | [], progress => (.completed, progress)
  | account :: rest, progress =>
      match around.stopRequested progress.world with
      | (true, world) =>
          (.interrupted,
            { progress with world := world, summary := { progress.summary with interrupted := true } })
      | (false, world) =>
          match passAccount around plan account world with
          | (.completed, pass) => visitAccounts around plan rest (progress.absorb pass)
          | (ending, pass) => (ending, progress.absorb pass)

/-- A run that has done nothing yet. -/
def Progress.start (plan : Plan) (world : World) : Progress World where
  world := world
  summary := { dryRun := plan.options.dryRun }
  decisions := []
  removals := []

/-- Prune every account in ascending order, then flush. Nothing is flushed when the accounts
cannot be listed. -/
def run (around : Surroundings World) (plan : Plan) : Call World Summary := fun world =>
  match scanAccounts around.store world with
  | (.error failure, world) => (.error failure, world)
  | (.ok accounts, world) =>
      let (ending, progress) := visitAccounts around plan accounts (Progress.start plan world)
      finish around (ending.outcome progress.summary) progress.world

end HostPruning.Pruning
