import HostPruning.Proofs.Conduct

/-!
# Two runs in lockstep

Two runs over different worlds do the same when their surroundings answer alike. A `Mirror` says
what that takes: a relation between worlds that every call a run makes keeps, and answers that
differ in nothing a run looks at. Hosts may be shown in another light, as long as all that
decides about them and all that is told of them stays (`Faithful`); moments count as instants.

There is one lemma for each function of a run, and `passAccount_alike` and `run_alike` put them
together. Nothing is said here about what the surroundings are: that is what a mirror is made of.
-/

namespace HostPruning

/-- Whether hosts may be shown in another light: all that a run goes by stays. -/
structure Faithful (seen : Host → Host) : Prop where
  id : ∀ host, (seen host).id = host.id
  account : ∀ host, (seen host).account = host.account
  displayName : ∀ host, (seen host).displayName = host.displayName
  reporter : ∀ host, (seen host).reporter = host.reporter
  kind : ∀ host, (seen host).kind = host.kind
  facts : ∀ host, (seen host).facts = host.facts
  modified : ∀ host, (seen host).modifiedOn.unixNanos = host.modifiedOn.unixNanos
  stale : ∀ host, (seen host).staleTimestamp = host.staleTimestamp

namespace Faithful

theorem unchanged : Faithful fun host => host := by
  constructor <;> exact fun _ => rfl

variable {seen : Host → Host} (faithful : Faithful seen)
include faithful

theorem survivorFirst_map (left right : Host) :
    survivorFirst (seen left) (seen right) = survivorFirst left right := by
  simp only [survivorFirst, Moment.lt_def, faithful.modified, faithful.id]

theorem insertSurvivor_map (host : Host) (hosts : List Host) :
    insertSurvivor (seen host) (hosts.map seen) = (insertSurvivor host hosts).map seen := by
  induction hosts with
  | nil => rfl
  | cons head rest inductionHypothesis =>
      simp only [List.map_cons, insertSurvivor, faithful.survivorFirst_map]
      split
      · rfl
      · rw [inductionHypothesis, List.map_cons]

/-- Hosts shown in another light come in the same order. -/
theorem inSurvivorOrder_map (hosts : List Host) :
    inSurvivorOrder (hosts.map seen) = (inSurvivorOrder hosts).map seen := by
  induction hosts with
  | nil => rfl
  | cons host rest inductionHypothesis =>
      have sorted : ∀ head tail, inSurvivorOrder (head :: tail) =
        insertSurvivor head (inSurvivorOrder tail) := fun _ _ => rfl
      rw [List.map_cons, sorted, sorted, inductionHypothesis, faithful.insertSurvivor_map]

theorem isCulled_map (clock : Lifecycle.Clock) (host : Host) :
    clock.isCulled (seen host) = clock.isCulled host := by
  simp only [Lifecycle.Clock.isCulled, faithful.stale, faithful.kind]

/-- The event of a removal tells the same. -/
theorem ofDuplicate_map (removed survivor : Host) (timestamp : Moment) :
    DeleteEvent.ofDuplicate (seen removed) (seen survivor).id timestamp =
      DeleteEvent.ofDuplicate removed survivor.id timestamp := by
  simp only [DeleteEvent.ofDuplicate, faithful.id, faithful.account, faithful.displayName,
    faithful.reporter, faithful.facts]

end Faithful

/-- Two calls that take worlds that are alike to worlds that are alike and answer the same in
translation. -/
def Call.Alike {World Other Answer Translated : Type} (alike : World → Other → Prop)
    (translate : Answer → Translated) (call : Call World Answer) (other : Call Other Translated) :
    Prop :=
  ∀ {world otherWorld}, alike world otherWorld →
    (other otherWorld).1 = (call world).1.map translate ∧
      alike (call world).2 (other otherWorld).2

namespace Pruning

variable {World Other : Type}

/-- A decision on hosts shown in another light. -/
def Decision.through (seen : Host → Host) (decision : Decision) : Decision :=
  ⟨seen decision.scanned, seen decision.duplicate, seen decision.survivor⟩

/-- Surroundings that answer a run under a plan alike. Pages are asked for in the size of the plan and hold
hosts of a kind only, and candidates are asked for by the filters of such hosts. -/
structure Mirror (plan : Plan) (around : Surroundings World) (other : Surroundings Other)
    (alike : World → Other → Prop) (seen : Host → Host) (kind : Host → Prop) : Prop where
  faithful : Faithful seen
  accounts : Call.Alike alike id around.store.accounts other.store.accounts
  pages : ∀ account after, Call.Alike alike (List.map seen)
    (around.store.page account after plan.options.chunkSize)
    (other.store.page account after plan.options.chunkSize)
  paged : ∀ account after {world otherWorld found}, alike world otherWorld →
    (around.store.page account after plan.options.chunkSize world).1 = .ok found → ∀ host ∈ found, kind host
  candidates : ∀ account {host basis filter}, kind host →
    FactFilter.ofHostFacts host.facts = .ok (some (basis, filter)) → Call.Alike alike (List.map seen)
      (around.store.candidates account filter) (other.store.candidates account filter)
  deletes : ∀ id, Call.Alike alike (fun removal => removal) (around.store.delete id)
    (other.store.delete id)
  policies : ∀ account, Call.Alike alike id (around.store.policy account) (other.store.policy account)
  emits : ∀ key event, Call.Alike alike id (around.emitter.emit key event)
    (other.emitter.emit key event)
  flushes : Call.Alike alike id around.emitter.flush other.emitter.flush
  stops : ∀ {world otherWorld}, alike world otherWorld →
    (other.stopRequested otherWorld).1 = (around.stopRequested world).1 ∧
      alike (around.stopRequested world).2 (other.stopRequested otherWorld).2
  times : ∀ {world otherWorld}, alike world otherWorld →
    other.eventTime otherWorld = around.eventTime world

/-- Passes that have come equally far. -/
structure Pass.Alike (alike : World → Other → Prop) (seen : Host → Host) (pass : Pass World)
    (other : Pass Other) : Prop where
  world : alike pass.world other.world
  duplicates : other.duplicates = pass.duplicates
  summary : other.summary = pass.summary
  decisions : other.decisions = pass.decisions.map (Decision.through seen)
  removals : other.removals = pass.removals.map (Decision.through seen)

/-- Parts of a pass that end alike. -/
structure Matched (alike : World → Other → Prop) (seen : Host → Host) (result : Ending × Pass World)
    (other : Ending × Pass Other) : Prop where
  ending : other.1 = result.1
  pass : result.2.Alike alike seen other.2

namespace Pass.Alike

variable {alike : World → Other → Prop} {seen : Host → Host} {pass : Pass World} {other : Pass Other}

theorem inWorld (same : pass.Alike alike seen other) {world : World} {otherWorld : Other}
    (worlds : alike world otherWorld) : (pass.inWorld world).Alike alike seen (other.inWorld otherWorld) :=
  ⟨worlds, same.duplicates, same.summary, same.decisions, same.removals⟩

theorem count (same : pass.Alike alike seen other) (change : Summary → Summary) :
    (pass.count change).Alike alike seen (other.count change) :=
  ⟨same.world, same.duplicates, congrArg change same.summary, same.decisions, same.removals⟩

theorem decide (same : pass.Alike alike seen other) (faithful : Faithful seen) (decision : Decision) :
    (pass.decide decision).Alike alike seen (other.decide (decision.through seen)) where
  world := same.world
  duplicates := by simp [Pass.decide, Decision.through, faithful.id, same.duplicates]
  summary := by simp [Pass.decide, same.summary]
  decisions := by simp [Pass.decide, same.decisions]
  removals := same.removals

theorem carryOut (same : pass.Alike alike seen other) (decision : Decision) :
    (pass.carryOut decision).Alike alike seen (other.carryOut (decision.through seen)) where
  world := same.world
  duplicates := same.duplicates
  summary := by simp [Pass.carryOut, same.summary]
  decisions := same.decisions
  removals := by simp [Pass.carryOut, same.removals]

/-- A part that only changed a pass has come to its end. -/
theorem ended (same : pass.Alike alike seen other) (ending : Ending) :
    Matched alike seen (ending, pass) (ending, other) :=
  ⟨rfl, same⟩

end Pass.Alike

/-- What goes on behind parts that match goes on behind both or behind none. -/
theorem Matched.andThen {alike : World → Other → Prop} {seen : Host → Host}
    {result : Ending × Pass World} {other : Ending × Pass Other}
    {next : Pass World → Ending × Pass World} {otherNext : Pass Other → Ending × Pass Other} :
    Matched alike seen result other →
      (∀ {pass otherPass}, pass.Alike alike seen otherPass →
        Matched alike seen (next pass) (otherNext otherPass)) →
      Matched alike seen
        (match result with
          | (.completed, pass) => next pass
          | ended => ended)
        (match other with
          | (.completed, pass) => otherNext pass
          | ended => ended) := by
  obtain ⟨ending, pass⟩ := result
  obtain ⟨otherEnding, otherPass⟩ := other
  rintro ⟨rfl, same⟩ onward
  cases otherEnding with
  | completed => exact onward same
  | interrupted => exact same.ended .interrupted
  | failed failure => exact same.ended (.failed failure)

section Passes

variable {plan : Plan} {around : Surroundings World} {other : Surroundings Other}
  {alike : World → Other → Prop} {seen : Host → Host} {kind : Host → Prop} {clock : Lifecycle.Clock}
  {account : String} {pass : Pass World} {otherPass : Pass Other}

theorem publishRemoval_alike (mirror : Mirror plan around other alike seen kind)
    (same : pass.Alike alike seen otherPass) (decision : Decision) :
    Matched alike seen (publishRemoval around plan decision pass)
      (publishRemoval other plan (decision.through seen) otherPass) := by
  have event : DeleteEvent.ofDuplicate (decision.through seen).duplicate
      (decision.through seen).survivor.id (other.eventTime otherPass.world) =
        DeleteEvent.ofDuplicate decision.duplicate decision.survivor.id
          (around.eventTime pass.world) := by
    rw [mirror.times same.world]
    exact mirror.faithful.ofDuplicate_map _ _ _
  have key : (decision.through seen).duplicate.id = decision.duplicate.id := mirror.faithful.id _
  unfold publishRemoval
  dsimp only
  rw [event, key]
  obtain ⟨answers, worlds⟩ := mirror.emits decision.duplicate.id (DeleteEvent.ofDuplicate
    decision.duplicate decision.survivor.id (around.eventTime pass.world)) same.world
  revert answers worlds
  cases around.emitter.emit decision.duplicate.id _ pass.world with
  | mk answer world =>
      cases other.emitter.emit decision.duplicate.id _ otherPass.world with
      | mk otherAnswer otherWorld =>
          rintro (rfl : otherAnswer = _) (worlds : alike world otherWorld)
          cases answer with
          | ok handed => exact ((same.inWorld worlds).count _).ended .completed
          | error failure =>
              cases plan.options.emitFailure with
              | «continue» => exact ((same.inWorld worlds).count _).ended .completed
              | abort => exact ((same.inWorld worlds).count _).ended (.failed failure)

theorem removeDuplicate_alike (mirror : Mirror plan around other alike seen kind)
    (same : pass.Alike alike seen otherPass) (decision : Decision) :
    Matched alike seen (removeDuplicate around plan decision pass)
      (removeDuplicate other plan (decision.through seen) otherPass) := by
  have decided := same.decide mirror.faithful decision
  have key : (decision.through seen).duplicate.id = decision.duplicate.id := mirror.faithful.id _
  unfold removeDuplicate
  dsimp only
  split
  next dry => exact decided.ended .completed
  next real =>
    rw [key]
    obtain ⟨answers, worlds⟩ := mirror.deletes decision.duplicate.id decided.world
    revert answers worlds
    cases around.store.delete decision.duplicate.id (pass.decide decision).world with
    | mk answer world =>
        cases other.store.delete decision.duplicate.id (otherPass.decide _).world with
        | mk otherAnswer otherWorld =>
            rintro (rfl : otherAnswer = _) (worlds : alike world otherWorld)
            have asked := decided.inWorld worlds
            cases answer with
            | error failure => exact asked.ended (.failed failure)
            | ok removal =>
                cases removal with
                | notFound => exact asked.ended .completed
                | deleted => exact publishRemoval_alike mirror (asked.carryOut decision) decision

theorem removeDuplicates_alike (mirror : Mirror plan around other alike seen kind)
    (scanned survivor : Host) {duplicates : List Host} (same : pass.Alike alike seen otherPass) :
    Matched alike seen (removeDuplicates around plan scanned survivor duplicates pass)
      (removeDuplicates other plan (seen scanned) (seen survivor) (duplicates.map seen)
        otherPass) := by
  induction duplicates generalizing pass otherPass with
  | nil => exact same.ended .completed
  | cons duplicate rest inductionHypothesis =>
      rw [List.map_cons]
      unfold removeDuplicates
      obtain ⟨answers, worlds⟩ := mirror.stops same.world
      revert answers worlds
      cases around.stopRequested pass.world with
      | mk stopped world =>
          cases other.stopRequested otherPass.world with
          | mk otherStopped otherWorld =>
              rintro (rfl : otherStopped = stopped) (worlds : alike world otherWorld)
              have asked := same.inWorld worlds
              cases otherStopped with
              | true => exact (asked.count _).ended .interrupted
              | false =>
                  have removed := removeDuplicate_alike mirror asked ⟨scanned, duplicate, survivor⟩
                  exact removed.andThen inductionHypothesis

theorem eligible_map (faithful : Faithful seen) (account : String) (duplicates : List HostId)
    (found : List Host) :
    eligible account duplicates (found.map seen) = (eligible account duplicates found).map seen := by
  simp only [eligible, List.filter_map, Function.comp_def, faithful.account, faithful.id]

theorem notCulled_map (faithful : Faithful seen) (clock : Lifecycle.Clock) (options : Options)
    (hosts : List Host) :
    notCulled clock options (hosts.map seen) = (notCulled clock options hosts).map seen := by
  unfold notCulled
  split
  · simp only [List.filter_map, Function.comp_def, faithful.isCulled_map]
  · rfl

theorem resolveCandidates_alike (mirror : Mirror plan around other alike seen kind) (scanned : Host)
    (found : List Host) (same : pass.Alike alike seen otherPass) :
    Matched alike seen (resolveCandidates around plan clock account scanned found pass)
      (resolveCandidates other plan clock account (seen scanned) (found.map seen) otherPass) := by
  unfold resolveCandidates
  dsimp only
  rw [same.duplicates, eligible_map mirror.faithful, notCulled_map mirror.faithful,
    mirror.faithful.inSurvivorOrder_map, List.length_map, List.length_map]
  have counted := same.count fun summary => { summary with
    culledSkipped := summary.culledSkipped + ((eligible account pass.duplicates found).length -
      (notCulled clock plan.options (eligible account pass.duplicates found)).length) }
  cases inSurvivorOrder (notCulled clock plan.options (eligible account pass.duplicates found)) with
  | nil => exact counted.ended .completed
  | cons survivor duplicates => exact removeDuplicates_alike mirror scanned survivor counted

theorem visitHost_alike (mirror : Mirror plan around other alike seen kind) (clock : Lifecycle.Clock)
    (account : String) {host : Host} (met : kind host) (same : pass.Alike alike seen otherPass) :
    Matched alike seen (visitHost around plan clock account host pass)
      (visitHost other plan clock account (seen host) otherPass) := by
  have counted := same.count fun summary => { summary with hostsScanned := summary.hostsScanned + 1 }
  unfold visitHost
  dsimp only
  rw [mirror.faithful.id, mirror.faithful.facts, counted.duplicates]
  split
  next found => exact counted.ended .completed
  next new =>
    cases made : FactFilter.ofHostFacts host.facts with
    | error defect => exact (counted.count _).ended .completed
    | ok chosen =>
        cases chosen with
        | none => exact counted.ended .completed
        | some basisAndFilter =>
            obtain ⟨basis, filter⟩ := basisAndFilter
            dsimp only
            obtain ⟨answers, worlds⟩ := mirror.candidates account met made counted.world
            revert answers worlds
            cases around.store.candidates account filter _ with
            | mk answer world =>
                cases other.store.candidates account filter _ with
                | mk otherAnswer otherWorld =>
                    rintro (rfl : otherAnswer = _) (worlds : alike world otherWorld)
                    have asked := counted.inWorld worlds
                    cases answer with
                    | error failure => exact asked.ended (.failed failure)
                    | ok found => exact resolveCandidates_alike mirror host found asked

theorem visitPage_alike (mirror : Mirror plan around other alike seen kind) (clock : Lifecycle.Clock)
    (account : String) {hosts : List Host} (met : ∀ host ∈ hosts, kind host)
    (same : pass.Alike alike seen otherPass) :
    Matched alike seen (visitPage around plan clock account hosts pass)
      (visitPage other plan clock account (hosts.map seen) otherPass) := by
  induction hosts generalizing pass otherPass with
  | nil => exact same.ended .completed
  | cons host rest inductionHypothesis =>
      rw [List.map_cons]
      unfold visitPage
      obtain ⟨first, later⟩ := List.forall_mem_cons.1 met
      have visited := visitHost_alike mirror clock account first same
      exact visited.andThen (inductionHypothesis later)

end Passes

end Pruning

/-! ### Scans and runs -/

/-- A scan whose buffered hosts are shown in another light. -/
def Scan.through (seen : Host → Host) (scan : Scan) : Scan :=
  { scan with buffer := scan.buffer.map seen }

theorem Scan.receive_through {seen : Host → Host} (faithful : Faithful seen) (scan : Scan)
    (page : List Host) :
    (scan.through seen).receive (page.map seen) = (scan.receive page).through seen := by
  simp [Scan.receive, Scan.through, faithful.id, Function.comp_def]

namespace Pruning

section Passes

variable {plan : Plan} {around : Surroundings World} {other : Surroundings Other}
  {alike : World → Other → Prop} {seen : Host → Host} {kind : Host → Prop} {clock : Lifecycle.Clock}
  {account : String} {pass : Pass World} {otherPass : Pass Other}

/-- The next pages of scans in lockstep. -/
theorem fetch_alike (mirror : Mirror plan around other alike seen kind) {scan : Scan}
    (sized : scan.chunkSize = plan.options.chunkSize) :
    Call.Alike alike (Scan.through seen) (scan.fetch around.store)
      ((scan.through seen).fetch other.store) := by
  intro world otherWorld worlds
  have paged := mirror.pages scan.account scan.fetched worlds
  rw [← sized] at paged
  obtain ⟨answers, onward⟩ := paged
  unfold Scan.fetch
  dsimp only [Scan.through]
  revert answers onward
  cases around.store.page scan.account scan.fetched scan.chunkSize world with
  | mk answer next =>
      cases other.store.page scan.account scan.fetched scan.chunkSize otherWorld with
      | mk otherAnswer otherNext =>
          rintro (rfl : otherAnswer = _) onward
          cases answer with
          | error failure => exact ⟨rfl, onward⟩
          | ok page => exact ⟨congrArg Except.ok (scan.receive_through mirror.faithful page), onward⟩

theorem chunkSize_fetch {store : HostStore World} {scan fetched : Scan} {world next : World}
    (answered : scan.fetch store world = (.ok fetched, next)) : fetched.chunkSize = scan.chunkSize := by
  unfold Scan.fetch at answered
  split at answered
  · cases answered
  · cases answered
    rfl

/-- A fetched page holds hosts of the kind, if the buffer did. -/
theorem paged_fetch (mirror : Mirror plan around other alike seen kind) {scan fetched : Scan}
    (sized : scan.chunkSize = plan.options.chunkSize) (waiting : ∀ host ∈ scan.buffer, kind host)
    {world next : World} {otherWorld : Other} (worlds : alike world otherWorld)
    (answered : scan.fetch around.store world = (.ok fetched, next)) : ∀ host ∈ fetched.buffer, kind host := by
  have paged := @Mirror.paged _ _ _ _ _ _ _ _ mirror scan.account scan.fetched world otherWorld
  rw [← sized] at paged
  unfold Scan.fetch at answered
  split at answered
  next => cases answered
  next page _ found =>
    cases answered
    intro host among
    rcases List.mem_append.1 among with before | new
    · exact waiting host before
    · exact paged worlds (congrArg Prod.fst found) host new

theorem visitPages_alike (mirror : Mirror plan around other alike seen kind) (clock : Lifecycle.Clock)
    (account : String) (budget : Nat) (scan : Scan) (sized : scan.chunkSize = plan.options.chunkSize)
    (waiting : ∀ host ∈ scan.buffer, kind host) (same : pass.Alike alike seen otherPass) :
    Matched alike seen (visitPages around plan clock account budget scan pass)
      (visitPages other plan clock account budget (scan.through seen) otherPass) := by
  induction budget generalizing scan pass otherPass with
  | zero => exact same.ended (.failed .pagesExhausted)
  | succ budget inductionHypothesis =>
      unfold visitPages
      obtain ⟨answers, worlds⟩ := fetch_alike mirror sized same.world
      revert answers worlds
      cases fetches : scan.fetch around.store pass.world with
      | mk answer world =>
          cases (scan.through seen).fetch other.store otherPass.world with
          | mk otherAnswer otherWorld =>
              rintro (rfl : otherAnswer = _) (worlds : alike world otherWorld)
              have asked := same.inWorld worlds
              cases answer with
              | error failure => exact asked.ended (.failed failure)
              | ok fetched =>
                  have met := paged_fetch mirror sized waiting same.world fetches
                  have visited := visitPage_alike mirror clock account met asked
                  have stillSized := (chunkSize_fetch fetches).trans sized
                  dsimp only [Except.map, Scan.through]
                  refine visited.andThen fun onward => ?_
                  split
                  · exact onward.ended .completed
                  · exact inductionHypothesis { fetched with buffer := [] } stillSized (by simp) onward

theorem accountClock_alike (mirror : Mirror plan around other alike seen kind) (account : String) :
    Call.Alike alike (fun clock => clock) (accountClock around plan account)
      (accountClock other plan account) := by
  intro world otherWorld worlds
  obtain ⟨answers, onward⟩ := mirror.policies account worlds
  unfold accountClock
  revert answers onward
  cases around.store.policy account world with
  | mk answer next =>
      cases other.store.policy account otherWorld with
      | mk otherAnswer otherNext =>
          rintro (rfl : otherAnswer = _) onward
          cases answer with
          | error failure => exact ⟨rfl, onward⟩
          | ok stored =>
              cases stored with
              | none => exact ⟨rfl, onward⟩
              | some policy =>
                  dsimp only [Except.map, id]
                  cases policy.validate with
                  | error defect => exact ⟨rfl, onward⟩
                  | ok => exact ⟨rfl, onward⟩

theorem Pass.Alike.start (plan : Plan) (seen : Host → Host) {world : World} {otherWorld : Other}
    (worlds : alike world otherWorld) :
    (Pass.start plan world).Alike alike seen (Pass.start plan otherWorld) :=
  ⟨worlds, rfl, rfl, rfl, rfl⟩

/-- Passes over an account in surroundings that answer alike end alike. -/
theorem passAccount_alike (mirror : Mirror plan around other alike seen kind) (account : String)
    {world : World} {otherWorld : Other} (worlds : alike world otherWorld) :
    Matched alike seen (passAccount around plan account world)
      (passAccount other plan account otherWorld) := by
  obtain ⟨answers, onward⟩ := accountClock_alike mirror account worlds
  unfold passAccount
  revert answers onward
  cases accountClock around plan account world with
  | mk answer next =>
      cases accountClock other plan account otherWorld with
      | mk otherAnswer otherNext =>
          rintro (rfl : otherAnswer = _) (onward : alike next otherNext)
          have begun := Pass.Alike.start plan seen onward
          cases answer with
          | error failure => exact begun.ended (.failed failure)
          | ok clock =>
              exact visitPages_alike mirror clock account plan.pageBudget
                (Scan.start account plan.options.chunkSize) rfl (by simp [Scan.start, Scan.startAfter]) begun

/-- Pruning one account comes to the same. -/
theorem resolveAccount_alike (mirror : Mirror plan around other alike seen kind) (account : String) :
    Call.Alike alike (fun summary => summary) (resolveAccount around plan account)
      (resolveAccount other plan account) := by
  intro world otherWorld worlds
  obtain ⟨ending, same⟩ := passAccount_alike mirror account worlds
  unfold resolveAccount
  dsimp only
  refine ⟨?_, same.world⟩
  rw [ending, same.summary]
  cases (passAccount around plan account world).1 <;> rfl

end Passes

/-! ### Runs -/

/-- Runs that have come equally far. -/
structure Progress.Alike (alike : World → Other → Prop) (seen : Host → Host)
    (progress : Progress World) (other : Progress Other) : Prop where
  world : alike progress.world other.world
  summary : other.summary = progress.summary
  decisions : other.decisions = progress.decisions.map (Decision.through seen)
  removals : other.removals = progress.removals.map (Decision.through seen)

section Runs

variable {plan : Plan} {around : Surroundings World} {other : Surroundings Other}
  {alike : World → Other → Prop} {seen : Host → Host} {kind : Host → Prop} {progress : Progress World}
  {otherProgress : Progress Other}

theorem Progress.Alike.absorb (same : progress.Alike alike seen otherProgress) {pass : Pass World}
    {otherPass : Pass Other} (passed : pass.Alike alike seen otherPass) :
    (progress.absorb pass).Alike alike seen (otherProgress.absorb otherPass) where
  world := passed.world
  summary := by simp [Progress.absorb, same.summary, passed.summary]
  decisions := by simp [Progress.absorb, same.decisions, passed.decisions]
  removals := by simp [Progress.absorb, same.removals, passed.removals]

theorem visitAccounts_alike (mirror : Mirror plan around other alike seen kind) (accounts : List String)
    (same : progress.Alike alike seen otherProgress) :
    (visitAccounts other plan accounts otherProgress).1 =
        (visitAccounts around plan accounts progress).1 ∧
      (visitAccounts around plan accounts progress).2.Alike alike seen
        (visitAccounts other plan accounts otherProgress).2 := by
  induction accounts generalizing progress otherProgress with
  | nil => exact ⟨rfl, same⟩
  | cons account rest inductionHypothesis =>
      unfold visitAccounts
      obtain ⟨answers, worlds⟩ := mirror.stops same.world
      revert answers worlds
      cases around.stopRequested progress.world with
      | mk stopped world =>
          cases other.stopRequested otherProgress.world with
          | mk otherStopped otherWorld =>
              rintro (rfl : otherStopped = stopped) (worlds : alike world otherWorld)
              cases otherStopped with
              | true => exact ⟨rfl, worlds, by rw [same.summary], same.decisions, same.removals⟩
              | false =>
                  have passed := passAccount_alike mirror account worlds
                  revert passed
                  dsimp only
                  cases passAccount around plan account world with
                  | mk ending pass =>
                      cases passAccount other plan account otherWorld with
                      | mk otherEnding otherPass =>
                          rintro ⟨rfl, onward⟩
                          have absorbed := same.absorb onward
                          cases otherEnding with
                          | completed => exact inductionHypothesis absorbed
                          | interrupted => exact ⟨rfl, absorbed⟩
                          | failed failure => exact ⟨rfl, absorbed⟩

theorem scanAccounts_alike (mirror : Mirror plan around other alike seen kind) :
    Call.Alike alike (fun accounts => accounts) (scanAccounts around.store)
      (scanAccounts other.store) := by
  intro world otherWorld worlds
  obtain ⟨answers, onward⟩ := mirror.accounts worlds
  unfold scanAccounts
  revert answers onward
  cases around.store.accounts world with
  | mk answer next =>
      cases other.store.accounts otherWorld with
      | mk otherAnswer otherNext =>
          rintro (rfl : otherAnswer = _) onward
          cases answer with
          | error failure => exact ⟨rfl, onward⟩
          | ok accounts => exact ⟨rfl, onward⟩

/-- Up to their flushes, runs in surroundings that answer alike do the same. -/
theorem performed_alike (mirror : Mirror plan around other alike seen kind) {world : World}
    {otherWorld : Other} (worlds : alike world otherWorld) :
    (performed other plan otherWorld).1 = (performed around plan world).1 ∧
      (performed around plan world).2.Alike alike seen (performed other plan otherWorld).2 := by
  obtain ⟨answers, onward⟩ := scanAccounts_alike mirror worlds
  unfold performed
  revert answers onward
  cases scanAccounts around.store world with
  | mk answer next =>
      cases scanAccounts other.store otherWorld with
      | mk otherAnswer otherNext =>
          rintro (rfl : otherAnswer = _) (onward : alike next otherNext)
          have begun : (Progress.start plan next).Alike alike seen (Progress.start plan otherNext) :=
            ⟨onward, rfl, rfl, rfl⟩
          cases answer with
          | error failure => exact ⟨rfl, begun⟩
          | ok accounts => exact visitAccounts_alike mirror _ begun

theorem finish_alike (mirror : Mirror plan around other alike seen kind)
    (outcome : Except Failure Summary) :
    Call.Alike alike (fun summary => summary) (finish around outcome) (finish other outcome) := by
  intro world otherWorld worlds
  obtain ⟨answers, onward⟩ := mirror.flushes worlds
  cases outcome with
  | error failure => exact ⟨rfl, onward⟩
  | ok summary =>
      unfold finish
      dsimp only
      revert answers onward
      cases around.emitter.flush world with
      | mk answer next =>
          cases other.emitter.flush otherWorld with
          | mk otherAnswer otherNext =>
              rintro (rfl : otherAnswer = _) onward
              cases answer with
              | error failure => exact ⟨rfl, onward⟩
              | ok flushed => exact ⟨rfl, onward⟩

/-- Runs in surroundings that answer alike return the same. -/
theorem run_alike (mirror : Mirror plan around other alike seen kind) :
    Call.Alike alike (fun summary => summary) (run around plan) (run other plan) := by
  intro world otherWorld worlds
  obtain ⟨answers, onward⟩ := scanAccounts_alike mirror worlds
  unfold run
  revert answers onward
  cases scanAccounts around.store world with
  | mk answer next =>
      cases scanAccounts other.store otherWorld with
      | mk otherAnswer otherNext =>
          rintro (rfl : otherAnswer = _) (onward : alike next otherNext)
          have begun : (Progress.start plan next).Alike alike seen (Progress.start plan otherNext) :=
            ⟨onward, rfl, rfl, rfl⟩
          cases answer with
          | error failure => exact ⟨rfl, onward⟩
          | ok accounts =>
              obtain ⟨ending, same⟩ := visitAccounts_alike mirror accounts begun
              dsimp only [Except.map]
              rw [ending, same.summary]
              exact finish_alike mirror _ same.world

/-- Pruning one account and flushing comes to the same. -/
theorem runAccount_alike (mirror : Mirror plan around other alike seen kind) (account : String) :
    Call.Alike alike (fun summary => summary) (runAccount around plan account)
      (runAccount other plan account) := by
  intro world otherWorld worlds
  obtain ⟨answers, onward⟩ := resolveAccount_alike mirror account worlds
  unfold runAccount
  dsimp only
  rw [answers]
  cases outcome : (resolveAccount around plan account world).1 with
  | error failure => exact finish_alike mirror (.error failure) onward
  | ok summary => exact finish_alike mirror (.ok summary) onward

end Runs

end Pruning

end HostPruning
