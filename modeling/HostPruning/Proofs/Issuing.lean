import HostPruning.Proofs.Conformance
import HostPruning.Proofs.Furnishing
import HostPruning.Proofs.Recording
import HostPruning.Proofs.Refinement
import HostPruning.Proofs.Tracing

/-!
# What a run writes into a journal

A run over a furnished database writes nothing into its journal but lines that honour the contract, one
a removed host, whatever its options are and whenever it is stopped (`run_honours`). `Issued` is the
invariant: the content of the journal is that of some proper envelopes, their keys are different, and
no key has a row left. Reading keeps it; a removal takes the row of the key before its envelope
is written, so the next envelope of that key never comes (`removeDuplicate_issues`).
-/

namespace HostPruning

namespace Events

/-! ### Sinks that never fail -/

namespace ByteSink

variable {sink : ByteSink} {bytes : List UInt8}

/-- Whether a sink refuses nothing. -/
structure Unfailing (sink : ByteSink) : Prop where
  roomy : sink.room = none
  flushes : sink.flushRefusal = none

/-- The bytes that were written, those that still wait among them. -/
def content (sink : ByteSink) : List UInt8 := sink.accepted ++ sink.waiting

/-- What comes of bytes that are taken in full. -/
structure Takes (sink : ByteSink) (bytes : List UInt8) (result : Bool × ByteSink) : Prop where
  all : result.1 = true
  unfailing : result.2.Unfailing
  content : result.2.content = sink.content ++ bytes

namespace Unfailing

theorem drain_eq (unfailing : sink.Unfailing) :
    sink.drain = (true, { sink with accepted := sink.content, waiting := [] }) := by
  obtain ⟨accepted, room, refusal, flushRefusal, bufferSize, waiting⟩ := sink
  obtain rfl : room = none := unfailing.roomy
  rfl

/-- Nothing waits after a flush. -/
theorem flush_eq (unfailing : sink.Unfailing) :
    sink.flush = (.ok (), { sink with accepted := sink.content, waiting := [] }) := by
  have flushes := unfailing.flushes
  unfold flush
  rw [unfailing.drain_eq]
  dsimp only
  rw [flushes]

/-- Bytes go past the buffer only when none wait in it. -/
theorem take (unfailing : sink.Unfailing)
    (idle : sink.bufferSize ≤ bytes.length → sink.waiting = [] ∨ bytes = []) :
    sink.Takes bytes (sink.take bytes) := by
  obtain ⟨accepted, room, refusal, flushRefusal, bufferSize, waiting⟩ := sink
  obtain rfl : room = none := unfailing.roomy
  have flushes : flushRefusal = none := unfailing.flushes
  unfold ByteSink.take
  split
  next large =>
    refine ⟨rfl, ⟨rfl, flushes⟩, ?_⟩
    rcases idle large with (rfl : waiting = []) | rfl <;> simp [arrive, ByteSink.content]
  next => exact ⟨rfl, ⟨rfl, flushes⟩, by simp [hold, ByteSink.content]⟩

theorem write (unfailing : sink.Unfailing) (bytes : List UInt8) : sink.Takes bytes (sink.write bytes) := by
  unfold ByteSink.write
  dsimp only
  split
  next => exact ⟨rfl, ⟨unfailing.roomy, unfailing.flushes⟩, by simp [hold, ByteSink.content]⟩
  next noSpare =>
    split
    next =>
      refine unfailing.take fun large => ?_
      rw [← List.length_eq_zero_iff, ← List.length_eq_zero_iff]
      omega
    next =>
      rw [unfailing.drain_eq]
      have drained : Unfailing { sink with accepted := sink.content, waiting := [] } :=
        ⟨unfailing.roomy, unfailing.flushes⟩
      obtain ⟨all, stays, content⟩ := @take _ bytes drained fun _ => Or.inl rfl
      exact ⟨all, stays, by simpa [ByteSink.content] using content⟩

theorem writeLine (unfailing : sink.Unfailing) (line : String) :
    sink.Takes (Text.utf8 line ++ [10]) (Journal.writeLine line sink) := by
  obtain ⟨all, stays, content⟩ := unfailing.write (Text.utf8 line)
  unfold Journal.writeLine
  cases written : sink.write (Text.utf8 line) with
  | mk went next =>
      rw [written] at all stays content
      obtain rfl : went = true := all
      obtain ⟨ended, last, whole⟩ := stays.write [10]
      exact ⟨ended, last, whole.trans (by rw [content, List.append_assoc])⟩

end Unfailing

end ByteSink

end Events

open Events Database

/-! ### What was written -/

/-- What stands in a journal once some envelopes were written into it: their lines, behind what stood
there before. The keys are those of different hosts, and none of these has a row left. -/
structure Issued (before : Journal) (issued : List Envelope) (rows : List HostRow) (journal : Journal) :
    Prop where
  authored : Authored rows
  unfailing : journal.sink.Unfailing
  content : journal.sink.content = before.sink.content ++ Journal.stream issued
  legible : ∀ envelope ∈ issued, envelope.text.isSome = true
  proper : ∀ envelope ∈ issued, envelope.Proper
  once : (issued.map Envelope.key).Nodup
  gone : ∀ envelope ∈ issued, hasId rows envelope.key.text = false

namespace Issued

variable {before journal : Journal} {issued : List Envelope} {rows fewer : List HostRow} {envelope : Envelope}

theorem start (authored : Authored rows) (unfailing : before.sink.Unfailing) : Issued before [] rows before where
  authored := authored
  unfailing := unfailing
  content := (List.append_nil _).symm
  legible := by simp
  proper := by simp
  once := List.nodup_nil
  gone := by simp

/-- Rows may go. -/
theorem sublist (held : Issued before issued rows journal) (within : fewer.Sublist rows) :
    Issued before issued fewer journal where
  authored := held.authored.sublist within
  unfailing := held.unfailing
  content := held.content
  legible := held.legible
  proper := held.proper
  once := held.once
  gone envelope among := by
    have absent := held.gone envelope among
    unfold hasId at absent ⊢
    rw [List.any_eq_false] at absent ⊢
    exact fun row present => absent row (within.subset present)

/-- What a line more makes of the journal, if its key is new and has no row. -/
theorem concat (held : Issued before issued rows journal) (proper : envelope.Proper)
    (fresh : envelope.key ∉ issued.map Envelope.key) (gone : hasId rows envelope.key.text = false)
    {line : String} (written : envelope.text = some line) {next : Journal}
    (unfailing : next.sink.Unfailing)
    (content : next.sink.content = journal.sink.content ++ (Text.utf8 line ++ [10])) :
    Issued before (issued ++ [envelope]) rows next where
  authored := held.authored
  unfailing := unfailing
  content := by
    rw [Journal.stream_append_some written, ← List.append_assoc, ← held.content]
    exact content
  legible := by
    rw [List.forall_mem_append]
    exact ⟨held.legible, by simp [written]⟩
  proper := by
    rw [List.forall_mem_append]
    exact ⟨held.proper, by simpa using proper⟩
  once := by
    rw [List.map_append, List.nodup_append]
    refine ⟨held.once, List.nodup_singleton _, ?_⟩
    rintro key among _ new rfl
    exact fresh (List.mem_singleton.1 new ▸ among)
  gone := by
    rw [List.forall_mem_append]
    exact ⟨held.gone, by simpa using gone⟩

/-- An envelope of a host without a row is written behind the others, or it has no text and nothing is
written. -/
theorem emit (held : Issued before issued rows journal) (proper : envelope.Proper)
    (fresh : envelope.key ∉ issued.map Envelope.key) (gone : hasId rows envelope.key.text = false) :
    (∃ failure, Journal.emit envelope.key envelope.event journal = (.error failure, journal)) ∨
      ∃ next, Journal.emit envelope.key envelope.event journal = (.ok (), next) ∧
        Issued before (issued ++ [envelope]) rows next := by
  unfold Journal.emit
  cases written : envelope.text with
  | none => exact Or.inl ⟨_, rfl⟩
  | some line =>
      obtain ⟨all, stays, content⟩ := held.unfailing.writeLine line
      cases went : Journal.writeLine line journal.sink with
      | mk whole sink =>
          rw [went] at all stays content
          obtain rfl : whole = true := all
          refine Or.inr ⟨⟨sink, journal.written + 1⟩, by dsimp only; rw [went], ?_⟩
          exact held.concat proper fresh gone written stays content

theorem nodup_keys (held : Issued before issued rows journal) :
    (issued.map fun envelope => envelope.key.text).Nodup := by
  have once := held.once.map fun _ _ same => HostId.text_injective same
  rwa [List.map_map] at once

end Issued

namespace Pruning

/-! ### Removals -/

/-- Surroundings of a run over a database that writes into a journal. The stop signal and the clock go by
the polls so far and by the journal. -/
def journaling (signal : Nat → Journal → Bool) (eventTime : Nat → Journal → Moment) :
    Surroundings (Database × Audience Journal) :=
  (listening Journal.emitter signal eventTime).around Database.store

/-- Whether so many envelopes were written into a journal, and the rows of their hosts are gone. -/
def Issues (before : Journal) (count : Nat) (world : Database × Audience Journal) : Prop :=
  ∃ issued, issued.length = count ∧ Issued before issued (world.1.hosts.getD []) world.2.mail

/-- The same of a pass, with the events of earlier ones. -/
def Pass.Issues (before : Journal) (earlier : Nat) (pass : Pass (Database × Audience Journal)) : Prop :=
  Pruning.Issues before (earlier + pass.summary.eventsEmitted) pass.world

variable {signal : Nat → Journal → Bool} {eventTime : Nat → Journal → Moment} {plan : Plan}
  {before : Journal} {earlier : Nat} {world next : Database × Audience Journal}
  {pass : Pass (Database × Audience Journal)} {decision : Decision} {account : String}

theorem Pass.Issues.count {change : Summary → Summary} (issues : pass.Issues before earlier)
    (unheard : ∀ summary : Summary, (change summary).outcome = summary.outcome) :
    (pass.count change).Issues before earlier := by
  have same : (change pass.summary).eventsEmitted = pass.summary.eventsEmitted :=
    congrArg (fun outcome => outcome.1.2.2.1) (unheard pass.summary)
  unfold Pass.Issues Pass.count
  rw [same]
  exact issues

theorem delete_journaling (id : HostId) :
    (journaling signal eventTime).store.delete id world =
      ((Database.store.delete id world.1).1, ((Database.store.delete id world.1).2, world.2)) := rfl

theorem emit_journaling (key : HostId) (event : DeleteEvent) :
    (journaling signal eventTime).emitter.emit key event world =
      ((Journal.emit key event world.2.mail).1,
        (world.1, world.2.put (Journal.emit key event world.2.mail).2)) := by
  simp only [journaling, Outside.around, listening, Call.onPart, Journal.emitter]

theorem flush_journaling :
    (journaling signal eventTime).emitter.flush world =
      ((Journal.flush world.2.mail).1, (world.1, world.2.put (Journal.flush world.2.mail).2)) := by
  simp only [journaling, Outside.around, listening, Call.onPart, Journal.emitter]

/-- Reading writes nothing and takes no row. -/
theorem Reading.unchanged (reading : Reading (journaling signal eventTime) world next) :
    next.1 = world.1 ∧ next.2.mail = world.2.mail := by
  cases reading <;> exact ⟨rfl, rfl⟩

theorem Reading.issues {count : Nat} (reading : Reading (journaling signal eventTime) world next)
    (issues : Issues before count world) : Issues before count next := by
  obtain ⟨database, mail⟩ := reading.unchanged
  unfold Issues
  rw [database, mail]
  exact issues

theorem proper_ofDuplicate {removed : Host} {survivor : HostId} (presentable : removed.Presentable)
    (other : survivor ≠ removed.id) (moment : Moment) :
    Envelope.Proper ⟨removed.id, .ofDuplicate removed survivor moment⟩ :=
  ⟨rfl, rfl, presentable.account, other, presentable.facts⟩

/-- Once the row of a duplicate is gone, its envelope is written, or nothing is. -/
theorem publishRemoval_issues {issued : List Envelope} (presentable : decision.duplicate.Presentable)
    (other : decision.survivor.id ≠ decision.duplicate.id)
    (counted : issued.length = earlier + pass.summary.eventsEmitted)
    (held : Issued before issued (pass.world.1.hosts.getD []) pass.world.2.mail)
    (fresh : decision.duplicate.id ∉ issued.map Envelope.key)
    (gone : hasId (pass.world.1.hosts.getD []) decision.duplicate.id.text = false) :
    (publishRemoval (journaling signal eventTime) plan decision pass).2.Issues before earlier := by
  have proper := proper_ofDuplicate presentable other ((journaling signal eventTime).eventTime pass.world)
  unfold publishRemoval
  dsimp only
  rw [emit_journaling]
  rcases held.emit proper fresh gone with ⟨failure, silent⟩ | ⟨next, written, grown⟩
  · dsimp only at silent
    rw [silent]
    cases plan.options.emitFailure <;> exact ⟨issued, counted, held⟩
  · dsimp only at written
    rw [written]
    refine ⟨_, ?_, grown⟩
    rw [List.length_append, counted]
    rfl

/-- A removal writes an envelope only if it took a row, so it is the first one of its key. -/
theorem removeDuplicate_issues (presentable : decision.duplicate.Presentable)
    (other : decision.survivor.id ≠ decision.duplicate.id)
    (issues : pass.Issues before earlier) :
    (removeDuplicate (journaling signal eventTime) plan decision pass).2.Issues before earlier := by
  unfold removeDuplicate
  dsimp only
  split
  next => exact issues
  next =>
    rw [delete_journaling]
    dsimp only [Pass.decide, Database.store]
    cases removed : pass.world.1.removeHost decision.duplicate.id with
    | error fault => exact issues
    | ok result =>
        obtain ⟨removal, database⟩ := result
        obtain ⟨issued, counted, held⟩ := issues
        obtain ⟨rows, present⟩ := removeHost_eq_ok removed
        have left := held.sublist (rows ▸ List.filter_sublist : (database.hosts.getD []).Sublist _)
        cases removal with
        | notFound => exact ⟨issued, counted, left⟩
        | deleted =>
            have gone : hasId (database.hosts.getD []) decision.duplicate.id.text = false := by
              rw [rows]
              exact hasId_filter_ne _ _
            have fresh : decision.duplicate.id ∉ issued.map Envelope.key := by
              intro among
              obtain ⟨envelope, there, same⟩ := List.mem_map.1 among
              have absent := held.gone envelope there
              rw [same, present.1 rfl] at absent
              cases absent
            exact publishRemoval_issues presentable other counted left fresh gone

theorem removeDuplicates_issues {scanned survivor : Host} {duplicates : List Host}
    (presentable : ∀ duplicate ∈ duplicates, duplicate.Presentable)
    (others : ∀ duplicate ∈ duplicates, survivor.id ≠ duplicate.id)
    (issues : pass.Issues before earlier) :
    (removeDuplicates (journaling signal eventTime) plan scanned survivor duplicates pass).2.Issues
      before earlier := by
  induction duplicates generalizing pass with
  | nil => exact issues
  | cons duplicate rest inductionHypothesis =>
      rw [List.forall_mem_cons] at presentable others
      have polled : Issues before _ ((journaling signal eventTime).stopRequested pass.world).2 :=
        (Reading.stop pass.world).issues issues
      unfold removeDuplicates
      split
      next world stopped =>
        rw [stopped] at polled
        exact polled
      next world goesOn =>
        rw [goesOn] at polled
        have removed := @removeDuplicate_issues signal eventTime plan before earlier
          (pass.inWorld world) ⟨scanned, duplicate, survivor⟩ presentable.1 others.1 polled
        split
        next after completed =>
          rw [completed] at removed
          exact inductionHypothesis presentable.2 others.2 removed
        next => exact removed

theorem loaded_of_candidates {filter : FactFilter} {found : List Host}
    (answered : (journaling signal eventTime).store.candidates account filter world = (.ok found, next)) :
    next.1.loadCandidates account filter = .ok found := by
  have same : next.1 = world.1 := (congrArg (fun result => result.2.1) answered).symm
  have answer : (query (Database.loadCandidates account filter) world.1).1 = .ok found :=
    congrArg Prod.fst answered
  rw [same]
  unfold query at answer
  cases loaded : world.1.loadCandidates account filter with
  | error fault =>
      rw [loaded] at answer
      cases answer
  | ok hosts =>
      rw [loaded] at answer
      exact congrArg Except.ok (Except.ok.inj answer)

/-- The database answers with different hosts, so a survivor is never among its duplicates. -/
theorem resolveCandidates_issues {clock : Lifecycle.Clock} {scanned : Host} {filter : FactFilter}
    {found : List Host}
    (answered : (journaling signal eventTime).store.candidates account filter world = (.ok found, pass.world))
    (issues : pass.Issues before earlier) :
    (resolveCandidates (journaling signal eventTime) plan clock account scanned found pass).2.Issues
      before earlier := by
  obtain ⟨distinct, presentable⟩ : DistinctIds found ∧ ∀ host ∈ found, host.Presentable := by
    obtain ⟨issued, -, held⟩ := issues
    exact authored_loadCandidates held.authored (loaded_of_candidates answered)
  have within : (notCulled clock plan.options (eligible account pass.duplicates found)).Sublist found :=
    (notCulled_sublist _ _ _).trans List.filter_sublist
  have apart := (distinct.sublist within).perm (inSurvivorOrder_perm _).symm
  unfold resolveCandidates
  dsimp only
  split
  next => exact issues
  next survivor duplicates sorted =>
    rw [sorted] at apart
    refine removeDuplicates_issues ?_ (List.pairwise_cons.1 apart).1 issues
    intro duplicate among
    have kept := mem_inSurvivorOrder.1 (sorted ▸ List.mem_cons_of_mem survivor among)
    exact presentable duplicate (within.subset kept)

/-! ### Runs -/

theorem passAccount_issues (issues : Issues before earlier world) :
    (passAccount (journaling signal eventTime) plan account world).2.Issues before earlier := by
  have carried : ∀ clock, Carried (journaling signal eventTime) plan clock account fun _ pass =>
      pass.Issues before earlier := fun clock =>
    { counts := fun unheard issues => issues.count unheard
      pages := fun scan issues => (fetch_reads (journaling signal eventTime) scan _).issues issues
      candidates := fun filter issues =>
        (@Reading.candidates _ (journaling signal eventTime) account filter _).issues issues
      resolves := resolveCandidates_issues
      exhausted := fun issues => issues }
  have read : Issues before earlier (accountClock (journaling signal eventTime) plan account world).2 :=
    (accountClock_reads _ plan account world).issues issues
  refine passAccount_carries (motive := fun _ pass => pass.Issues before earlier) ?_ ?_
  · intro clock next answered
    rw [answered] at read
    exact ⟨carried clock, read⟩
  · intro failure next failed
    rw [failed] at read
    exact read

theorem visitAccounts_issues {accounts : List String} {progress : Progress (Database × Audience Journal)}
    (issues : Issues before progress.summary.eventsEmitted progress.world) :
    let after := (visitAccounts (journaling signal eventTime) plan accounts progress).2
    Issues before after.summary.eventsEmitted after.world := by
  have kept : RunKept (journaling signal eventTime) plan fun progress =>
      Issues before progress.summary.eventsEmitted progress.world :=
    { reads := fun reading issues => reading.issues issues
      stops := fun issues => issues
      absorbs := passAccount_issues }
  exact visitAccounts_keeps kept issues

/-- What a run has written into a journal, given what stood there before. -/
structure Honoured (before : Journal) (result : Except Failure Summary × (Database × Audience Journal))
    (lines : List (List UInt8)) : Prop where
  written : result.2.2.mail.sink.content = before.sink.content ++ terminated lines
  /-- Nothing is left waiting in the journal. -/
  arrived : before.sink.waiting = [] → result.2.2.mail.sink.waiting = []
  unbroken : ∀ line ∈ lines, 10 ∉ line
  /-- Each line is that of an envelope as the contract has it, and no two have one key. -/
  conforms : ∃ keys : List String, keys.Nodup ∧ List.Forall₂ Contract.LineOf lines keys
  counted : ∀ summary, result.1 = .ok summary → lines.length = summary.eventsEmitted

/-- To finish is to let what waits arrive. -/
theorem finish_honoured {count : Nat} {outcome : Except Failure Summary} (issues : Issues before count world)
    (counted : ∀ summary, outcome = .ok summary → count = summary.eventsEmitted) :
    ∃ lines, Honoured before (finish (journaling signal eventTime) outcome world) lines := by
  obtain ⟨issued, length, held⟩ := issues
  have flushed : (finish (journaling signal eventTime) outcome world).2.2.mail.sink =
      { world.2.mail.sink with accepted := world.2.mail.sink.content, waiting := [] } := by
    rw [finish_world, flush_journaling]
    unfold Journal.flush
    rw [held.unfailing.flush_eq]
    rfl
  have lineOf := Journal.lines_lineOf held.legible held.proper
  refine ⟨Journal.lines issued, ?_, ?_, Journal.unbroken_lines, ⟨_, held.nodup_keys, lineOf⟩, ?_⟩
  · rw [flushed, ByteSink.content, List.append_nil]
    exact held.content
  · rw [flushed]
    exact fun _ => rfl
  · intro summary returned
    rw [lineOf.length_eq, List.length_map, length]
    exact counted summary (finish_ok returned)

/-- Whatever its options are and whenever it is stopped, a run over a furnished database writes into a
journal that does not fail nothing but lines that honour the contract, each of another key, and one for
every event it counts when it returns. -/
theorem run_honours (signal : Nat → Journal → Bool) (eventTime : Nat → Journal → Moment) (plan : Plan)
    {database : Database} (furnished : Furnished database) {journal : Journal}
    (unfailing : journal.sink.Unfailing) (polls : Nat) :
    (∃ lines, Honoured journal (run (journaling signal eventTime) plan (database, ⟨journal, polls⟩)) lines) ∧
      ∀ account, ∃ lines, Honoured journal
        (runAccount (journaling signal eventTime) plan account (database, ⟨journal, polls⟩)) lines := by
  have fresh : Issues journal 0 (database, ⟨journal, polls⟩) :=
    ⟨[], rfl, .start furnished.authored unfailing⟩
  constructor
  · unfold run
    have reading := scanAccounts_reads (journaling signal eventTime) (database, ⟨journal, polls⟩)
    split
    next failure world unlisted =>
      rw [unlisted] at reading
      have same : world.2.mail = journal := reading.unchanged.2
      refine ⟨[], ?_, ?_, by simp, ⟨[], List.nodup_nil, .nil⟩, by rintro _ ⟨⟩⟩
      · rw [same, terminated, List.flatMap_nil, List.append_nil]
      · rw [same]
        exact id
    next accounts world listed =>
      rw [listed] at reading
      have read := reading.issues fresh
      have visited := @visitAccounts_issues signal eventTime plan journal accounts (.start plan world) read
      refine finish_honoured visited fun summary returned => ?_
      rw [(outcome_ok returned).1]
  · intro account
    have passed := @passAccount_issues signal eventTime plan journal 0 _ account fresh
    refine finish_honoured passed fun summary returned => ?_
    exact (Nat.zero_add _).trans (congrArg Summary.eventsEmitted (outcome_ok returned).1.symm)

open Rehearsal in
/-- Two inserted hosts of one name, and a run that writes one line, past a buffer that is too small for
it. -/
theorem inserted_pair_honoured :
    let facts : Json := .object [("fqdn", .string "node")]
    let first := Inventory.exampleHost ⟨1, by decide⟩ "acct-1" facts 0
    let second := Inventory.exampleHost ⟨2, by decide⟩ "acct-1" facts 1
    let database := (Database.stock.answers [.insert first, .insert second] Database.empty.migrate.2).2
    let journal := Journal.onto ⟨[], none, "", none, 16, []⟩
    let around := journaling (fun _ _ => false) fun _ _ => .ofUnixSeconds 0
    let world : Database × Audience Journal := (database, ⟨journal, 0⟩)
    (Furnished database ∧ journal.sink.Unfailing) ∧
      (run around (calmPlan 1) world).1.toOption.map Summary.eventsEmitted = some 1 ∧
        (∃ lines, Honoured journal (run around (calmPlan 1) world) lines) ∧
          ∀ account, ∃ lines, Honoured journal (runAccount around (calmPlan 1) account world) lines := by
  intro facts first second database journal around world
  have furnished : Furnished database := .insert (.insert (.bare rfl) first) second
  have unfailing : journal.sink.Unfailing := ⟨rfl, rfl⟩
  have recordable : Json.Recordable Json.Dialect.records.depth facts := .object (by decide) (by
    simpa using Json.Recordable.string "node")
  have admitted : AllAllowed Operation.Admitted [.insert first, .insert second] Database.empty.migrate.2 :=
    ⟨.insert (by decide +kernel) recordable, .insert (by decide +kernel) recordable, trivial⟩
  have modest : (Inventory.stock.answers [.insert first, .insert second] Inventory.empty).2.Modest := by
    decide +kernel
  have represents := (answers_represented represents_empty admitted).2
  have same := (@samePruning_represented _
    (listening Journal.emitter (fun _ _ => false) fun _ _ => .ofUnixSeconds 0) (calmPlan 1) (by decide) _ _
    represents modest ⟨journal, 0⟩).run.summary
  refine ⟨⟨furnished, unfailing⟩, ?_, run_honours _ _ (calmPlan 1) furnished unfailing 0⟩
  have summary : (run around (calmPlan 1) world).1 = _ := same
  rw [summary]
  decide +kernel

end Pruning

end HostPruning
