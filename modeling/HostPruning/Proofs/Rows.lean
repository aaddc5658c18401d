import HostPruning.Proofs.Identifiers
import HostPruning.Proofs.Lockstep
import HostPruning.Proofs.Printing
import HostPruning.Proofs.Timestamps

/-!
# Hosts and their rows

A host that a database takes is written into a row and read back from it as it was, but for the
offset of its modification time: a row keeps the instant alone, so the host comes back with
that moment in UTC (`decode_written`). Nothing a run goes by is lost (`Host.faithful_inUtc`).
-/

namespace HostPruning

/-- The host with its modification time in UTC. -/
def Host.inUtc (host : Host) : Host :=
  { host with modifiedOn := Moment.ofUnixNanos host.modifiedOn.unixNanos }

theorem Host.faithful_inUtc : Faithful Host.inUtc where
  id _ := rfl
  account _ := rfl
  displayName _ := rfl
  reporter _ := rfl
  kind _ := rfl
  facts _ := rfl
  modified host := by simp [inUtc, Moment.ofUnixNanos, Moment.unixNanos]
  stale _ := rfl

theorem HostKind.parse_name (kind : HostKind) : HostKind.parse kind.name = some kind := by
  cases kind <;> rfl

namespace Database

/-- Whether a host comes back from its row: its facts are ones that a record can hold, and its stale
moment has a text. -/
structure Restorable (host : Host) : Prop where
  facts : Json.Recordable Json.Dialect.records.depth (.object host.facts)
  stale : (Time.rfc3339 host.staleTimestamp).isSome = true

namespace HostRow

/-- The row of a host whose stale moment has a text. -/
def written (host : Host) : HostRow where
  id := host.id.text
  account := host.account
  displayName := host.displayName
  reporter := host.reporter
  kind := host.kind.name
  facts := (Json.object host.facts).render
  modifiedNanos := host.modifiedOn.unixNanos
  staleText := (Time.rfc3339 host.staleTimestamp).getD ""

@[simp]
theorem id_written (host : Host) : (written host).id = host.id.text := rfl

@[simp]
theorem account_written (host : Host) : (written host).account = host.account := rfl

@[simp]
theorem modifiedNanos_written (host : Host) :
    (written host).modifiedNanos = host.modifiedOn.unixNanos := rfl

theorem ofHost_eq_ok {host : Host} {row : HostRow} (taken : ofHost host = .ok row) :
    row = written host ∧ (Time.rfc3339 host.staleTimestamp).isSome = true := by
  unfold ofHost at taken
  split at taken
  · cases taken
  · dsimp only at taken
    split at taken
    · cases taken
    · split at taken
      next => cases taken
      next staleText found =>
        refine ⟨?_, by rw [found]; rfl⟩
        rw [← Except.ok.inj taken, written, found]
        rfl

/-- A row is decoded field by field. -/
theorem decode_eq_ok {row : HostRow} {id : HostId} {kind : HostKind} {facts : Json.Members}
    {staleTimestamp : Moment} (idRead : HostId.parse row.id = .ok id)
    (kindRead : HostKind.parse row.kind = some kind) (factsRead : decodeFacts id row.facts = .ok facts)
    (staleRead : Time.parseRfc3339 row.staleText = .ok staleTimestamp) :
    row.decode = .ok
      { id, account := row.account, displayName := row.displayName, reporter := row.reporter, kind, facts
        modifiedOn := Moment.ofUnixNanos row.modifiedNanos, staleTimestamp } := by
  simp only [decode, idRead, kindRead, factsRead, staleRead]

variable {host : Host}

theorem decodeFacts_render {facts : Json.Members}
    (recordable : Json.Recordable Json.Dialect.records.depth (.object facts)) (id : HostId) :
    decodeFacts id (Json.object facts).render = .ok facts := by
  rw [decodeFacts, Json.read_render recordable]

/-- A host is read back from its row, its modification time in UTC. -/
theorem decode_written (restorable : Restorable host) : (written host).decode = .ok host.inUtc := by
  obtain ⟨staleText, stale⟩ := Option.isSome_iff_exists.1 restorable.stale
  have staleRead : Time.parseRfc3339 (written host).staleText = .ok host.staleTimestamp := by
    simp only [written, stale, Option.getD_some]
    exact Time.parseRfc3339_rfc3339 stale
  exact decode_eq_ok (HostId.parse_text host.id) (HostKind.parse_name host.kind)
    (decodeFacts_render restorable.facts host.id) staleRead

theorem decodeAll_written {hosts : List Host} (restorable : ∀ host ∈ hosts, Restorable host) :
    decodeAll (hosts.map written) = .ok (hosts.map Host.inUtc) := by
  induction hosts with
  | nil => rfl
  | cons host rest inductionHypothesis =>
      have first := decode_written (restorable host List.mem_cons_self)
      have later := inductionHypothesis fun other among => restorable other (List.mem_cons_of_mem _ among)
      rw [List.map_cons, decodeAll, first]
      dsimp only
      rw [later]
      rfl

/-- The database sees the facts of a host in its row. -/
theorem stored_written (restorable : Restorable host) : (written host).stored = .object host.facts := by
  have read := Json.readAs_widen Json.records_within_stored (Json.readAs_render restorable.facts)
  simp [stored, written, read]

end HostRow

end Database

end HostPruning
