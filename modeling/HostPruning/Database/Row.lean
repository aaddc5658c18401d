import HostPruning.Host

/-!
# Host rows

A row holds a host as plain texts and one number: the identifier's text, the facts as
JSON text, the modification time in nanoseconds, the stale moment as RFC 3339 text.
Another program may have written it, so it is decoded when it is read, and every field
can turn out to be undecodable. What the table itself insists on is `HostRow.admissible`.
-/

namespace HostPruning.Database

/-- A row of the host table. -/
structure HostRow where
  id : String
  account : String
  displayName : Option String
  reporter : Option String
  kind : String
  facts : String
  modifiedNanos : Int
  staleText : String
deriving DecidableEq

namespace HostRow

/-- The table's notion of a blank account: trimmed of spaces alone, and counted up to the
first NUL character, nothing is left. -/
def blankAccount (account : String) : Bool :=
  ((Text.trimWhere (· = ' ') account.toList).takeWhile fun char => char.toNat ≠ 0).isEmpty

/-- The table's checks: an account, a known kind and facts that are JSON. -/
def admissible (row : HostRow) : Bool :=
  ! blankAccount row.account && (HostKind.parse row.kind).isSome &&
    (Json.readAs .stored row.facts).isSome

/-- The facts as the database's own JSON functions see them. -/
def stored (row : HostRow) : Json := (Json.readAs .stored row.facts).getD .null

/-- Decode the facts; facts that are not an object count as none, so that the row can still
be paged. -/
def decodeFacts (id : HostId) (text : String) : Except DatabaseFault Json.Members :=
  match Json.read text with
  | none => .error (.rowFacts id)
  | some (.object members) => .ok members
  | some _ => .ok []

/-- Decode a row. -/
def decode (row : HostRow) : Except DatabaseFault Host :=
  match HostId.parse row.id with
  | .error defect => .error (.rowId row.id defect)
  | .ok id =>
      match HostKind.parse row.kind with
      | none => .error (.rowKind row.kind)
      | some kind =>
          match decodeFacts id row.facts with
          | .error fault => .error fault
          | .ok facts =>
              match Time.parseRfc3339 row.staleText with
              | .error defect => .error (.rowTime row.staleText defect)
              | .ok staleTimestamp =>
                  .ok
                    { id
                      account := row.account
                      displayName := row.displayName
                      reporter := row.reporter
                      kind
                      facts
                      modifiedOn := Moment.ofUnixNanos row.modifiedNanos
                      staleTimestamp }

/-- Decode rows in order, up to the first that cannot be decoded. -/
def decodeAll : List HostRow → Except DatabaseFault (List Host)
  | [] => .ok []
  | row :: rest =>
      match row.decode with
      | .error fault => .error fault
      | .ok host => (decodeAll rest).map (host :: ·)

/-- The least and the greatest number of nanoseconds a row can hold. -/
def nanosBounds : Int × Int := (-(Width.half 64 : Int), Width.half 64 - 1)

/-- The row of a host. The host has to have an account, and its modification time has to fit
64 bits. -/
def ofHost (host : Host) : Except DatabaseFault HostRow :=
  match host.validate with
  | .error _ => .error (.noAccount host.id)
  | .ok () =>
      let nanos := host.modifiedOn.unixNanos
      if nanos < nanosBounds.1 ∨ nanosBounds.2 < nanos then .error (.modifiedOutOfRange host.id)
      else match Time.rfc3339 host.staleTimestamp with
        | none => .error .staleWithoutText
        | some staleText =>
            .ok
              { id := host.id.text
                account := host.account
                displayName := host.displayName
                reporter := host.reporter
                kind := host.kind.name
                facts := (Json.object host.facts).render
                modifiedNanos := nanos
                staleText }

end HostRow

end HostPruning.Database
