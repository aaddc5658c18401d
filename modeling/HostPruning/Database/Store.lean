import HostPruning.Database.Schema
import HostPruning.Query.Compile
import HostPruning.Store

/-!
# The database as a host store

Rows are found by their texts: identifiers and accounts compare character by character,
candidates are chosen by a compiled condition. Direct calls report a `DatabaseFault`; the
host store wraps it as a storage failure.
-/

namespace HostPruning.Database

/-- The rows of the host table, or the fault that it is missing. -/
def rows (context : Option String) (database : Database) : Except DatabaseFault (List HostRow) :=
  match database.hosts with
  | some rows => .ok rows
  | none => .error (.tableMissing context "hosts")

/-- The number of hosts, when there is a table to count. -/
def hostCount? (database : Database) : Option Nat := database.hosts.map List.length

/-- Whether a row of an identifier is among some rows. -/
def hasId (rows : List HostRow) (id : String) : Bool := rows.any fun row => row.id = id

/-- Add a row; refused when the table is missing, a check fails or the identifier is there. -/
def insertRow (row : HostRow) (database : Database) : Option Database :=
  match database.hosts with
  | none => none
  | some rows =>
      if row.admissible && ! hasId rows row.id then some { database with hosts := some (rows ++ [row]) }
      else none

/-- Store a host. -/
def insertHost (host : Host) (database : Database) : Except DatabaseFault Database :=
  match HostRow.ofHost host with
  | .error fault => .error fault
  | .ok row =>
      match insertRow row database with
      | none => .error (.insertRefused host.id)
      | some database => .ok database

/-- Load a host. -/
def getHost (id : HostId) (database : Database) : Except DatabaseFault (Option Host) :=
  match database.rows (some ("failed to load host " ++ id.text)) with
  | .error fault => .error fault
  | .ok rows =>
      match rows.find? fun row => row.id = id.text with
      | none => .ok none
      | some row => row.decode.map some

/-- Whether a row comes before another by account and then by identifier. -/
def byAccount (left right : HostRow) : Bool :=
  left.account < right.account || (left.account = right.account && ! (right.id < left.id))

/-- Whether a row comes before another by identifier. -/
def byId (left right : HostRow) : Bool := ! (right.id < left.id)

/-- Whether a row comes before another by modification, latest first, and then by identifier,
largest first. -/
def byModification (left right : HostRow) : Bool :=
  right.modifiedNanos < left.modifiedNanos ||
    (left.modifiedNanos = right.modifiedNanos && ! (left.id < right.id))

/-- Load the hosts of one account, or of all, ordered by account and identifier. -/
def listHosts (account : Option String) (database : Database) : Except DatabaseFault (List Host) :=
  match database.rows none with
  | .error fault => .error fault
  | .ok rows =>
      HostRow.decodeAll <| (rows.filter fun row =>
        match account with
        | none => true
        | some wanted => row.account = wanted).mergeSort byAccount

/-- The accounts that own a row, ascending. -/
def accountNames (database : Database) : Except DatabaseFault (List String) :=
  (database.rows (some "failed to prepare account listing")).map fun rows =>
    ascendingDistinct (rows.map HostRow.account)

/-- The greatest page size a query can ask for. -/
def greatestLimit : Nat := Width.half 64 - 1

/-- Load the first hosts of an account whose identifier texts are above the cursor's. -/
def loadPage (account : String) (after : Option HostId) (limit : Nat) (database : Database) :
    Except DatabaseFault (List Host) :=
  if greatestLimit < limit then .error .pageTooLarge
  else match database.rows none with
    | .error fault => .error fault
    | .ok rows =>
        let wanted := rows.filter fun row =>
          row.account = account && (match after with
            | none => true
            | some cursor => cursor.text < row.id)
        HostRow.decodeAll ((wanted.mergeSort byId).take limit)

/-- The greatest depth of an expression that the database reads. -/
def greatestDepth : Nat := 1000

/-- The most values that the database takes for a query. -/
def greatestParameterCount : Nat := 32766

/-- The query for the hosts of an account that a condition selects. -/
def candidateQuery (condition : Query.Condition) : String :=
  "SELECT id, account, display_name, reporter, host_type, canonical_facts, " ++
    "modified_on_unix_ns, stale_timestamp FROM hosts\n             WHERE account = ? AND (" ++
    condition.text ++ ")\n             ORDER BY modified_on_unix_ns DESC, id DESC"

/-- Where the question mark of a query stands that has some others in front of it. -/
def offsetOfMark (others : Nat) (query : String) : Nat :=
  (query.toList.zipIdx.filterMap fun (char, place) => if char = '?' then some place else none).getD others 0

/-- Prepare the query of a condition, which the database reads only up to a depth, its counts below all the
rest, and only with so many values. The account is compared first and is one of the values. -/
def prepare (condition : Query.Condition) : Except DatabaseFault Unit :=
  if greatestDepth < condition.depth + 1 + condition.innerDepth then .error .expressionTooDeep
  else if greatestParameterCount < condition.holes + 1 then
    let query := candidateQuery condition
    .error (.tooManyParameters query (offsetOfMark greatestParameterCount query))
  else .ok ()

/-- Load the hosts of an account that a filter's condition selects. -/
def loadCandidates (account : String) (filter : FactFilter) (database : Database) :
    Except DatabaseFault (List Host) :=
  match Query.compile filter with
  | .error fault => .error fault
  | .ok clause =>
      match prepare clause.condition with
      | .error fault => .error fault
      | .ok () =>
          match database.rows (some "failed to prepare candidate query") with
          | .error fault => .error fault
          | .ok rows =>
              let wanted := rows.filter fun row => row.account = account && clause.selects row.stored
              HostRow.decodeAll (wanted.mergeSort byModification)

/-- Remove the row of an identifier. -/
def removeHost (id : HostId) (database : Database) : Except DatabaseFault (Removal × Database) :=
  match database.rows (some ("failed to delete host " ++ id.text)) with
  | .error fault => .error fault
  | .ok rows =>
      if hasId rows id.text then
        .ok (.deleted, { database with hosts := some (rows.filter fun row => row.id ≠ id.text) })
      else .ok (.notFound, database)

/-- The table of policies, or the fault that it is missing. -/
def policyTable (context : Option String) (database : Database) :
    Except DatabaseFault (Table String StoredPolicy) :=
  match database.policies with
  | some table => .ok table
  | none => .error (.tableMissing context "account_staleness")

/-- Put the row of an account into the table, in place of the one it has; refused when a check fails. -/
def upsertPolicy (account : String) (stored : StoredPolicy) (table : Table String StoredPolicy) :
    Option (Table String StoredPolicy) :=
  if stored.admissible then some (table.insert account stored) else none

/-- Store or replace the policy of an account. It is validated before the table sees it. -/
def setPolicy (account : String) (policy : Lifecycle.Policy) (updatedAt : String)
    (database : Database) : Except DatabaseFault Database :=
  if Text.blank account then .error .blankAccount
  else match policy.validate with
    | .error defect => .error (.invalidLifecycle defect)
    | .ok () =>
        match database.policyTable (some ("failed to store staleness for account " ++ account)) with
        | .error fault => .error fault
        | .ok table =>
            match upsertPolicy account ⟨policy, updatedAt⟩ table with
            | none => .error (.policyRefused account)
            | some table => .ok { database with policies := some table }

/-- The policy stored for an account. -/
def policyOf (account : String) (database : Database) : Except DatabaseFault (Option StoredPolicy) :=
  (database.policyTable (some ("failed to load staleness for account " ++ account))).map fun table =>
    table.get? account

/-- All stored policies, ascending by account. -/
def listPolicies (database : Database) : Except DatabaseFault (List (String × StoredPolicy)) :=
  (database.policyTable none).map Table.entries

/-- Encode a stored policy. -/
def policyToJson (account : String) (stored : StoredPolicy) : Json :=
  .object
    [("account", .string account), ("staleness", stored.policy.toJson),
     ("updated_at", .string stored.updatedAt)]

/-- A query as a call of the host store. -/
def query (answer : Database → Except DatabaseFault Answer) : Call Database Answer := fun database =>
  (match answer database with
    | .ok value => .ok value
    | .error fault => .error (.storage (.database fault)), database)

/-- The database as a host store. -/
def store : HostStore Database where
  accounts := query accountNames
  page account after limit := query (loadPage account after limit)
  candidates account filter := query (loadCandidates account filter)
  delete id database :=
    match database.removeHost id with
    | .ok (removal, database) => (.ok removal, database)
    | .error fault => (.error (.storage (.database fault)), database)
  policy account := query fun database =>
    (database.policyOf account).map fun stored => stored.map StoredPolicy.policy

end HostPruning.Database
