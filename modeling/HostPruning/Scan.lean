import HostPruning.Store

/-!
# Scanning an account

A scan walks one account in ascending order of identifiers, a bounded page at a time.
Pages are keyed on the last identifier fetched, so hosts deleted behind the cursor never
shift a later page. A page shorter than asked for ends the scan without another query.
`Scan.next` hands out one host at a time; `Scan.fetch` is the page query it rests on,
which a pruning pass uses directly.
-/

namespace HostPruning

/-- A scan in progress. -/
structure Scan where
  account : String
  chunkSize : Nat
  /-- The last identifier fetched. -/
  fetched : Option HostId
  /-- The last identifier handed out, or the one the scan started after. -/
  cursor : Option HostId
  /-- Hosts fetched and not handed out yet. -/
  buffer : List Host
  exhausted : Bool
  pages : Nat

namespace Scan

/-- A scan of the hosts above a cursor. -/
def startAfter (account : String) (chunkSize : Nat) (cursor : Option HostId) : Scan where
  account := account
  chunkSize := chunkSize
  fetched := cursor
  cursor := cursor
  buffer := []
  exhausted := false
  pages := 0

/-- A scan of all hosts of an account. -/
def start (account : String) (chunkSize : Nat) : Scan := startAfter account chunkSize none

/-- The scan after a page has arrived. -/
def receive (scan : Scan) (page : List Host) : Scan :=
  { scan with
    pages := scan.pages + 1
    exhausted := scan.exhausted || page.length < scan.chunkSize
    fetched := (page.getLast?.map Host.id).orElse fun _ => scan.fetched
    buffer := scan.buffer ++ page }

/-- Query the next page. -/
def fetch {State : Type} (store : HostStore State) (scan : Scan) (state : State) :
    Except Failure Scan × State :=
  match store.page scan.account scan.fetched scan.chunkSize state with
  | (.error failure, state) => (.error failure, state)
  | (.ok page, state) => (.ok (scan.receive page), state)

/-- Hand out the first buffered host. -/
def pop (scan : Scan) : Option Host × Scan :=
  match scan.buffer with
  | [] => (none, scan)
  | host :: rest => (some host, { scan with buffer := rest, cursor := some host.id })

/-- Hand out the next host, none at the end. A failed query ends the scan. -/
def next {State : Type} (store : HostStore State) (scan : Scan) (state : State) :
    Except Failure (Option Host) × Scan × State :=
  if ! scan.buffer.isEmpty then
    let (host, scan) := scan.pop
    (.ok host, scan, state)
  else if scan.exhausted then (.ok none, scan, state)
  else match scan.fetch store state with
    | (.error failure, state) => (.error failure, { scan with exhausted := true }, state)
    | (.ok scan, state) =>
        let (host, scan) := scan.pop
        (.ok host, scan, state)

/-- Hand out what is left of a scan, up to the first failure. The budget bounds the number
of hosts and queries. -/
def drain {State : Type} (store : HostStore State) :
    Nat → Scan → State → List (Except Failure Host) × Scan × State
  | 0, scan, state => ([], scan, state)
  | budget + 1, scan, state =>
      match scan.next store state with
      | (.error failure, scan, state) =>
          let (rest, scan, state) := drain store budget scan state
          (.error failure :: rest, scan, state)
      | (.ok none, scan, state) => ([], scan, state)
      | (.ok (some host), scan, state) =>
          let (rest, scan, state) := drain store budget scan state
          (.ok host :: rest, scan, state)

end Scan

/-- The accounts of a store, ascending and each once. -/
def scanAccounts {State : Type} (store : HostStore State) : Call State (List String) := fun state =>
  match store.accounts state with
  | (.ok accounts, state) => (.ok (ascendingDistinct accounts), state)
  | (.error failure, state) => (.error failure, state)

end HostPruning
