import HostPruning.Store

/-!
# The inventory in memory

An inventory keeps its hosts in ascending order of their identifiers and evaluates
filters by their meaning. It validates nothing. It is the reference that a persistent
store is compared with.
-/

namespace HostPruning

/-- Hosts by identifier, lifecycle policies by account, and the sizes of the pages
answered so far. -/
structure Inventory where
  hosts : List Host
  ascending : hosts.Pairwise (fun earlier later => earlier.id < later.id)
  policies : Table String Lifecycle.Policy
  pageSizes : List Nat

namespace Inventory

/-- The inventory without hosts. -/
def empty : Inventory := ⟨[], .nil, ∅, []⟩

instance : Inhabited Inventory := ⟨empty⟩

/-- Put a host at its place, replacing the one of the same identifier. -/
def insertHost (host : Host) : List Host → List Host
  | [] => [host]
  | head :: rest =>
      if host.id < head.id then host :: head :: rest
      else if host.id = head.id then host :: rest
      else head :: insertHost host rest

/-- Every host after an insertion is the inserted one or was there before. -/
theorem mem_insertHost {host member : Host} {hosts : List Host}
    (present : member ∈ insertHost host hosts) : member = host ∨ member ∈ hosts := by
  induction hosts with
  | nil => simpa [insertHost] using present
  | cons head rest inductionHypothesis =>
      simp only [insertHost] at present
      split at present
      · simpa using present
      · split at present
        · rcases List.mem_cons.1 present with same | later
          · exact Or.inl same
          · exact Or.inr (List.mem_cons_of_mem _ later)
        · rcases List.mem_cons.1 present with same | later
          · exact Or.inr (same ▸ List.mem_cons_self)
          · exact (inductionHypothesis later).imp id (List.mem_cons_of_mem _)

/-- Insertion keeps the order. -/
theorem insertHost_ascending (host : Host) {hosts : List Host}
    (ascending : hosts.Pairwise fun earlier later => earlier.id < later.id) :
    (insertHost host hosts).Pairwise fun earlier later => earlier.id < later.id := by
  induction hosts with
  | nil => simp [insertHost]
  | cons head rest inductionHypothesis =>
      obtain ⟨headFirst, restAscending⟩ := List.pairwise_cons.1 ascending
      simp only [insertHost]
      split
      case isTrue before =>
        refine List.pairwise_cons.2 ⟨?_, ascending⟩
        intro member present
        rcases List.mem_cons.1 present with same | later
        · exact same ▸ before
        · exact AscendingKey.trans before (headFirst member later)
      case isFalse notBefore =>
        split
        case isTrue same =>
          exact List.pairwise_cons.2 ⟨fun member present => same ▸ headFirst member present, restAscending⟩
        case isFalse different =>
          refine List.pairwise_cons.2 ⟨?_, inductionHypothesis restAscending⟩
          intro member present
          rcases mem_insertHost present with same | later
          · subst same
            rcases AscendingKey.total member.id head.id with less | equal | greater
            · exact absurd less notBefore
            · exact absurd equal different
            · exact greater
          · exact headFirst member later

/-- Store a host, replacing the one of the same identifier. -/
def insert (inventory : Inventory) (host : Host) : Inventory :=
  { inventory with
    hosts := insertHost host inventory.hosts
    ascending := insertHost_ascending host inventory.ascending }

/-- The inventory of some hosts; of a repeated identifier the last host counts. -/
def ofHosts (hosts : List Host) : Inventory := hosts.foldl insert empty

/-- Store a lifecycle policy for an account. -/
def setPolicy (inventory : Inventory) (account : String) (policy : Lifecycle.Policy) : Inventory :=
  { inventory with policies := inventory.policies.insert account policy }

/-- The number of hosts. -/
def size (inventory : Inventory) : Nat := inventory.hosts.length

/-- Whether a host is stored. -/
def contains (inventory : Inventory) (id : HostId) : Bool := inventory.hosts.any fun host => host.id = id

/-- The hosts of an account, ascending. -/
def hostsOf (inventory : Inventory) (account : String) : List Host :=
  inventory.hosts.filter fun host => host.account = account

/-- The accounts that own a host, ascending. -/
def accounts (inventory : Inventory) : List String :=
  ascendingDistinct (inventory.hosts.map Host.account)

/-- Whether a host lies above a cursor. -/
def above (cursor : Option HostId) (host : Host) : Bool :=
  match cursor with
  | none => true
  | some id => id < host.id

/-- The first hosts of an account above a cursor. -/
def page (inventory : Inventory) (account : String) (after : Option HostId) (limit : Nat) : List Host :=
  ((inventory.hostsOf account).filter (above after)).take limit

/-- The hosts of an account whose facts satisfy a filter, survivor first. -/
def candidates (inventory : Inventory) (account : String) (filter : FactFilter) : List Host :=
  inSurvivorOrder <| (inventory.hostsOf account).filter fun host => filter.accepts host.facts

/-- Remove a host. -/
def erase (inventory : Inventory) (id : HostId) : Inventory :=
  { inventory with
    hosts := inventory.hosts.filter fun host => host.id ≠ id
    ascending := inventory.ascending.filter _ }

/-- Note the size of an answered page. -/
def notePage (inventory : Inventory) (size : Nat) : Inventory :=
  { inventory with pageSizes := inventory.pageSizes ++ [size] }

/-- The inventory as a host store. -/
def store : HostStore Inventory where
  accounts inventory := (.ok inventory.accounts, inventory)
  page account after limit inventory :=
    let page := inventory.page account after limit
    (.ok page, inventory.notePage page.length)
  candidates account filter inventory := (.ok (inventory.candidates account filter), inventory)
  delete id inventory :=
    if inventory.contains id then (.ok .deleted, inventory.erase id) else (.ok .notFound, inventory)
  policy account inventory := (.ok (inventory.policies.get? account), inventory)

/-- A host of the standard surroundings: reported by `fixture`, modified some seconds after
the start of 2026 and stale a day after it. -/
def exampleHost (id : HostId) (account : String) (facts : Json) (offset : Int) : Host where
  id := id
  account := account
  displayName := none
  reporter := some "fixture"
  kind := .conventional
  facts := facts.members?.getD []
  modifiedOn := Moment.ofUnixSeconds (1767225600 + offset)
  staleTimestamp := Moment.ofUnixSeconds (1767225600 + 86400)

end Inventory

end HostPruning
