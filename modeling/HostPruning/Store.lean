import HostPruning.Facts.Filter
import HostPruning.Lifecycle

/-!
# Host stores

A host store answers five questions about an inventory that others may be changing at
the same time, so every call gets the current state and gives the next one. Nothing is
assumed here about the answers: what a particular store promises is a property of that
store.
-/

namespace HostPruning

/-- What came of removing a host. -/
inductive Removal where
  | deleted
  | notFound
deriving DecidableEq

/-- The name of an outcome. -/
def Removal.name : Removal → String
  | .deleted => "deleted"
  | .notFound => "not_found"

/-- A call: from a state to an answer and the next state. -/
abbrev Call (State Answer : Type) := State → Except Failure Answer × State

/-- Read and delete access to a host inventory. -/
structure HostStore (State : Type) where
  /-- The accounts that own a host. -/
  accounts : Call State (List String)
  /-- At most `limit` hosts of an account with identifiers above the cursor, ascending. -/
  page : (account : String) → (after : Option HostId) → (limit : Nat) → Call State (List Host)
  /-- The hosts of an account whose facts satisfy a filter, latest modification first. -/
  candidates : (account : String) → FactFilter → Call State (List Host)
  /-- Remove one host; a host that is not there is no failure. -/
  delete : HostId → Call State Removal
  /-- The lifecycle policy stored for an account. -/
  policy : (account : String) → Call State (Option Lifecycle.Policy)

/-- Run a call on one part of a larger state. -/
def Call.onPart {Whole Part Answer : Type} (part : Whole → Part) (put : Part → Whole → Whole)
    (call : Call Part Answer) : Call Whole Answer := fun whole =>
  let (answer, next) := call (part whole)
  (answer, put next whole)

/-- A store that lives in one part of a larger state. -/
def HostStore.onPart {Whole Part : Type} (part : Whole → Part) (put : Part → Whole → Whole)
    (store : HostStore Part) : HostStore Whole where
  accounts := store.accounts.onPart part put
  page account after limit := (store.page account after limit).onPart part put
  candidates account filter := (store.candidates account filter).onPart part put
  delete id := (store.delete id).onPart part put
  policy account := (store.policy account).onPart part put

/-- Keyed hand-over of delete events. -/
structure Emitter (State : Type) where
  /-- Hand over one event. -/
  emit : HostId → DeleteEvent → Call State Unit
  /-- Wait until what was handed over is delivered. -/
  flush : Call State Unit

/-- Newest modification first; of equal ones the larger identifier first. -/
def survivorFirst (left right : Host) : Bool :=
  right.modifiedOn < left.modifiedOn ||
    (! (left.modifiedOn < right.modifiedOn) && ! (left.id < right.id))

/-- Put a host in front of the first one in a list that it does not come after. -/
def insertSurvivor (host : Host) : List Host → List Host
  | [] => [host]
  | head :: rest =>
      if survivorFirst host head then host :: head :: rest else head :: insertSurvivor host rest

/-- The hosts of a list with the survivor in front; equal ones keep their order. -/
def inSurvivorOrder (hosts : List Host) : List Host := hosts.foldr insertSurvivor []

end HostPruning
