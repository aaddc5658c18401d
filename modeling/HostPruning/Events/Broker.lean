import HostPruning.Host

/-!
# Broker settings

Events can be published to a message broker, each under a topic that ends in its host's
identifier. The settings say where the broker is and how long to wait for its answers.
-/

namespace HostPruning.Events

/-- Where a broker is and how it is used. -/
structure Broker where
  host : String := "localhost"
  port : Nat := 1883
  clientId : String := "hostdedup"
  topicFront : String := "inventory/events/host"
  keepAliveSeconds : Nat := 15
  answerSeconds : Nat := 30
  capacity : Nat := 64
deriving DecidableEq

namespace Broker

/-- The settings in effect where nothing else is said. -/
def standard : Broker := {}

/-- Whether a character separates the levels of a topic. -/
def levelMark (char : Char) : Bool := char = '/'

/-- A text without the marks at its end. -/
def withoutTrailingMarks (text : String) : String :=
  String.ofList (text.toList.reverse.dropWhile levelMark).reverse

/-- The topic of a host's events. -/
def topic (broker : Broker) (key : HostId) : String :=
  withoutTrailingMarks broker.topicFront ++ "/" ++ key.text

/-- What is wrong with the settings; the first defect counts. -/
def defect? (broker : Broker) : Option BrokerDefect :=
  if Text.blank broker.host then some .hostEmpty
  else if Text.blank broker.clientId then some .clientEmpty
  else if broker.topicFront.toList.all levelMark then some .topicEmpty
  else if broker.capacity = 0 ∨ broker.answerSeconds = 0 then some .limitZero
  else none

/-- Refuse settings with a defect. -/
def validate (broker : Broker) : Except SettingDefect Unit :=
  match broker.defect? with
  | some defect => .error (.broker defect)
  | none => .ok ()

/-- The names of the settings, in their declared order. -/
def fieldNames : List String :=
  ["host", "port", "client_id", "topic_prefix", "keep_alive_secs", "ack_timeout_secs", "capacity"]

open Json in
/-- Decode settings; all have defaults. -/
def ofJson (value : Json) : Option Broker := do
  let fields ← fields? fieldNames value
  let host ← defaulted standard.host text? fields 0
  let port ← defaulted standard.port (unsigned? 16) fields 1
  let clientId ← defaulted standard.clientId text? fields 2
  let topicFront ← defaulted standard.topicFront text? fields 3
  let keepAliveSeconds ← defaulted standard.keepAliveSeconds (unsigned? 64) fields 4
  let answerSeconds ← defaulted standard.answerSeconds (unsigned? 64) fields 5
  let capacity ← defaulted standard.capacity (unsigned? 64) fields 6
  return { host, port, clientId, topicFront, keepAliveSeconds, answerSeconds, capacity }

/-- The members of encoded settings. -/
def members (broker : Broker) : Json.Members :=
  [("host", .string broker.host), ("port", .ofNat broker.port), ("client_id", .string broker.clientId),
   ("topic_prefix", .string broker.topicFront), ("keep_alive_secs", .ofNat broker.keepAliveSeconds),
   ("ack_timeout_secs", .ofNat broker.answerSeconds), ("capacity", .ofNat broker.capacity)]

/-- Encode settings. -/
def toJson (broker : Broker) : Json := .object broker.members

end Broker

end HostPruning.Events
