import HostPruning.Proofs.Framing
import HostPruning.Proofs.Records

/-!
# Lines that honour the contract

The first version of the contract says what a line of a journal is: an object with the members `key` and
`value`, of which the second is an object with eight members of given types. `Conforms` is this read off
the JSON value of a line, along with the key. The line of every proper envelope conforms
(`Envelope.Proper.lineOf`), whatever texts it holds and whether its floats are read back or not.
-/

namespace HostPruning

open Json

namespace Contract

/-! ### The contract -/

/-- The characters of an identifier's text: digits, and capital letters without `I`, `L`, `O` and `U`. -/
def alphabet : List Char := "0123456789ABCDEFGHJKMNPQRSTVWXYZ".toList

/-- Whether a text is that of an identifier. -/
structure Identifier (text : String) : Prop where
  width : text.toList.length = 26
  spelled : ∀ char ∈ text.toList, char ∈ alphabet

/-- The names of the members that an event has to have, and that it may have. -/
def eventNames : List String :=
  ["type", "id", "account", "display_name", "reporter", "canonical_facts", "survivor_id", "timestamp"]

/-- Whether members are those of the event of a key. -/
structure Event (key : String) (members : Members) : Prop where
  names : members.map Prod.fst = eventNames
  kind : members.get? "type" = some (.string "delete")
  id : members.get? "id" = some (.string key)
  account : ∃ text, members.get? "account" = some (.string text) ∧ text ≠ ""
  displayName : ∃ text, members.get? "display_name" = some (ofOptionalText text)
  reporter : ∃ text, members.get? "reporter" = some (ofOptionalText text)
  facts : ∃ facts, members.get? "canonical_facts" = some (.object facts)
  /-- Another host survived. -/
  survivor : ∃ text, members.get? "survivor_id" = some (.string text) ∧ Identifier text ∧ text ≠ key
  timestamp : ∃ text moment, members.get? "timestamp" = some (.string text) ∧ Time.rfc3339 moment = some text

/-- Whether a value is an envelope with some key. -/
structure Conforms (key : String) (value : Json) : Prop where
  identifier : Identifier key
  members : ∃ members, value = .object [("key", .string key), ("value", .object members)] ∧ Event key members

/-- The JSON value of a line. Facts may nest as deep as a record may in all, so the lines that hold them
are read by the dialect that takes more levels. -/
def lineValue (line : List UInt8) : Option Json :=
  (String.fromUTF8? ⟨line.toArray⟩).bind (readAs .stored)

/-- Whether a line is that of an envelope with some key. -/
def LineOf (line : List UInt8) (key : String) : Prop :=
  ∃ value, lineValue line = some value ∧ Conforms key value

/-! ### Identifiers -/

theorem digitChar_mem_alphabet : ∀ digit < 32, HostId.digitChar digit ∈ alphabet := by decide

theorem identifier_text (id : HostId) : Identifier id.text where
  width := by rw [HostId.text, String.toList_ofList, HostId.chars, List.length_map, HostId.length_digits]; rfl
  spelled char among := by
    rw [HostId.text, String.toList_ofList, HostId.chars] at among
    obtain ⟨digit, spelled, rfl⟩ := List.mem_map.1 among
    exact digitChar_mem_alphabet digit (HostId.lt_of_mem_digits spelled)

end Contract

namespace Json

theorem ReadsAs.ofOptionalText {dialect : Dialect} {depth : Nat} (text : Option String) :
    ReadsAs dialect depth (ofOptionalText text) (ofOptionalText text) := by
  cases text with
  | none => exact .null
  | some text => exact .string text

/-- The text of an object with nested values is read as an object. -/
theorem Nested.exists_object {dialect : Dialect} (lenient : dialect.strict = false) {depth : Nat}
    {members : Members} (nested : Nested depth (.object members)) :
    ∃ others, ReadsAs dialect depth (.object members) (.object others) := by
  obtain ⟨other, reads, kind⟩ := nested.exists_readsAs lenient
  cases other with
  | object others => exact ⟨others, reads⟩
  | _ => cases kind

end Json

/-! ### Envelopes -/

/-- Whether an envelope tells of the removal of its key's host in favour of another one. -/
structure Envelope.Proper (envelope : Envelope) : Prop where
  kind : envelope.event.kind = DeleteEvent.deleteKind
  id : envelope.event.id = envelope.key
  account : envelope.event.account ≠ ""
  survivor : envelope.event.survivor ≠ envelope.key
  facts : Nested Dialect.records.depth (.object envelope.event.facts)

namespace Envelope.Proper

variable {envelope : Envelope} {line : String}

/-- The members of a proper envelope's event are those the contract asks for, whatever facts stand in the
place of its own. -/
theorem event (proper : envelope.Proper) {moment : String}
    (dated : Time.rfc3339 envelope.event.timestamp = some moment) (facts : Members) :
    Contract.Event envelope.key.text ({ envelope.event with facts }.members (.string moment)) where
  names := rfl
  kind := congrArg (fun kind => some (Json.string kind)) proper.kind
  id := congrArg (fun id => some (ofHostId id)) proper.id
  account := ⟨_, rfl, proper.account⟩
  displayName := ⟨_, rfl⟩
  reporter := ⟨_, rfl⟩
  facts := ⟨_, rfl⟩
  survivor := ⟨_, rfl, Contract.identifier_text _, fun same => proper.survivor (HostId.text_injective same)⟩
  timestamp := ⟨_, _, rfl, dated⟩

/-- The text of a proper envelope is read as an envelope with the same event, but for floats among its
facts. -/
theorem readsAs (proper : envelope.Proper) (timestamp : String) :
    ∃ facts, ReadsAs .stored Dialect.stored.depth
      (.object [("key", ofHostId envelope.key), ("value", .object (envelope.event.members (.string timestamp)))])
      (.object [("key", .string envelope.key.text),
        ("value", .object ({ envelope.event with facts }.members (.string timestamp)))]) := by
  obtain ⟨others, factsRead⟩ := @Nested.exists_object .stored rfl 998 _ (proper.facts.mono (by decide))
  have event : ReadsAs .stored 999 (.object (envelope.event.members (.string timestamp)))
      (.object ({ envelope.event with facts := others }.members (.string timestamp))) :=
    .object <| .cons ⟨rfl, .string _⟩ <| .cons ⟨rfl, .string _⟩ <| .cons ⟨rfl, .string _⟩ <|
      .cons ⟨rfl, .ofOptionalText _⟩ <| .cons ⟨rfl, .ofOptionalText _⟩ <| .cons ⟨rfl, factsRead⟩ <|
      .cons ⟨rfl, .string _⟩ <| .cons ⟨rfl, .string _⟩ .nil
  exact ⟨others, .object <| .cons ⟨rfl, .string _⟩ <| .cons ⟨rfl, event⟩ .nil⟩

/-- The line of a proper envelope honours the contract. -/
theorem lineOf (proper : envelope.Proper) (written : envelope.text = some line) :
    Contract.LineOf (Text.utf8 line) envelope.key.text := by
  obtain ⟨value, encoded, rfl⟩ := Option.map_eq_some_iff.1 written
  obtain ⟨event, eventEncoded, rfl⟩ := Option.map_eq_some_iff.1 encoded
  obtain ⟨timestamp, stamped, rfl⟩ := Option.map_eq_some_iff.1 eventEncoded
  obtain ⟨moment, dated, rfl⟩ := Option.map_eq_some_iff.1 stamped
  obtain ⟨facts, read⟩ := proper.readsAs moment
  refine ⟨_, ?_, Contract.identifier_text envelope.key, _, rfl, proper.event dated facts⟩
  rw [Contract.lineValue, Text.fromUTF8?_utf8, Option.bind_some]
  exact read.readAs_render

end Envelope.Proper

/-- The lines of proper envelopes that have texts are lines of their keys, one by one. -/
theorem Events.Journal.lines_lineOf {envelopes : List Envelope}
    (legible : ∀ envelope ∈ envelopes, envelope.text.isSome = true)
    (proper : ∀ envelope ∈ envelopes, envelope.Proper) :
    List.Forall₂ Contract.LineOf (lines envelopes) (envelopes.map fun envelope => envelope.key.text) := by
  induction envelopes with
  | nil => exact .nil
  | cons envelope rest inductionHypothesis =>
      rw [List.forall_mem_cons] at legible proper
      obtain ⟨line, written⟩ := Option.isSome_iff_exists.1 legible.1
      have split : lines (envelope :: rest) = Text.utf8 line :: lines rest := by simp [lines, written]
      rw [split, List.map_cons]
      exact .cons (proper.1.lineOf written) (inductionHypothesis legible.2 proper.2)

end HostPruning
