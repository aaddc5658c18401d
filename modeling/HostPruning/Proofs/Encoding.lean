import HostPruning.Proofs.Rows

/-!
# Records are read back

A host is read back from the text of its record, and an envelope from its line, whatever texts and facts
they hold: of the facts it is asked that a record can hold them as many levels down as they are written,
and of the moments that they have a text. Every field is decoded from its own encoding
(`hostId?_ofHostId`, `moment?_of_ofMoment` and so on), and `fields?_object` finds the fields of an
object that was written with its names in their declared order.
-/

namespace HostPruning

namespace Json

/-! ### Levels -/

/-- What a record can hold below some levels it can hold below more. -/
theorem Recordable.mono {depth more : Nat} {value : Json} (recordable : Recordable depth value)
    (less : depth ≤ more) : Recordable more value := by
  induction recordable generalizing more with
  | null => exact .null
  | bool value => exact .bool value
  | integer low high => exact .integer low high
  | real back => exact .real back
  | string text => exact .string text
  | array each inductionHypothesis =>
      obtain ⟨more, rfl⟩ : ∃ fewer, more = fewer + 1 := ⟨more - 1, by omega⟩
      exact .array fun item among => inductionHypothesis item among (by omega)
  | object once each inductionHypothesis =>
      obtain ⟨more, rfl⟩ : ∃ fewer, more = fewer + 1 := ⟨more - 1, by omega⟩
      exact .object once fun member among => inductionHypothesis member among (by omega)

theorem Recordable.ofOptionalText {depth : Nat} (text : Option String) :
    Recordable depth (ofOptionalText text) := by
  cases text with
  | none => exact .null
  | some text => exact .string text

theorem Recordable.ofMoment {depth : Nat} {moment : Moment} {value : Json}
    (encoded : ofMoment moment = some value) : Recordable depth value := by
  obtain ⟨text, -, rfl⟩ := Option.map_eq_some_iff.1 encoded
  exact .string text

/-! ### Fields -/

/-- Of an object that was written with its names in their declared order, all fields are found. -/
theorem fields?_object {names : List String} {members : Members} (named : members.map Prod.fst = names)
    (once : names.Nodup) :
    fields? names (.object members) = some (members.map fun member => some member.2) := by
  subst named
  have single : ∀ name, (members.filter fun member => member.1 = name).length ≤ 1 := by
    intro name
    rw [← List.countP_eq_length_filter]
    have counted : members.countP (fun member => member.1 = name) = (members.map Prod.fst).count name := by
      rw [List.count, List.countP_map]
      exact List.countP_congr fun member _ => by simp
    rw [counted]
    exact List.nodup_iff_count_le_one.1 once name
  have found : ∀ member ∈ members, Members.get? members member.1 = some member.2 := by
    intro member among
    obtain ⟨before, after, rfl⟩ := List.append_of_mem among
    refine List.lookup_eq_some_iff.2 ⟨before, after, rfl, fun other earlier => ?_⟩
    rw [List.map_append, List.map_cons, List.nodup_append] at once
    exact bne_iff_ne.2 (once.2.2 _ (List.mem_map_of_mem earlier) _ List.mem_cons_self).symm
  rw [fields?, if_pos (by simpa using fun name _ _ => single name), List.map_map]
  exact congrArg some (List.map_congr_left found)

@[simp]
theorem hostId?_ofHostId (id : HostId) : hostId? (ofHostId id) = some id := by
  simp [hostId?, ofHostId, text?, HostId.parse?, HostId.parse_text, Except.toOption]

theorem moment?_of_ofMoment {moment : Moment} {value : Json} (encoded : ofMoment moment = some value) :
    moment? value = some moment := by
  obtain ⟨text, written, rfl⟩ := Option.map_eq_some_iff.1 encoded
  simp [moment?, text?, Time.moment?, Time.parseRfc3339_rfc3339 written, Except.toOption]

theorem facts?_object {depth : Nat} {facts : Members} (recordable : Recordable depth (.object facts)) :
    facts? (.object facts) = some facts := by
  rw [facts?, recordable.dedup_eq]
  rfl

end Json

open Json

variable {depth : Nat} {value : Json}

namespace Host

variable {host : Host}

/-- The members of an encoded host, given the encodings of its moments. -/
def members (host : Host) (modifiedOn staleTimestamp : Json) : Members :=
  [("id", ofHostId host.id),
   ("account", string host.account),
   ("display_name", ofOptionalText host.displayName),
   ("reporter", ofOptionalText host.reporter),
   ("host_type", string host.kind.name),
   ("canonical_facts", object host.facts),
   ("modified_on", modifiedOn),
   ("stale_timestamp", staleTimestamp)]

theorem names_members (host : Host) (modifiedOn staleTimestamp : Json) :
    (host.members modifiedOn staleTimestamp).map Prod.fst = fieldNames := rfl

theorem nodup_fieldNames : fieldNames.Nodup := by decide

theorem toJson_eq_some :
    host.toJson = some value ↔ ∃ modifiedOn staleTimestamp, ofMoment host.modifiedOn = some modifiedOn ∧
      ofMoment host.staleTimestamp = some staleTimestamp ∧
        value = .object (host.members modifiedOn staleTimestamp) := by
  simp only [toJson, Option.bind_eq_bind, Option.bind_eq_some_iff]
  constructor
  · rintro ⟨modifiedOn, modifiedWritten, staleTimestamp, staleWritten, made⟩
    exact ⟨modifiedOn, staleTimestamp, modifiedWritten, staleWritten, (Option.some.inj made).symm⟩
  · rintro ⟨modifiedOn, staleTimestamp, modifiedWritten, staleWritten, rfl⟩
    exact ⟨modifiedOn, modifiedWritten, staleTimestamp, staleWritten, rfl⟩

theorem recordable_toJson (facts : Recordable depth (.object host.facts)) (encoded : host.toJson = some value) :
    Recordable (depth + 1) value := by
  obtain ⟨modifiedOn, staleTimestamp, modifiedWritten, staleWritten, rfl⟩ := toJson_eq_some.1 encoded
  refine .object nodup_fieldNames ?_
  simp only [members, List.forall_mem_cons]
  exact ⟨.string _, .string _, .ofOptionalText _, .ofOptionalText _, .string _, facts,
    .ofMoment modifiedWritten, .ofMoment staleWritten, by simp⟩

/-- A host is decoded from its encoding. -/
theorem ofJson_toJson (facts : Recordable depth (.object host.facts)) (encoded : host.toJson = some value) :
    ofJson value = some host := by
  obtain ⟨modifiedOn, staleTimestamp, modifiedWritten, staleWritten, rfl⟩ := toJson_eq_some.1 encoded
  rw [ofJson, fields?_object (names_members host modifiedOn staleTimestamp) nodup_fieldNames]
  -- A text that is missing was written as null, so it is read by another branch than one that is there.
  obtain ⟨id, account, displayName, reporter, kind, members, modified, stale⟩ := host
  cases displayName <;> cases reporter <;>
    simp [Host.members, required, Json.optional, defaulted, field, choice?, text?, ofOptionalText, ofOption,
      HostKind.parse_name, facts?_object facts, moment?_of_ofMoment modifiedWritten,
      moment?_of_ofMoment staleWritten]

/-- A host is read back from the text of its record. -/
theorem ofText_render (facts : Recordable depth (.object host.facts)) (room : depth < Dialect.records.depth)
    (encoded : host.toJson = some value) : ofText value.render = some host := by
  have recordable := (recordable_toJson facts encoded).mono room
  rw [ofText, readRepeated, readAs_render recordable, Option.bind_some, ofJson_toJson facts encoded]

end Host

namespace DeleteEvent

variable {event : DeleteEvent}

theorem names_members (event : DeleteEvent) (timestamp : Json) :
    (event.members timestamp).map Prod.fst = fieldNames := rfl

theorem nodup_fieldNames : fieldNames.Nodup := by decide

theorem recordable_toJson (facts : Recordable depth (.object event.facts))
    (encoded : event.toJson = some value) : Recordable (depth + 1) value := by
  obtain ⟨timestamp, written, rfl⟩ := Option.map_eq_some_iff.1 encoded
  refine .object nodup_fieldNames ?_
  simp only [members, List.forall_mem_cons]
  exact ⟨.string _, .string _, .string _, .ofOptionalText _, .ofOptionalText _, facts, .string _,
    .ofMoment written, by simp⟩

/-- An event is decoded from its encoding. -/
theorem ofJson_toJson (facts : Recordable depth (.object event.facts)) (encoded : event.toJson = some value) :
    ofJson value = some event := by
  obtain ⟨timestamp, written, rfl⟩ := Option.map_eq_some_iff.1 encoded
  rw [ofJson, fields?_object (names_members event timestamp) nodup_fieldNames]
  obtain ⟨kind, id, account, displayName, reporter, members, survivor, moment⟩ := event
  cases displayName <;> cases reporter <;>
    simp [DeleteEvent.members, required, Json.optional, field, text?, ofOptionalText, ofOption,
      facts?_object facts, moment?_of_ofMoment written]

end DeleteEvent

namespace Envelope

variable {envelope : Envelope}

theorem recordable_toJson (facts : Recordable depth (.object envelope.event.facts))
    (encoded : envelope.toJson = some value) : Recordable (depth + 2) value := by
  obtain ⟨event, eventWritten, rfl⟩ := Option.map_eq_some_iff.1 encoded
  refine .object (by simp) ?_
  simp only [List.forall_mem_cons]
  exact ⟨.string _, DeleteEvent.recordable_toJson facts eventWritten, by simp⟩

/-- An envelope is decoded from its encoding. -/
theorem ofJson_toJson (facts : Recordable depth (.object envelope.event.facts))
    (encoded : envelope.toJson = some value) : ofJson value = some envelope := by
  obtain ⟨event, eventWritten, rfl⟩ := Option.map_eq_some_iff.1 encoded
  have fields : fields? ["key", "value"] (.object [("key", ofHostId envelope.key), ("value", event)]) =
      some [some (ofHostId envelope.key), some event] := fields?_object rfl (by decide)
  rw [ofJson, fields]
  simp [required, field, DeleteEvent.ofJson_toJson facts eventWritten]

end Envelope

end HostPruning
