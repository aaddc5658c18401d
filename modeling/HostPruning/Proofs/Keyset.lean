import Mathlib.Data.List.Induction
import HostPruning.Proofs.Furnishing

/-!
# Pages by identifier

A database finds the pages of an account by the texts of identifiers: rows above a cursor, sorted, cut off
at a limit. `texts_order_identifiers` says why these are the pages by identifier. A text has 26 digits, from
which the identifier is read back, and texts compare, as characters and as bytes, as the identifiers do. In
other letters the same digits may be read too, and 26 digits hold two bits more than an identifier: what was
read is written as it was given, in upper case, unless the first digit is above 7 and loses these bits
(`parse_spells`).

So the rows of a furnished database, whose identifiers have all been written by this library, come in the
order of identifiers, and the page behind some of them starts with the next (`PagedBy.behind`).
-/

namespace HostPruning

open Database

namespace HostId

/-! ### Digits -/

/-- The first of some digits stands before the others. -/
theorem digits_succ (count number : Nat) :
    digits (count + 1) number = number / 32 ^ count % 32 :: digits count number := by
  induction count generalizing number with
  | zero => simp [digits]
  | succ count inductionHypothesis =>
      have front := inductionHypothesis (number / 32)
      rw [Nat.div_div_eq_div_mul, ← Nat.pow_succ'] at front
      calc digits (count + 2) number = digits (count + 1) (number / 32) ++ [number % 32] := rfl
        _ = number / 32 ^ (count + 1) % 32 :: digits (count + 1) number := by rw [front]; rfl

/-- The lowest digits depend on what they can spell alone. -/
theorem digits_mod (count number : Nat) : digits count (number % 32 ^ count) = digits count number := by
  induction count generalizing number with
  | zero => rfl
  | succ count inductionHypothesis =>
      rw [digits, digits, Nat.pow_succ', Nat.mod_mul_right_div_self, inductionHypothesis,
        Nat.mod_mul_right_mod]

/-- Digits are those of the number they spell. -/
theorem digits_ofDigits {spelled : List Nat} (small : ∀ digit ∈ spelled, digit < 32) :
    digits spelled.length (ofDigits spelled) = spelled := by
  induction spelled using List.reverseRecOn with
  | nil => rfl
  | append_singleton front last inductionHypothesis =>
      have bounded : last < 32 := small last (by simp)
      have front_eq := inductionHypothesis fun digit among => small digit (List.mem_append_left _ among)
      have number : ofDigits (front ++ [last]) = ofDigits front * 32 + last := by simp [ofDigits]
      have higher : (ofDigits front * 32 + last) / 32 = ofDigits front := by omega
      have lowest : (ofDigits front * 32 + last) % 32 = last := by omega
      rw [List.length_append, List.length_singleton, number, digits, higher, lowest, front_eq]

/-- Of 26 digits an identifier keeps all but the two highest bits of the first. -/
theorem digits_ofNat {leading : Nat} {rest : List Nat} (small : ∀ digit ∈ leading :: rest, digit < 32)
    (sized : (leading :: rest).length = width) :
    digits width (ofNat (ofDigits (leading :: rest))).value = leading % 8 :: rest := by
  have spelled := digits_ofDigits small
  rw [sized, width, digits_succ, List.cons.injEq] at spelled
  obtain ⟨first, others⟩ := spelled
  -- 128 bits are 25 digits and three bits of the first.
  have value : (ofNat (ofDigits (leading :: rest))).value = ofDigits (leading :: rest) % (32 ^ 25 * 8) := rfl
  rw [width, digits_succ, value]
  generalize ofDigits (leading :: rest) = number at first others
  refine congrArg₂ List.cons ?_ ?_
  · rw [Nat.mod_mul_right_div_self]
    omega
  · rw [← digits_mod, Nat.mod_mul_right_mod, digits_mod, others]

/-! ### Characters -/

/-- What can be read as a digit is one in upper case, and takes one byte. -/
theorem charDigit_eq_some {char : Char} {digit : Nat} (read : charDigit char = some digit) :
    digit < 32 ∧ char.toUpper = digitChar digit ∧ char.utf8Size = 1 := by
  have ascii : ∀ code < 128, ∀ digit, charDigit (Char.ofNat code) = some digit → digit < 32 ∧
      (Char.ofNat code).toUpper = digitChar digit ∧ (Char.ofNat code).utf8Size = 1 := by
    decide
  -- Above ASCII no character is a digit, nor has it another case here.
  by_cases low : char.toNat < 128
  · have known := ascii char.toNat low digit
    rw [Char.ofNat_toNat] at known
    exact known read
  · have same : char.toUpper = char := by
      unfold Char.toUpper
      rw [dif_neg]
      rintro ⟨-, small⟩
      exact low (Nat.lt_of_le_of_lt small (by decide))
    rw [charDigit, same, upperDigit] at read
    split_ifs at read <;> omega

/-- Characters that are read as digits are these digits in upper case. -/
theorem mapM_eq_some {chars : List Char} {spelled : List Nat}
    (read : chars.mapM charDigit = some spelled) :
    (∀ digit ∈ spelled, digit < 32) ∧ chars.map Char.toUpper = spelled.map digitChar ∧
      String.utf8Len chars = spelled.length ∧ chars.head?.bind charDigit = spelled.head? := by
  induction chars generalizing spelled with
  | nil =>
      cases read
      simp
  | cons char rest inductionHypothesis =>
      rw [List.mapM_cons, Option.bind_eq_bind, Option.bind_eq_some_iff] at read
      obtain ⟨digit, first, read⟩ := read
      rw [Option.bind_eq_bind, Option.bind_eq_some_iff] at read
      obtain ⟨others, later, whole⟩ := read
      obtain rfl : digit :: others = spelled := Option.some.inj whole
      obtain ⟨small, upper, oneByte⟩ := charDigit_eq_some first
      obtain ⟨restSmall, restUpper, restSize, -⟩ := inductionHypothesis later
      refine ⟨List.forall_mem_cons.2 ⟨small, restSmall⟩, ?_, ?_, first⟩
      · rw [List.map_cons, List.map_cons, upper, restUpper]
      · rw [String.utf8Len_cons, restSize, oneByte, List.length_cons]

/-! ### Texts that are read -/

/-- What is read has 26 digits, of which the first may lose its highest bits. -/
theorem parse_spells {raw : String} {id : HostId} (read : parse raw = .ok id) :
    ∃ leading rest, leading < 32 ∧ raw.toList.head?.bind charDigit = some leading ∧
      raw.toUpper.toList = (leading :: rest).map digitChar ∧
      id.text.toList = (leading % 8 :: rest).map digitChar := by
  unfold parse at read
  split at read
  next => cases read
  next sized =>
    have sized : raw.utf8ByteSize = width := Decidable.not_not.1 sized
    split at read
    next => cases read
    next spelled characters =>
      obtain ⟨small, upper, bytes, first⟩ := mapM_eq_some characters
      have length : spelled.length = width := by
        rw [← bytes, ← sized, ← String.utf8ByteSize_ofList, String.ofList_toList]
      cases spelled with
      | nil => cases length
      | cons leading rest =>
          cases read
          refine ⟨leading, rest, small leading List.mem_cons_self, first, ?_, ?_⟩
          · rw [String.toUpper, String.toList_map, upper]
          · rw [text, String.toList_ofList, chars, digits_ofNat small length]

/-- Digits are told apart by their characters. -/
theorem digitChar_inj {left right : Nat} (leftSmall : left < 32) (rightSmall : right < 32)
    (same : digitChar left = digitChar right) : left = right := by
  have read := charDigit_digitChar left leftSmall
  rw [same, charDigit_digitChar right rightSmall] at read
  exact (Option.some.inj read).symm

/-- What is read is written as it was given, in upper case, if the first digit is at most 7, and
otherwise not. -/
theorem text_eq_toUpper_iff {raw : String} {id : HostId} (read : parse raw = .ok id) :
    id.text = raw.toUpper ↔ ∃ leading ≤ 7, raw.toList.head?.bind charDigit = some leading := by
  obtain ⟨leading, rest, small, first, given, kept⟩ := parse_spells read
  rw [first, ← String.toList_inj, given, kept, List.map_cons, List.map_cons, List.cons.injEq]
  constructor
  · rintro ⟨same, -⟩
    have unchanged := digitChar_inj (by omega) small same
    exact ⟨leading, by omega, rfl⟩
  · rintro ⟨digit, bounded, same⟩
    obtain rfl := Option.some.inj same
    exact ⟨by rw [Nat.mod_eq_of_lt (by omega)], rfl⟩

/-! ### Bytes -/

/-- The byte of a digit. -/
def digitByte (digit : Nat) : UInt8 := UInt8.ofNat (digitChar digit).toNat

theorem utf8EncodeChar_digitChar : ∀ digit < 32,
    String.utf8EncodeChar (digitChar digit) = [digitByte digit] := by
  decide

theorem digitByte_lt : ∀ left < 32, ∀ right < 32, left < right → digitByte left < digitByte right := by
  decide

theorem flatMap_map_digitChar {spelled : List Nat} (small : ∀ digit ∈ spelled, digit < 32) :
    (spelled.map digitChar).flatMap String.utf8EncodeChar = spelled.map digitByte := by
  induction spelled with
  | nil => rfl
  | cons digit rest inductionHypothesis =>
      have first := utf8EncodeChar_digitChar digit (small digit List.mem_cons_self)
      have later := inductionHypothesis fun other among => small other (List.mem_cons_of_mem _ among)
      rw [List.map_cons, List.flatMap_cons, first, later]
      rfl

theorem utf8_text (id : HostId) : Text.utf8 id.text = (digits width id.value).map digitByte := by
  rw [Text.utf8, text, String.toList_ofList, chars, flatMap_map_digitChar fun _ => lt_of_mem_digits]

theorem utf8_lt_of_lt {left right : HostId} (less : left < right) :
    Text.utf8 left.text < Text.utf8 right.text := by
  rw [utf8_text, utf8_text]
  exact map_digits_lt digitByte_lt (right.bounded.trans (by decide)) less

/-- Byte by byte, texts of identifiers compare as the identifiers do. -/
theorem utf8_lt_utf8 {left right : HostId} : Text.utf8 left.text < Text.utf8 right.text ↔ left < right := by
  refine ⟨fun less => ?_, utf8_lt_of_lt⟩
  rcases AscendingKey.total left right with below | rfl | above
  · exact below
  · exact absurd less (List.lt_irrefl _)
  · exact absurd less (List.lt_asymm (utf8_lt_of_lt above))

theorem length_text (id : HostId) : id.text.length = width := by
  rw [text, String.length_ofList, chars, List.length_map, length_digits]

/-- Whether an identifier is above a cursor. -/
def isAbove (after : Option HostId) (id : HostId) : Bool := after.all fun cursor => cursor < id

end HostId

/-! ### Pages -/

namespace Database

open HostRow

/-- The rows of a database are those of hosts that can be put in ascending order. -/
theorem Authored.exists_hosts {rows : List HostRow} (authored : Authored rows) :
    ∃ hosts, Ascending hosts ∧ rows.Perm (hosts.map HostRow.written) := by
  induction rows with
  | nil => exact ⟨[], List.Pairwise.nil, List.Perm.refl _⟩
  | cons row rest inductionHypothesis =>
      obtain ⟨hosts, ascending, same⟩ := inductionHypothesis (authored.sublist (List.sublist_cons_self row rest))
      obtain ⟨host, made⟩ := authored.written row List.mem_cons_self
      obtain ⟨rfl, -⟩ := ofHost_eq_ok made
      have fresh : ∀ other ∈ hosts, other.id ≠ host.id := by
        intro other among equal
        have there : HostRow.written other ∈ rest := same.mem_iff.2 (List.mem_map_of_mem among)
        have apart := (List.pairwise_cons.1 authored.distinct).1 _ there
        exact apart (by rw [id_written, id_written, equal])
      refine ⟨Inventory.insertHost host hosts, Inventory.insertHost_ascending host ascending, ?_⟩
      exact (same.cons _).trans ((Inventory.insertHost_perm fresh).symm.map HostRow.written)

/-- Whether the pages of an account are those of some identifiers in ascending order: those that its rows
have, each page being cut from the ones above its cursor. -/
structure PagedBy (ids : List HostId) (account : String) (database : Database) : Prop where
  ascending : ids.Pairwise fun earlier later => earlier < later
  stored : ∀ id, id ∈ ids ↔ ∃ row ∈ database.hosts.getD [], row.account = account ∧ row.id = id.text
  rows : database.hosts.isSome = true → ∀ after limit, limit ≤ greatestLimit →
    ∃ page, database.loadPage account after limit = decodeAll page ∧
      page.map HostRow.id = ((ids.filter (HostId.isAbove after)).take limit).map HostId.text
  hosts : ∀ after limit found, database.loadPage account after limit = .ok found →
    found.map Host.id = (ids.filter (HostId.isAbove after)).take limit
  /-- The page behind some of the identifiers starts with the next. -/
  behind : ∀ given limit found, database.loadPage account (ids.take given).getLast? limit = .ok found →
    found.map Host.id = (ids.drop given).take limit

/-- The identifiers of the hosts of an account. -/
def idsOf (account : String) (hosts : List Host) : List HostId :=
  (hosts.filter fun host => host.account = account).map Host.id

section Listing

variable {hosts : List Host} {account : String}

/-- Hosts and their identifiers are above a cursor alike. -/
theorem filter_isAbove (hosts : List Host) (after : Option HostId) :
    (hosts.map Host.id).filter (HostId.isAbove after) = (hosts.filter (Inventory.above after)).map Host.id := by
  have alike : HostId.isAbove after ∘ Host.id = Inventory.above after := by
    funext host
    cases after <;> rfl
  rw [List.filter_map, alike]

theorem idsOf_ascending (ascending : Ascending hosts) :
    (idsOf account hosts).Pairwise fun earlier later => earlier < later :=
  List.pairwise_map.2 (ascending.filter _)

/-- Above the last of the first identifiers lie the others. -/
theorem filter_isAbove_last (ascending : Ascending hosts) (given : Nat) :
    (idsOf account hosts).filter (HostId.isAbove ((idsOf account hosts).take given).getLast?) =
      (idsOf account hosts).drop given := by
  have listing := ascending.filter fun host => host.account = account
  have behind := Inventory.filter_above_taken listing none given
  have all : (hosts.filter fun host => host.account = account).filter (Inventory.above none) =
      hosts.filter fun host => host.account = account := List.filter_eq_self.2 fun _ _ => rfl
  have cursor : Scan.cursorAfter none ((hosts.filter fun host => host.account = account).take given) =
      ((idsOf account hosts).take given).getLast? := by
    rw [idsOf, ← List.map_take, List.getLast?_map, Scan.cursorAfter]
    cases ((hosts.filter fun host => host.account = account).take given).getLast? <;> rfl
  rw [all, cursor] at behind
  rw [idsOf, filter_isAbove, ← List.map_drop]
  exact congrArg _ behind

variable {database : Database} {rows : List HostRow}

/-- A page has the rows of the first identifiers above its cursor. -/
theorem loadPage_ids (stored : database.hosts = some rows) (authored : Authored rows)
    (ascending : Ascending hosts) (same : rows.Perm (hosts.map written)) (account : String)
    (after : Option HostId) {limit : Nat} (bounded : limit ≤ greatestLimit) :
    ∃ page, Authored page ∧ database.loadPage account after limit = decodeAll page ∧
      page.map HostRow.id =
        (((idsOf account hosts).filter (HostId.isAbove after)).take limit).map HostId.text := by
  refine ⟨_, ?_, loadPage_written stored ascending same account after bounded, ?_⟩
  · refine (authored.perm same).sublist (List.Sublist.map written ?_)
    exact (List.take_sublist limit _).trans (List.filter_sublist.trans List.filter_sublist)
  · rw [idsOf, filter_isAbove, ← List.map_take, List.map_map, List.map_map]
    rfl

/-- A page that is answered has the first identifiers above its cursor. -/
theorem ids_of_loadPage (authored : Authored (database.hosts.getD [])) (ascending : Ascending hosts)
    (same : (database.hosts.getD []).Perm (hosts.map written)) {after : Option HostId} {limit : Nat}
    {found : List Host} (answered : database.loadPage account after limit = .ok found) :
    found.map Host.id = ((idsOf account hosts).filter (HostId.isAbove after)).take limit := by
  have bounded : limit ≤ greatestLimit := by
    by_contra above
    rw [loadPage, if_pos (Nat.lt_of_not_le above)] at answered
    cases answered
  cases stored : database.hosts with
  | none => simp [loadPage, Nat.not_lt.2 bounded, Database.rows, stored] at answered
  | some rows =>
      rw [stored, Option.getD_some] at authored same
      obtain ⟨page, written, decoded, texts⟩ :=
        loadPage_ids stored authored ascending same account after bounded
      have ids := (written.decodeAll (decoded.symm.trans answered)).1
      rw [texts] at ids
      refine List.map_injective_iff.2 (fun _ _ => HostId.text_injective) ?_
      rw [List.map_map]
      exact ids

/-- An account has an identifier when it has a row with the identifier's text. -/
theorem mem_idsOf (same : rows.Perm (hosts.map written)) {id : HostId} :
    id ∈ idsOf account hosts ↔ ∃ row ∈ rows, row.account = account ∧ row.id = id.text := by
  have stored : (∃ row ∈ rows, row.account = account ∧ row.id = id.text) ↔
      ∃ host ∈ hosts, host.account = account ∧ host.id = id := by
    constructor
    · rintro ⟨row, among, belongs, named⟩
      obtain ⟨host, there, rfl⟩ := List.mem_map.1 (same.mem_iff.1 among)
      exact ⟨host, there, belongs, HostId.text_injective named⟩
    · rintro ⟨host, there, belongs, rfl⟩
      exact ⟨written host, same.mem_iff.2 (List.mem_map_of_mem there), belongs, rfl⟩
  rw [stored, idsOf]
  simp [and_assoc]

end Listing

/-- The pages of a furnished database are in the order of identifiers. -/
theorem Furnished.exists_pagedBy {database : Database} (furnished : Furnished database) (account : String) :
    ∃ ids, PagedBy ids account database := by
  have authored := furnished.authored
  obtain ⟨hosts, ascending, same⟩ := authored.exists_hosts
  refine ⟨idsOf account hosts, idsOf_ascending ascending, fun _ => mem_idsOf same, ?_,
    fun _ _ _ => ids_of_loadPage authored ascending same, fun given limit found answered => ?_⟩
  · intro there after limit bounded
    obtain ⟨rows, stored⟩ := Option.isSome_iff_exists.1 there
    rw [stored, Option.getD_some] at authored same
    obtain ⟨page, -, decoded, texts⟩ := loadPage_ids stored authored ascending same account after bounded
    exact ⟨page, decoded, texts⟩
  · rw [ids_of_loadPage authored ascending same answered, filter_isAbove_last ascending]

end Database

/-- Identifiers order as their texts do. A text has 26 characters, is read back, and compares with others
byte by byte as the identifiers do; what is read from other letters is written in upper case as it was given,
unless its first digit is above 7. So a furnished database, which goes by the texts, pages through the
identifiers of an account in ascending order. -/
theorem texts_order_identifiers :
    (∀ id : HostId, id.text.length = 26 ∧ HostId.parse id.text = .ok id) ∧
      Function.Injective HostId.text ∧
      (∀ left right : HostId, left < right ↔ Text.utf8 left.text < Text.utf8 right.text) ∧
      (∀ raw id, HostId.parse raw = .ok id →
        (id.text = raw.toUpper ↔ ∃ leading ≤ 7, raw.toList.head?.bind HostId.charDigit = some leading)) ∧
      ∀ database, Furnished database → ∀ account, ∃ ids, PagedBy ids account database :=
  ⟨fun id => ⟨HostId.length_text id, HostId.parse_text id⟩, fun _ _ => HostId.text_injective,
    fun _ _ => HostId.utf8_lt_utf8.symm, fun _ _ => HostId.text_eq_toUpper_iff,
    fun _ furnished => furnished.exists_pagedBy⟩

/-- A database into which the later of two hosts came first, a text in lower case, and one whose first digit
is above 7. -/
theorem later_host_paged_second :
    let early := Inventory.exampleHost ⟨2, by decide⟩ "acct-1" (.object []) 0
    let late := Inventory.exampleHost ⟨33, by decide⟩ "acct-1" (.object []) 0
    let database := (stock.answers [.insert late, .insert early] Database.empty.migrate.2).2
    let greatest : HostId := ⟨2 ^ 128 - 1, by decide⟩
    (Furnished database ∧ database.hosts.getD [] = [HostRow.written late, HostRow.written early] ∧
      PagedBy [early.id, late.id] "acct-1" database) ∧
    (HostId.parse "7zzzzzzzzzzzzzzzzzzzzzzzzz" = .ok greatest ∧
      greatest.text = "7zzzzzzzzzzzzzzzzzzzzzzzzz".toUpper) ∧
    HostId.parse "80000000000000000000000002" = .ok early.id ∧
      early.id.text ≠ "80000000000000000000000002".toUpper := by
  intro early late database greatest
  have furnished : Furnished database := .insert (.insert (.bare rfl) late) early
  obtain ⟨-, -, -, spelled, paged⟩ := texts_order_identifiers
  have greatestRead : HostId.parse "7zzzzzzzzzzzzzzzzzzzzzzzzz" = .ok greatest := by decide +kernel
  have earlyRead : HostId.parse "80000000000000000000000002" = .ok early.id := by decide +kernel
  have rows : database.hosts.getD [] = [HostRow.written late, HostRow.written early] := by decide +kernel
  refine ⟨⟨furnished, rows, ?_⟩, ⟨greatestRead, ?_⟩, earlyRead, ?_⟩
  · obtain ⟨ids, pagedBy⟩ := paged database furnished "acct-1"
    have ascending : [early.id, late.id].Pairwise fun earlier later => earlier < later := by decide
    have same : ids = [early.id, late.id] := by
      refine eq_of_ascending_of_mem_iff pagedBy.ascending ascending fun id => ?_
      rw [pagedBy.stored, rows]
      constructor
      · rintro ⟨row, among, -, named⟩
        rcases List.mem_cons.1 among with rfl | last
        · exact List.mem_cons_of_mem _ (List.mem_singleton.2 (HostId.text_injective named).symm)
        · obtain rfl := List.mem_singleton.1 last
          exact HostId.text_injective named ▸ List.mem_cons_self
      · intro among
        rcases List.mem_cons.1 among with rfl | last
        · exact ⟨HostRow.written early, List.mem_cons_of_mem _ (List.mem_singleton_self _), rfl, rfl⟩
        · obtain rfl := List.mem_singleton.1 last
          exact ⟨HostRow.written late, List.mem_cons_self, rfl, rfl⟩
    rwa [same] at pagedBy
  · exact (spelled _ _ greatestRead).2 ⟨7, by decide, by decide +kernel⟩
  · intro same
    obtain ⟨leading, bounded, first⟩ := (spelled _ _ earlyRead).1 same
    have eight : "80000000000000000000000002".toList.head?.bind HostId.charDigit = some 8 := by decide +kernel
    rw [eight] at first
    obtain rfl := Option.some.inj first
    omega

end HostPruning
