import HostPruning.Scan
import HostPruning.Proofs.Verdicts

/-!
# Pages of an ascending listing

A page is the front of what lies above a cursor, and the cursor moves to the last
identifier of the page. So what lies above the new cursor is exactly the rest of the
listing (`filter_above_cursor`), and it is shorter whenever the page held a host
(`length_above_cursor_lt`): paging neither repeats nor loses a host, and it ends.

`filter_page_append` says this of a listing that shrinks between pages, up to the hosts removed, and
`foldl_judge_page` carries it over to decisions. The listing a page is taken from shrinks
with every removal, but a removed host is one already found to be a duplicate, so judging
what is still stored and judging what was stored at the start come to the same.
-/

namespace HostPruning

/-- Hosts in ascending order of their identifiers. -/
def Ascending (hosts : List Host) : Prop :=
  hosts.Pairwise fun earlier later => earlier.id < later.id

theorem Ascending.filter {hosts : List Host} (ascending : Ascending hosts) (keep : Host → Bool) :
    Ascending (hosts.filter keep) :=
  List.Pairwise.filter keep ascending

namespace Scan

/-- The cursor after a page. -/
def cursorAfter (cursor : Option HostId) (page : List Host) : Option HostId :=
  (page.getLast?.map Host.id).orElse fun _ => cursor

end Scan

namespace Inventory

open Scan Pruning

theorem hostsOf_ascending (inventory : Inventory) (account : String) :
    Ascending (inventory.hostsOf account) :=
  Ascending.filter inventory.ascending _

@[simp]
theorem above_some {id : HostId} {host : Host} : above (some id) host = true ↔ id < host.id := by
  simp [above]

/-- Above the last host of a page lie exactly the hosts behind the page. -/
theorem filter_above_last {front rest : List Host} {last : Host}
    (ascending : Ascending (front ++ rest)) (ends : front.getLast? = some last) :
    (front ++ rest).filter (above (some last.id)) = rest := by
  obtain ⟨before, rfl⟩ := List.getLast?_eq_some_iff.1 ends
  rw [List.append_assoc] at ascending ⊢
  obtain ⟨-, restAscending, apart⟩ := List.pairwise_append.1 ascending
  obtain ⟨lastFirst, -⟩ := List.pairwise_cons.1 restAscending
  rw [List.filter_append]
  have none : before.filter (above (some last.id)) = [] := by
    rw [List.filter_eq_nil_iff]
    intro host present isAbove
    have below : host.id < last.id := apart host present last (by simp)
    exact AscendingKey.irrefl host.id (AscendingKey.trans below (above_some.1 isAbove))
  have all : rest.filter (above (some last.id)) = rest := by
    rw [List.filter_eq_self]
    exact fun host present => above_some.2 (lastFirst host present)
  rw [none, List.nil_append, List.singleton_append, List.filter_cons_of_neg, all]
  rw [above_some]
  exact AscendingKey.irrefl last.id

/-- What lies above the cursor after a page is the rest of the listing. -/
theorem filter_above_cursor {listing : List Host} {cursor : Option HostId}
    (ascending : Ascending listing) (beyond : ∀ host ∈ listing, above cursor host = true)
    (limit : Nat) :
    listing.filter (above (cursorAfter cursor (listing.take limit))) = listing.drop limit := by
  cases ends : (listing.take limit).getLast? with
  | none =>
      have nothing : listing.take limit = [] := List.getLast?_eq_none_iff.1 ends
      have everything : listing.drop limit = listing := by
        simpa [nothing] using List.take_append_drop limit listing
      rw [cursorAfter, ends, everything]
      exact List.filter_eq_self.2 beyond
  | some last =>
      have split : Ascending (listing.take limit ++ listing.drop limit) := by
        rwa [List.take_append_drop]
      have rest := filter_above_last split ends
      rw [List.take_append_drop] at rest
      rw [cursorAfter, ends]
      exact rest

/-- A cursor that moved to a host of the listing leaves everything above the old one below it. -/
theorem above_of_above_cursor {listing : List Host} {cursor : Option HostId}
    (beyond : ∀ host ∈ listing, above cursor host = true) (limit : Nat) {host : Host}
    (isAbove : above (cursorAfter cursor (listing.take limit)) host = true) :
    above cursor host = true := by
  cases ends : (listing.take limit).getLast? with
  | none => simpa [cursorAfter, ends] using isAbove
  | some last =>
      have inListing : last ∈ listing := List.mem_of_mem_take (List.mem_of_getLast? ends)
      cases cursor with
      | none => rfl
      | some id =>
          have passed := above_some.1 (beyond last inListing)
          rw [cursorAfter, ends] at isAbove
          exact above_some.2 (AscendingKey.trans passed (above_some.1 isAbove))

/-- Above the last of the first hosts above a cursor lie the others. -/
theorem filter_above_taken {hosts : List Host} (ascending : Ascending hosts) (cursor : Option HostId)
    (count : Nat) :
    hosts.filter (above (cursorAfter cursor ((hosts.filter (above cursor)).take count))) =
      (hosts.filter (above cursor)).drop count := by
  have beyond : ∀ host ∈ hosts.filter (above cursor), above cursor host = true :=
    fun host present => (List.mem_filter.1 present).2
  rw [← filter_above_cursor (ascending.filter (above cursor)) beyond count, List.filter_filter]
  refine List.filter_congr fun host _ => ?_
  cases isAbove : above (cursorAfter cursor ((hosts.filter (above cursor)).take count)) host with
  | false => rfl
  | true => rw [above_of_above_cursor beyond count isAbove, Bool.and_self]

/-- A page that held a host leaves fewer hosts above the cursor, whatever else the listing may
have been taken from. -/
theorem length_above_cursor_lt {hosts listing : List Host} {cursor : Option HostId}
    (within : ∀ host ∈ listing, host ∈ hosts)
    (beyond : ∀ host ∈ listing, above cursor host = true) {limit : Nat}
    (held : listing.take limit ≠ []) :
    (hosts.filter (above (cursorAfter cursor (listing.take limit)))).length <
      (hosts.filter (above cursor)).length := by
  have smaller : hosts.filter (above (cursorAfter cursor (listing.take limit))) =
      (hosts.filter (above cursor)).filter
        (above (cursorAfter cursor (listing.take limit))) := by
    rw [List.filter_filter]
    refine List.filter_congr fun host _ => ?_
    cases isAbove : above (cursorAfter cursor (listing.take limit)) host with
    | false => rw [Bool.false_and]
    | true => rw [above_of_above_cursor beyond limit isAbove, Bool.and_self]
  rw [smaller, List.length_filter_lt_length_iff_exists]
  have last := List.getLast?_eq_some_getLast held
  have inListing := List.mem_of_mem_take (List.getLast_mem held)
  refine ⟨(listing.take limit).getLast held, List.mem_filter.2
    ⟨within _ inListing, beyond _ inListing⟩, ?_⟩
  rw [cursorAfter, last]
  exact fun isAbove => AscendingKey.irrefl _ (above_some.1 isAbove)

/-! ### Judging page by page -/

section Judging

variable (plan : Plan) (start : Inventory) (account : String) (cursor : Option HostId)

/-- What is still stored above a cursor is what was stored there without the removed hosts. -/
theorem filter_above_after (removals : List Decision) :
    ((start.after removals).hostsOf account).filter (above cursor) =
      ((start.hostsOf account).filter (above cursor)).filter fun host =>
        host.id ∉ duplicateIds removals := by
  simp only [hostsOf_after, List.filter_filter, Bool.and_comm]

/-- A page and what lies above the new cursor are what lies above the old one. -/
theorem page_append (inventory : Inventory) {limit : Nat} {page : List Host}
    (taken : page = inventory.page account cursor limit) :
    page ++ (inventory.hostsOf account).filter (above (cursorAfter cursor page)) =
      (inventory.hostsOf account).filter (above cursor) := by
  have rest := filter_above_taken (inventory.hostsOf_ascending account) cursor limit
  rw [taken]
  exact (congrArg (_ ++ ·) rest).trans (List.take_append_drop limit _)

/-- A page and, behind it, what the start held above the new cursor: without the removed hosts
this is what is still stored above the old one. -/
theorem filter_page_append {removals : List Decision} {limit : Nat} {page : List Host}
    (taken : page = (start.after removals).page account cursor limit) :
    (page ++ (start.hostsOf account).filter (above (cursorAfter cursor page))).filter
        (fun host => host.id ∉ duplicateIds removals) =
      ((start.hostsOf account).filter (above cursor)).filter fun host =>
        host.id ∉ duplicateIds removals := by
  have unremoved : page.filter (fun host => host.id ∉ duplicateIds removals) = page := by
    refine List.filter_eq_self.2 fun host present => ?_
    rw [taken] at present
    have stored := (List.mem_filter.1 (List.mem_of_mem_take present)).1
    exact decide_eq_true (mem_hostsOf_after.1 stored).2
  rw [List.filter_append, unremoved, ← filter_above_after, ← filter_above_after]
  exact page_append account cursor (start.after removals) taken

/-- A page shorter than asked for holds all that is still stored above the cursor. -/
theorem page_of_short {removals : List Decision} {limit : Nat} {page : List Host}
    (taken : page = (start.after removals).page account cursor limit) (short : page.length < limit) :
    page = ((start.hostsOf account).filter (above cursor)).filter fun host =>
      host.id ∉ duplicateIds removals := by
  rw [taken, Inventory.page, List.length_take] at short
  rw [← filter_above_after, taken, Inventory.page, List.take_of_length_le]
  omega

/-- Judging the hosts still stored leads to the same decisions as judging those removed, too. -/
theorem foldl_judge_unremoved {removals decisions : List Decision} (removed : removals <+: decisions)
    (pending : List Host) :
    (pending.filter fun host => host.id ∉ duplicateIds removals).foldl (judge plan start) decisions =
      pending.foldl (judge plan start) decisions :=
  foldl_judge_filter fun _ _ lost => mem_duplicateIds_mono removed (by simpa using lost)

/-- Judging a page and then what the start held above the new cursor is judging everything
above the old one. -/
theorem foldl_judge_page {removals decisions : List Decision} (removed : removals <+: decisions)
    {limit : Nat} {page : List Host}
    (taken : page = (start.after removals).page account cursor limit) :
    ((start.hostsOf account).filter (above (cursorAfter cursor page))).foldl (judge plan start)
        (page.foldl (judge plan start) decisions) =
      ((start.hostsOf account).filter (above cursor)).foldl (judge plan start) decisions := by
  rw [← List.foldl_append, ← foldl_judge_unremoved plan start removed,
    filter_page_append start account cursor taken, foldl_judge_unremoved plan start removed]

/-- A page shorter than asked for is the last one. -/
theorem foldl_judge_last {removals decisions : List Decision} (removed : removals <+: decisions)
    {limit : Nat} {page : List Host}
    (taken : page = (start.after removals).page account cursor limit) (short : page.length < limit) :
    page.foldl (judge plan start) decisions =
      ((start.hostsOf account).filter (above cursor)).foldl (judge plan start) decisions := by
  rw [page_of_short start account cursor taken short, foldl_judge_unremoved plan start removed]

/-- A full page leaves fewer of the hosts held at the start above the cursor. -/
theorem length_above_page_lt {removals : List Decision} {limit : Nat} {page : List Host}
    (taken : page = (start.after removals).page account cursor limit) (full : limit ≤ page.length)
    (positive : limit ≠ 0) :
    ((start.hostsOf account).filter (above (cursorAfter cursor page))).length <
      ((start.hostsOf account).filter (above cursor)).length := by
  have nonempty : page ≠ [] := by
    rintro rfl
    exact positive (Nat.le_zero.1 full)
  rw [taken] at nonempty ⊢
  refine length_above_cursor_lt (fun host present => ?_)
    (fun host present => (List.mem_filter.1 present).2) nonempty
  exact (mem_hostsOf_after.1 (List.mem_filter.1 present).1).1

end Judging

end Inventory

end HostPruning
