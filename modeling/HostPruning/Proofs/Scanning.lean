import HostPruning.Proofs.Pages

/-!
# Scanning while others change the inventory

A scan is asked for one host at a time, and between two times others may insert, overwrite and erase
hosts at will: `turns` lists what becomes of each time. Whatever they do, a scan hands out hosts in
ascending order, each as it was when its page was queried, and a host that is there every time the scan
is asked is handed out exactly once before the scan ends (`Thorough`). Once a scan has had nothing to
hand out, or a query has failed, it never queries again, whatever the store (`Ends`).

What carries the argument is about the hosts gathered, that is those handed out and those that wait in
the buffer: `Gathered` is kept by every page (`Gathered.receive`), and handing a host out leaves them as
they are.
-/

namespace HostPruning

namespace Scan

variable {State : Type} {store : HostStore State} {scan : Scan} {state left : State} {account : String}
  {cursor : Option HostId} {id : HostId} {hosts page : List Host}

/-! ### One time -/

theorem next_of_waiting {host : Host} {rest : List Host} (waiting : scan.buffer = host :: rest) :
    scan.next store state = (.ok (some host), { scan with buffer := rest, cursor := some host.id }, state) := by
  simp [Scan.next, pop, waiting]

theorem next_of_exhausted (empty : scan.buffer = []) (exhausted : scan.exhausted = true) :
    scan.next store state = (.ok none, scan, state) := by
  simp [Scan.next, empty, exhausted]

theorem next_of_failed (empty : scan.buffer = []) (more : scan.exhausted = false) {failure : Failure}
    (failed : store.page scan.account scan.fetched scan.chunkSize state = (.error failure, left)) :
    scan.next store state = (.error failure, { scan with exhausted := true }, left) := by
  simp [Scan.next, fetch, empty, more, failed]

theorem next_of_page (empty : scan.buffer = []) (more : scan.exhausted = false)
    (answered : store.page scan.account scan.fetched scan.chunkSize state = (.ok page, left)) :
    scan.next store state = (.ok (scan.receive page).pop.1, (scan.receive page).pop.2, left) := by
  simp [Scan.next, fetch, empty, more, answered]

/-- What a scan does when it is asked: it hands out what waits, has nothing left, or queries a page. -/
theorem next_cases (store : HostStore State) (scan : Scan) (state : State) :
    (∃ host rest, scan.buffer = host :: rest ∧ scan.next store state =
        (.ok (some host), { scan with buffer := rest, cursor := some host.id }, state)) ∨
      (scan.buffer = [] ∧ scan.exhausted = true ∧ scan.next store state = (.ok none, scan, state)) ∨
      (scan.buffer = [] ∧ scan.exhausted = false ∧
        ((∃ failure left, store.page scan.account scan.fetched scan.chunkSize state = (.error failure, left) ∧
            scan.next store state = (.error failure, { scan with exhausted := true }, left)) ∨
          ∃ page left, store.page scan.account scan.fetched scan.chunkSize state = (.ok page, left) ∧
            scan.next store state = (.ok (scan.receive page).pop.1, (scan.receive page).pop.2, left))) := by
  by_cases empty : scan.buffer = []
  · refine Or.inr ?_
    by_cases exhausted : scan.exhausted = true
    · exact Or.inl ⟨empty, exhausted, next_of_exhausted empty exhausted⟩
    · have more := Bool.eq_false_iff.2 exhausted
      refine Or.inr ⟨empty, more, ?_⟩
      cases answered : store.page scan.account scan.fetched scan.chunkSize state with
      | mk answer left =>
          cases answer with
          | error failure => exact Or.inl ⟨failure, left, rfl, next_of_failed empty more answered⟩
          | ok page => exact Or.inr ⟨page, left, rfl, next_of_page empty more answered⟩
  · obtain ⟨host, rest, waiting⟩ := List.exists_cons_of_ne_nil empty
    exact Or.inl ⟨host, rest, waiting, next_of_waiting waiting⟩

@[simp]
theorem account_pop (scan : Scan) : scan.pop.2.account = scan.account := by
  unfold pop
  split <;> rfl

@[simp]
theorem chunkSize_pop (scan : Scan) : scan.pop.2.chunkSize = scan.chunkSize := by
  unfold pop
  split <;> rfl

@[simp]
theorem fetched_pop (scan : Scan) : scan.pop.2.fetched = scan.fetched := by
  unfold pop
  split <;> rfl

@[simp]
theorem exhausted_pop (scan : Scan) : scan.pop.2.exhausted = scan.exhausted := by
  unfold pop
  split <;> rfl

@[simp]
theorem pages_pop (scan : Scan) : scan.pop.2.pages = scan.pages := by
  unfold pop
  split <;> rfl

/-- Handing out takes the first of the hosts that wait. -/
theorem buffer_eq_pop (scan : Scan) : scan.buffer = scan.pop.1.toList ++ scan.pop.2.buffer := by
  unfold pop
  split
  next empty => simp [empty]
  next host rest waiting => simpa using waiting

/-- The page size stays. -/
theorem chunkSize_next (store : HostStore State) (scan : Scan) (state : State) :
    (scan.next store state).2.1.chunkSize = scan.chunkSize := by
  rcases next_cases store scan state with ⟨_, _, -, same⟩ | ⟨-, -, same⟩ |
    ⟨-, -, ⟨_, _, -, same⟩ | ⟨page, _, -, same⟩⟩ <;> rw [same]
  exact chunkSize_pop (scan.receive page)

/-- Whether a scan has ended: whatever store it is asked before, it queries nothing and hands out nothing. -/
def Over (scan : Scan) : Prop :=
  ∀ (State : Type) (store : HostStore State) (state : State), scan.next store state = (.ok none, scan, state)

/-- A scan that had nothing to hand out, or whose query failed, has ended. -/
theorem over_of_next (positive : 0 < scan.chunkSize)
    (nothing : ∀ host, (scan.next store state).1 ≠ .ok (some host)) : (scan.next store state).2.1.Over := by
  rcases next_cases store scan state with ⟨host, _, -, same⟩ | ⟨empty, exhausted, same⟩ |
    ⟨empty, -, ⟨_, _, -, same⟩ | ⟨page, _, -, same⟩⟩ <;> rw [same] at nothing ⊢
  · exact absurd rfl (nothing host)
  · exact fun _ _ _ => next_of_exhausted empty exhausted
  · exact fun _ _ _ => next_of_exhausted empty rfl
  · cases page with
    | nil =>
        have received : (scan.receive []).buffer = [] := by simp [receive, empty]
        have short : (scan.receive []).exhausted = true := by simp [receive, positive]
        simp only [pop, received]
        exact fun _ _ _ => next_of_exhausted received short
    | cons host rest =>
        have received : (scan.receive (host :: rest)).buffer = host :: rest := by simp [receive, empty]
        simp [pop, received] at nothing

/-! ### Many times -/

/-- What happens while a scan goes on: others change the state, or the scan is asked for its next host. -/
inductive Occasion (State : Type) where
  | change (act : State → State)
  | ask

/-- A time that a scan was asked for its next host. -/
structure Turn (State : Type) where
  /-- The state that the scan found. -/
  found : State
  before : Scan
  answer : Except Failure (Option Host)
  after : Scan
  left : State

namespace Turn

/-- The host that was handed out. -/
def host? (turn : Turn State) : Option Host := turn.answer.toOption.join

/-- Whether a page arrived. -/
def queried (turn : Turn State) : Bool := turn.before.pages < turn.after.pages

end Turn

/-- The turn of a scan that is asked. -/
def turnOf (store : HostStore State) (scan : Scan) (state : State) : Turn State :=
  let (answer, next, left) := scan.next store state
  ⟨state, scan, answer, next, left⟩

/-- The times a scan is asked, one after the other. -/
def turns (store : HostStore State) : List (Occasion State) → Scan → State → List (Turn State)
  | [], _, _ => []
  | .change act :: rest, scan, state => turns store rest scan (act state)
  | .ask :: rest, scan, state =>
      let turn := turnOf store scan state
      turn :: turns store rest turn.after turn.left

/-- The hosts handed out so far. -/
def handed (past : List (Turn State)) : List Host := past.filterMap Turn.host?

/-- The states in which the pages so far were queried. -/
def queries (past : List (Turn State)) : List State := (past.filter Turn.queried).map Turn.found

/-- Each time the scan goes on from where it was left the time before. -/
theorem turns_split {occasions : List (Occasion State)} {front later : List (Turn State)} {turn : Turn State}
    (split : turns store occasions scan state = front ++ turn :: later) :
    turn.before.next store turn.found = (turn.answer, turn.after, turn.left) ∧
      turn.before.chunkSize = scan.chunkSize ∧
        ∃ rest, later = turns store rest turn.after turn.left := by
  induction occasions generalizing scan state front with
  | nil => cases front <;> cases split
  | cons occasion rest inductionHypothesis =>
      cases occasion with
      | change act => exact inductionHypothesis split
      | ask =>
          cases front with
          | nil =>
              obtain ⟨rfl, rfl⟩ := List.cons.inj split
              exact ⟨rfl, rfl, rest, rfl⟩
          | cons first front =>
              obtain ⟨-, further⟩ := List.cons.inj split
              obtain ⟨went, sized, others⟩ := inductionHypothesis further
              exact ⟨went, sized.trans (chunkSize_next store scan state), others⟩

/-- A scan that has ended stays as it is, whatever others do. -/
theorem turns_of_over (ended : scan.Over) (occasions : List (Occasion State)) :
    ∀ turn ∈ turns store occasions scan state,
      turn.answer = .ok none ∧ turn.after = scan ∧ turn.left = turn.found := by
  induction occasions generalizing state with
  | nil =>
      intro turn among
      cases among
  | cons occasion rest inductionHypothesis =>
      cases occasion with
      | change act => exact inductionHypothesis
      | ask =>
          intro turn among
          have here : turnOf store scan state = ⟨state, scan, .ok none, scan, state⟩ := by
            rw [turnOf, ended State store state]
          rw [turns, here] at among
          rcases List.mem_cons.1 among with rfl | later
          · exact ⟨rfl, rfl, rfl⟩
          · exact inductionHypothesis turn later

/-- How a scan ends, whatever the store: from the first time on that it hands out nothing, it hands out
nothing, queries nothing and stays as it is. -/
def Ends (all : List (Turn State)) : Prop :=
  ∀ front turn later, all = front ++ turn :: later → turn.host? = none →
    turn.after.Over ∧
      ∀ further ∈ later, further.answer = .ok none ∧ further.after = turn.after ∧ further.left = further.found

theorem turns_end (positive : 0 < scan.chunkSize) (store : HostStore State)
    (occasions : List (Occasion State)) (state : State) : Ends (turns store occasions scan state) := by
  intro front turn later split nothing
  obtain ⟨went, sized, rest, rfl⟩ := turns_split split
  have ended : turn.after.Over := by
    have bounded : 0 < turn.before.chunkSize := sized ▸ positive
    have stopped : (turn.before.next store turn.found).2.1.Over := by
      refine over_of_next bounded fun host same => ?_
      rw [went] at same
      rw [Turn.host?, show turn.answer = .ok (some host) from same] at nothing
      cases nothing
    rwa [went] at stopped
  exact ⟨ended, turns_of_over ended rest⟩

/-! ### Gathering -/

/-- Whether an identifier lies above a cursor. -/
def Beyond (cursor : Option HostId) (id : HostId) : Prop := ∀ start, cursor = some start → start < id

theorem above_iff {host : Host} : Inventory.above cursor host = true ↔ Beyond cursor host.id := by
  cases cursor <;> simp [Inventory.above, Beyond]

theorem cursorAfter_append (cursor : Option HostId) (first second : List Host) :
    cursorAfter cursor (first ++ second) = cursorAfter (cursorAfter cursor first) second := by
  cases last : second.getLast? with
  | none => simp [cursorAfter, List.getLast?_eq_none_iff.1 last]
  | some host => simp [cursorAfter, List.getLast?_append, last]

theorem cursor_pop (scan : Scan) : scan.pop.2.cursor = cursorAfter scan.cursor scan.pop.1.toList := by
  unfold pop
  split <;> rfl

/-- Above the cursor after some ascending hosts lies what is above them all. -/
theorem beyond_cursorAfter (ascending : Ascending hosts) (beyond : ∀ host ∈ hosts, Beyond cursor host.id) :
    Beyond (cursorAfter cursor hosts) id ↔ Beyond cursor id ∧ ∀ host ∈ hosts, host.id < id := by
  cases last : hosts.getLast? with
  | none => simp [cursorAfter, List.getLast?_eq_none_iff.1 last]
  | some host =>
      obtain ⟨before, rfl⟩ := List.getLast?_eq_some_iff.1 last
      have below : ∀ other ∈ before, other.id < host.id := fun other among =>
        (List.pairwise_append.1 ascending).2.2 other among host (List.mem_singleton_self host)
      have atLast : Beyond (cursorAfter cursor (before ++ [host])) id ↔ host.id < id := by
        simp [cursorAfter, last, Beyond]
      rw [atLast]
      constructor
      · intro above
        refine ⟨fun start same => ?_, fun other among => ?_⟩
        · exact AscendingKey.trans (beyond host (by simp) start same) above
        · rcases List.mem_append.1 among with earlier | isLast
          · exact AscendingKey.trans (below other earlier) above
          · rwa [List.mem_singleton.1 isLast]
      · exact fun both => both.2 host (by simp)

/-- What a scan has gathered from the pages it queried: ascending hosts above where it started, and of
what was there at every query all that it has come past. -/
structure Gathered (account : String) (cursor : Option HostId) (asked : List Inventory) (hosts : List Host)
    (scan : Scan) : Prop where
  ofAccount : scan.account = account
  ascending : Ascending hosts
  beyond : ∀ host ∈ hosts, Beyond cursor host.id
  fetched : scan.fetched = cursorAfter cursor hosts
  complete : ∀ id, Beyond cursor id →
    (∀ inventory ∈ asked, ∃ host ∈ inventory.hostsOf account, host.id = id) →
    scan.exhausted = true ∨ ¬ Beyond scan.fetched id → ∃ host ∈ hosts, host.id = id

theorem Gathered.start (account : String) (chunkSize : Nat) (cursor : Option HostId) :
    Gathered account cursor [] [] (startAfter account chunkSize cursor) where
  ofAccount := rfl
  ascending := List.Pairwise.nil
  beyond := by simp
  fetched := rfl
  complete id beyond _ passed := by
    rcases passed with exhausted | below
    · cases exhausted
    · exact absurd beyond below

/-- A host ahead of a page is on it, or the page is full and ends in front of the host. -/
theorem on_page_or_beyond {inventory : Inventory} {limit : Nat} {host : Host}
    (stored : host ∈ inventory.hostsOf account) (ahead : Beyond cursor host.id)
    (taken : page = inventory.page account cursor limit) :
    host ∈ page ∨ page.length = limit ∧ Beyond (cursorAfter cursor page) host.id := by
  have within : ∀ host ∈ (inventory.hostsOf account).filter (Inventory.above cursor),
      Inventory.above cursor host = true := fun host among => (List.mem_filter.1 among).2
  have listed := (inventory.hostsOf_ascending account).filter (Inventory.above cursor)
  have among : host ∈ (inventory.hostsOf account).filter (Inventory.above cursor) :=
    List.mem_filter.2 ⟨stored, above_iff.2 ahead⟩
  rw [← List.take_append_drop limit (List.filter _ _), List.mem_append] at among
  rcases among with onPage | behind
  · exact Or.inl (taken ▸ onPage)
  · refine Or.inr ⟨?_, ?_⟩
    · have longer := List.length_pos_of_mem behind
      rw [List.length_drop] at longer
      rw [taken, Inventory.page, List.length_take]
      omega
    · rw [← Inventory.filter_above_cursor listed within, List.mem_filter, above_iff] at behind
      rw [taken]
      exact behind.2

/-- A page adds to what is gathered. -/
theorem Gathered.receive {asked : List Inventory} (gathered : Gathered account cursor asked hosts scan)
    (more : scan.exhausted = false) {inventory : Inventory}
    (taken : page = inventory.page account scan.fetched scan.chunkSize) :
    Gathered account cursor (asked ++ [inventory]) (hosts ++ page) (scan.receive page) := by
  have past : ∀ {id}, Beyond scan.fetched id ↔ Beyond cursor id ∧ ∀ host ∈ hosts, host.id < id := by
    rw [gathered.fetched]
    exact beyond_cursorAfter gathered.ascending gathered.beyond
  have pagePast : ∀ host ∈ page, Beyond scan.fetched host.id := by
    intro host among
    rw [taken] at among
    exact above_iff.1 (List.mem_filter.1 (List.mem_of_mem_take among)).2
  have fetched : (scan.receive page).fetched = cursorAfter scan.fetched page := rfl
  refine ⟨gathered.ofAccount, ?_, ?_, ?_, ?_⟩
  · refine List.pairwise_append.2 ⟨gathered.ascending, ?_, fun earlier before later among =>
      (past.1 (pagePast later among)).2 earlier before⟩
    rw [taken]
    exact ((inventory.hostsOf_ascending account).filter (Inventory.above _)).sublist (List.take_sublist _ _)
  · intro host among
    rcases List.mem_append.1 among with earlier | new
    · exact gathered.beyond host earlier
    · exact (past.1 (pagePast host new)).1
  · rw [fetched, gathered.fetched, cursorAfter_append]
  · intro id beyond present passed
    by_cases before : Beyond scan.fetched id
    · obtain ⟨host, stored, rfl⟩ := present inventory (by simp)
      rcases on_page_or_beyond stored before taken with onPage | ⟨full, still⟩
      · exact ⟨host, List.mem_append_right _ onPage, rfl⟩
      · rcases passed with exhausted | below
        · simp [Scan.receive, more, full] at exhausted
        · exact absurd still below
    · obtain ⟨host, among, same⟩ := gathered.complete id beyond
        (fun inventory asked => present inventory (List.mem_append_left _ asked)) (Or.inr before)
      exact ⟨host, List.mem_append_left _ among, same⟩

/-- Handing out a host changes nothing about what is gathered. -/
theorem Gathered.pop {asked : List Inventory} (gathered : Gathered account cursor asked hosts scan) :
    Gathered account cursor asked hosts scan.pop.2 := by
  obtain ⟨ofAccount, ascending, beyond, fetched, complete⟩ := gathered
  rw [← account_pop] at ofAccount
  rw [← fetched_pop] at fetched complete
  rw [← exhausted_pop] at complete
  exact ⟨ofAccount, ascending, beyond, fetched, complete⟩

/-! ### Scanning an inventory -/

theorem handed_append (past : List (Turn State)) (turn : Turn State) :
    handed (past ++ [turn]) = handed past ++ turn.host?.toList := by
  cases given : turn.host? <;> simp [handed, given]

theorem queries_append (past : List (Turn State)) (turn : Turn State) :
    queries (past ++ [turn]) = if turn.queried then queries past ++ [turn.found] else queries past := by
  cases asked : turn.queried <;> simp [queries, asked]

/-- Where a scan of an inventory stands: the hosts handed out and those that wait are what was gathered,
and those that wait were in the account when the last page was queried. -/
structure Kept (account : String) (cursor : Option HostId) (past : List (Turn Inventory)) (scan : Scan) :
    Prop where
  gathered : Gathered account cursor (queries past) (handed past ++ scan.buffer) scan
  waiting : ∀ host ∈ scan.buffer, ∃ inventory, (queries past).getLast? = some inventory ∧
    host ∈ inventory.hostsOf account

theorem Kept.start (account : String) (chunkSize : Nat) (cursor : Option HostId) :
    Kept account cursor [] (startAfter account chunkSize cursor) where
  gathered := Gathered.start account chunkSize cursor
  waiting := by simp [startAfter]

/-- What a time leaves of a scan that stands well. -/
structure Stepped (account : String) (cursor : Option HostId) (past : List (Turn Inventory))
    (turn : Turn Inventory) : Prop where
  kept : Kept account cursor (past ++ [turn]) turn.after
  given : ∀ host, turn.host? = some host → ∃ inventory,
    (queries (past ++ [turn])).getLast? = some inventory ∧ host ∈ inventory.hostsOf account
  answered : ∃ host, turn.answer = .ok host
  ended : turn.answer = .ok none → 0 < turn.before.chunkSize →
    turn.after.buffer = [] ∧ turn.after.exhausted = true

namespace Kept

variable {past : List (Turn Inventory)} {inventory left : Inventory}

/-- The first of the hosts that wait is handed out. -/
theorem step_waiting (kept : Kept account cursor past scan) {host : Host} {rest : List Host}
    (waiting : scan.buffer = host :: rest) :
    Stepped account cursor past ⟨inventory, scan, .ok (some host),
      { scan with buffer := rest, cursor := some host.id }, inventory⟩ := by
  have quiet : queries (past ++ [⟨inventory, scan, .ok (some host),
      { scan with buffer := rest, cursor := some host.id }, inventory⟩]) = queries past := by
    simp [queries_append, Turn.queried]
  have stored := kept.waiting
  rw [waiting, List.forall_mem_cons] at stored
  refine ⟨⟨?_, ?_⟩, ?_, ⟨_, rfl⟩, fun same => by cases same⟩
  · have popped := kept.gathered.pop
    simp only [Scan.pop, waiting] at popped
    rw [quiet, handed_append, List.append_assoc]
    exact popped
  · rw [quiet]
    exact stored.2
  · intro other given
    cases given
    rw [quiet]
    exact stored.1

/-- An exhausted scan has nothing left. -/
theorem step_exhausted (kept : Kept account cursor past scan) (empty : scan.buffer = [])
    (exhausted : scan.exhausted = true) :
    Stepped account cursor past ⟨inventory, scan, .ok none, scan, inventory⟩ := by
  have quiet : queries (past ++ [⟨inventory, scan, .ok none, scan, inventory⟩]) = queries past := by
    simp [queries_append, Turn.queried]
  refine ⟨⟨?_, ?_⟩, fun host given => (by cases given), ⟨_, rfl⟩, fun _ _ => ⟨empty, exhausted⟩⟩
  · rw [quiet, handed_append]
    simpa [Turn.host?, Except.toOption] using kept.gathered
  · rw [quiet]
    exact kept.waiting

/-- A page arrives, and its first host is handed out. -/
theorem step_page (kept : Kept account cursor past scan) (empty : scan.buffer = [])
    (more : scan.exhausted = false)
    (taken : page = inventory.page account scan.fetched scan.chunkSize) :
    Stepped account cursor past
      ⟨inventory, scan, .ok (scan.receive page).pop.1, (scan.receive page).pop.2, left⟩ := by
  have asked : queries (past ++ [⟨inventory, scan, .ok (scan.receive page).pop.1,
      (scan.receive page).pop.2, left⟩]) = queries past ++ [inventory] := by
    simp [queries_append, Turn.queried, receive]
  have buffer : (scan.receive page).buffer = page := by simp [receive, empty]
  have split := buffer_eq_pop (scan.receive page)
  rw [buffer] at split
  have stored : ∀ host ∈ page, ∃ found, (queries past ++ [inventory]).getLast? = some found ∧
      host ∈ found.hostsOf account := by
    intro host among
    rw [taken] at among
    exact ⟨inventory, List.getLast?_concat, (List.mem_filter.1 (List.mem_of_mem_take among)).1⟩
  refine ⟨⟨?_, ?_⟩, ?_, ⟨_, rfl⟩, ?_⟩
  · have received := (kept.gathered.receive more taken).pop
    have whole : handed past ++ scan.buffer ++ page =
        handed past ++ (scan.receive page).pop.1.toList ++ (scan.receive page).pop.2.buffer := by
      rw [List.append_assoc _ (Option.toList _), ← split, empty, List.append_nil]
    rw [whole] at received
    rw [asked, handed_append]
    exact received
  · rw [asked]
    exact fun host among => stored host (split ▸ List.mem_append_right _ among)
  · intro host found
    have given : (scan.receive page).pop.1 = some host := found
    rw [asked]
    exact stored host (split ▸ by simp [given])
  · intro nothing positive
    have noPage : page = [] := by
      cases page with
      | nil => rfl
      | cons host rest => simp [pop, buffer] at nothing
    subst noPage
    simp [pop, receive, empty, positive]

/-- A scan that stands well goes on to stand well. -/
theorem step {turn : Turn Inventory} (kept : Kept account cursor past turn.before)
    (went : turn.before.next Inventory.store turn.found = (turn.answer, turn.after, turn.left)) :
    Stepped account cursor past turn := by
  obtain ⟨inventory, before, answer, after, left⟩ := turn
  dsimp only at kept went
  rcases next_cases Inventory.store before inventory with ⟨host, rest, waiting, same⟩ |
    ⟨empty, exhausted, same⟩ | ⟨empty, more, ⟨failure, _, failed, -⟩ | ⟨page, _, answered, same⟩⟩
  case inl =>
    cases same.symm.trans went
    exact kept.step_waiting waiting
  case inr.inl =>
    cases same.symm.trans went
    exact kept.step_exhausted empty exhausted
  case inr.inr.inl => cases failed
  case inr.inr.inr =>
    cases same.symm.trans went
    refine kept.step_page empty more ?_
    rw [← kept.gathered.ofAccount]
    cases answered
    rfl

/-- Every time finds a scan that stands well. -/
theorem run (kept : Kept account cursor past scan) {occasions : List (Occasion Inventory)}
    {front later : List (Turn Inventory)} {turn : Turn Inventory}
    (split : turns Inventory.store occasions scan inventory = front ++ turn :: later) :
    Stepped account cursor (past ++ front) turn := by
  induction occasions generalizing past scan inventory front with
  | nil => cases front <;> cases split
  | cons occasion rest inductionHypothesis =>
      cases occasion with
      | change act => exact inductionHypothesis kept split
      | ask =>
          have stepped : Stepped account cursor past (turnOf Inventory.store scan inventory) := kept.step rfl
          cases front with
          | nil =>
              obtain ⟨rfl, -⟩ := List.cons.inj split
              rwa [List.append_nil]
          | cons first front =>
              obtain ⟨same, further⟩ := List.cons.inj split
              have later := inductionHypothesis stepped.kept further
              rwa [List.append_assoc, List.singleton_append, same] at later

end Kept

/-- When a scan has nothing more to hand out, what was there each time has been handed out once. -/
theorem Stepped.handed_once {front : List (Turn Inventory)} {turn : Turn Inventory}
    (stepped : Stepped account cursor front turn) (positive : 0 < turn.before.chunkSize)
    (nothing : turn.answer = .ok none) (beyond : Beyond cursor id)
    (present : ∀ earlier ∈ front ++ [turn], ∃ host ∈ earlier.found.hostsOf account, host.id = id) :
    ((handed front).map Host.id).count id = 1 := by
  obtain ⟨empty, exhausted⟩ := stepped.ended nothing positive
  have gathered := stepped.kept.gathered
  have handedBefore : handed (front ++ [turn]) = handed front := by
    rw [handed_append, Turn.host?, nothing]
    simp [Except.toOption]
  rw [empty, List.append_nil, handedBefore] at gathered
  have stored : ∀ inventory ∈ queries (front ++ [turn]),
      ∃ host ∈ inventory.hostsOf account, host.id = id := by
    intro inventory asked
    obtain ⟨earlier, among, rfl⟩ := List.mem_map.1 asked
    exact present earlier (List.mem_filter.1 among).1
  obtain ⟨host, among, same⟩ := gathered.complete id beyond stored (Or.inl exhausted)
  refine List.count_eq_one_of_mem ?_ (List.mem_map.2 ⟨host, among, same⟩)
  refine (List.pairwise_map.2 gathered.ascending).imp ?_
  rintro earlier later before rfl
  exact AscendingKey.irrefl earlier before

/-- How an account of an inventory is scanned while others change the inventory. -/
structure Thorough (account : String) (cursor : Option HostId) (all : List (Turn Inventory)) : Prop where
  ascending : Ascending (handed all)
  beyond : ∀ host ∈ handed all, Beyond cursor host.id
  /-- A host that is handed out was in the account when its page was queried. -/
  fetched : ∀ front turn later host, all = front ++ turn :: later → turn.host? = some host →
    ∃ inventory, (queries (front ++ [turn])).getLast? = some inventory ∧ host ∈ inventory.hostsOf account
  /-- What was there each time until the scan ended was handed out once. -/
  complete : ∀ front turn later, all = front ++ turn :: later → turn.answer = .ok none →
    ∀ id, Beyond cursor id →
      (∀ earlier ∈ front ++ [turn], ∃ host ∈ earlier.found.hostsOf account, host.id = id) →
        ((handed front).map Host.id).count id = 1
  unfailing : ∀ turn ∈ all, ∃ host, turn.answer = .ok host

/-- A scan loses no host and repeats none, whatever others do to the inventory between two times, and before
any store it ends once. -/
theorem turns_thorough {chunkSize : Nat} (positive : 0 < chunkSize) (account : String)
    (cursor : Option HostId) :
    (∀ occasions inventory, Thorough account cursor
      (turns Inventory.store occasions (startAfter account chunkSize cursor) inventory)) ∧
    ∀ (State : Type) (store : HostStore State) occasions state,
      Ends (turns store occasions (startAfter account chunkSize cursor) state) := by
  refine ⟨fun occasions inventory => ?_, fun _ store occasions state => turns_end positive store occasions state⟩
  have run : ∀ {front turn later},
      turns Inventory.store occasions (startAfter account chunkSize cursor) inventory = front ++ turn :: later →
        Stepped account cursor front turn ∧ turn.before.chunkSize = chunkSize :=
    fun split => ⟨(Kept.start account chunkSize cursor).run split, (turns_split split).2.1⟩
  generalize turns Inventory.store occasions (startAfter account chunkSize cursor) inventory = all at run
  have whole : Ascending (handed all) ∧ ∀ host ∈ handed all, Beyond cursor host.id := by
    rcases List.eq_nil_or_concat all with rfl | ⟨front, last, rfl⟩
    · exact ⟨List.Pairwise.nil, by simp [handed]⟩
    · rw [List.concat_eq_append] at run ⊢
      have gathered := (run rfl).1.kept.gathered
      exact ⟨(List.pairwise_append.1 gathered.ascending).1,
        fun host among => gathered.beyond host (List.mem_append_left _ among)⟩
  refine ⟨whole.1, whole.2, fun front turn later host split given => (run split).1.given host given, ?_, ?_⟩
  · intro front turn later split nothing id beyond present
    obtain ⟨stepped, sized⟩ := run split
    exact stepped.handed_once (sized ▸ positive) nothing beyond present
  · intro turn among
    obtain ⟨front, later, split⟩ := List.append_of_mem among
    exact (run split).1.answered

/-- Pages of two hosts: the third host is erased while it waits, so it is still handed out, the second
appears behind the page and is not, and the fourth appears ahead of it and is. -/
theorem changed_hosts_scanned :
    let host (number : Fin 7) : Host :=
      Inventory.exampleHost ⟨number, Nat.lt_trans number.isLt (by decide)⟩ "acct-1" (.object []) 0
    let inventory := Inventory.ofHosts [host 1, host 3, host 5, host 6]
    let occasions : List (Occasion Inventory) :=
      [.ask, .change (·.erase (host 3).id), .change (·.insert (host 2)), .ask,
        .change (·.insert (host 4)), .ask, .ask, .ask, .ask, .ask]
    let all := turns Inventory.store occasions (startAfter "acct-1" 2 none) inventory
    0 < 2 ∧ Thorough "acct-1" none all ∧ Ends all ∧
      (handed all).map Host.id = [host 1, host 3, host 4, host 5, host 6].map Host.id := by
  intro host inventory occasions all
  have thorough := turns_thorough (by decide : 0 < 2) "acct-1" none
  exact ⟨by decide, thorough.1 occasions inventory, thorough.2 Inventory Inventory.store occasions inventory,
    by decide +kernel⟩

end Scan

end HostPruning
