import HostPruning.Proofs.Refinement
import HostPruning.Proofs.Scanning

/-!
# Page by page over a store that holds still or loses hosts

`Listed` stores hold the hosts of an account and cut pages of them; the inventory in memory is one, and
so is a database that holds an inventory. A scan of a store that holds still queries one page more than
the hosts ahead fill, and can be left after any host and taken up again from its cursor (`Paged`). If
hosts are only removed meanwhile it queries no more pages (`Bounded`).

Both rest on the hosts gathered, that is those handed out and those that wait. Over a store that holds
still they are a front of the hosts ahead, and as many as the pages so far hold (`Steady`). Over a store
that loses hosts, they and the hosts ahead of the last page never become more (`Waning`).
-/

namespace HostPruning

/-- A store whose states hold the hosts of an account in ascending order, and whose pages of some sizes
are cut from them. -/
structure Listed {State : Type} (store : HostStore State) (account : String) (fits : Nat → Prop)
    (holds : State → List Host → Prop) : Prop where
  ascending : ∀ {state hosts}, holds state hosts → Ascending hosts
  pages : ∀ {state hosts limit} (after : Option HostId), holds state hosts → fits limit →
    ∃ left, store.page account after limit state =
      (.ok ((hosts.filter (Inventory.above after)).take limit), left) ∧ holds left hosts

/-- A change that at most removes hosts. -/
def Thins {State : Type} (holds : State → List Host → Prop) (act : State → State) : Prop :=
  ∀ state hosts, holds state hosts → ∃ fewer, holds (act state) fewer ∧ fewer.Sublist hosts

namespace Inventory

/-- The inventory in memory cuts pages of any size. -/
theorem listed (account : String) : Listed store account (fun _ => True)
    fun inventory hosts => inventory.hostsOf account = hosts where
  ascending := by
    rintro inventory _ rfl
    exact inventory.hostsOf_ascending account
  pages := by
    rintro inventory _ limit after rfl -
    exact ⟨_, rfl, rfl⟩

theorem delete_thins (account : String) (id : HostId) :
    Thins (fun inventory hosts => inventory.hostsOf account = hosts)
      fun inventory => (store.delete id inventory).2 := by
  rintro inventory _ rfl
  refine ⟨_, rfl, ?_⟩
  dsimp only [store]
  split
  · exact List.Sublist.filter _ List.filter_sublist
  · exact List.Sublist.refl _

end Inventory

namespace Database

/-- What a database that holds an inventory lists of an account. -/
def Lists (account : String) (database : Database) (hosts : List Host) : Prop :=
  ∃ inventory, Represents database inventory ∧ (inventory.hostsOf account).map Host.inUtc = hosts

/-- A database cuts pages up to a greatest size. -/
theorem listed (account : String) :
    Listed store account (fun limit => limit ≤ greatestLimit) (Lists account) where
  ascending := by
    rintro database _ ⟨inventory, -, rfl⟩
    exact List.pairwise_map.2 (inventory.hostsOf_ascending account)
  pages := by
    rintro database _ limit after ⟨inventory, represents, rfl⟩ fits
    refine ⟨database, ?_, inventory, represents, rfl⟩
    have answered := query_eq (represents.loadPage_eq account after fits)
    rw [List.filter_map]
    exact answered.trans (by rw [Inventory.page, List.map_take]; rfl)

theorem delete_thins (account : String) (id : HostId) :
    Thins (Lists account) fun database => (store.delete id database).2 := by
  rintro database _ ⟨inventory, represents, rfl⟩
  obtain ⟨next, removed, kept⟩ := represents.removeHost_eq id
  have left : (store.delete id database).2 = next := by
    dsimp only [store]
    rw [removed]
  refine ⟨_, ⟨_, left.symm ▸ kept, rfl⟩, ?_⟩
  split
  · exact (List.Sublist.filter _ List.filter_sublist).map _
  · exact List.Sublist.refl _

end Database

namespace Scan

variable {State : Type} {store : HostStore State} {account : String} {fits : Nat → Prop}
  {holds : State → List Host → Prop} {cursor : Option HostId} {ahead given hosts : List Host}
  {sizes : List Nat} {scan : Scan} {state : State}

/-- The page that arrived. -/
def Turn.page? (store : HostStore State) (turn : Turn State) : Option (List Host) :=
  if turn.queried then
    (store.page turn.before.account turn.before.fetched turn.before.chunkSize turn.found).1.toOption
  else none

/-- The sizes of the pages that arrived. -/
def pageSizes (store : HostStore State) (past : List (Turn State)) : List Nat :=
  (past.filterMap (Turn.page? store)).map List.length

theorem pageSizes_append (past : List (Turn State)) (turn : Turn State) :
    pageSizes store (past ++ [turn]) = pageSizes store past ++ ((turn.page? store).map List.length).toList := by
  cases arrived : turn.page? store <;> simp [pageSizes, arrived]

/-- A scan that has hosts waiting, or has come to its end, goes by what it has. -/
theorem next_of_ready (ready : scan.buffer = [] → scan.exhausted = true) :
    scan.next store state = (.ok scan.pop.1, scan.pop.2, state) := by
  cases waiting : scan.buffer with
  | nil => rw [next_of_exhausted waiting (ready waiting), Scan.pop, waiting]
  | cons host rest => rw [next_of_waiting waiting, Scan.pop, waiting]

/-! ### What is gathered -/

/-- Handing out a host leaves what is gathered as it was. -/
theorem gathered_pop (given : List Host) (scan : Scan) :
    given ++ scan.pop.1.toList ++ scan.pop.2.buffer = given ++ scan.buffer := by
  rw [List.append_assoc, ← buffer_eq_pop]

theorem gathered_receive (given : List Host) (scan : Scan) (page : List Host) :
    given ++ (scan.receive page).buffer = given ++ scan.buffer ++ page :=
  (List.append_assoc given scan.buffer page).symm

/-- A scan goes on behind a full page, and ends behind a shorter one. -/
theorem exhausted_receive (more : scan.exhausted = false) {page : List Host}
    (within : page.length ≤ scan.chunkSize) :
    ((scan.receive page).exhausted = false → page.length = scan.chunkSize) ∧
      ((scan.receive page).exhausted = true → page.length < scan.chunkSize) := by
  simp only [Scan.receive, more, Bool.false_or, decide_eq_false_iff_not, decide_eq_true_eq]
  omega

/-! ### A store that holds still -/

/-- Where a scan stands that was to hand out some hosts: what it has gathered of them, and the sizes of
the pages they came in. -/
structure Steady (cursor : Option HostId) (ahead given : List Host) (sizes : List Nat) (scan : Scan) :
    Prop where
  gathered : given ++ scan.buffer <+: ahead
  fetched : scan.fetched = cursorAfter cursor (given ++ scan.buffer)
  reached : scan.cursor = cursorAfter cursor given
  unfinished : scan.exhausted = false → sizes = List.replicate scan.pages scan.chunkSize ∧
    (given ++ scan.buffer).length = scan.pages * scan.chunkSize
  finished : scan.exhausted = true → given ++ scan.buffer = ahead ∧
    scan.pages = ahead.length / scan.chunkSize + 1 ∧
      sizes = List.replicate (ahead.length / scan.chunkSize) scan.chunkSize ++
        [ahead.length % scan.chunkSize]

namespace Steady

theorem start (account : String) (limit : Nat) (cursor : Option HostId) (ahead : List Host) :
    Steady cursor ahead [] [] (startAfter account limit cursor) where
  gathered := List.nil_prefix
  fetched := rfl
  reached := rfl
  unfinished _ := ⟨rfl, (Nat.zero_mul limit).symm⟩
  finished exhausted := by cases exhausted

/-- The next page of the hosts ahead arrives. -/
theorem receive (steady : Steady cursor ahead given sizes scan) (more : scan.exhausted = false)
    {page : List Host}
    (taken : page = (ahead.drop (given ++ scan.buffer).length).take scan.chunkSize) :
    Steady cursor ahead given (sizes ++ [page.length]) (scan.receive page) := by
  have gathered : given ++ (scan.receive page).buffer =
      ahead.take ((given ++ scan.buffer).length + scan.chunkSize) := by
    rw [List.take_add, ← List.prefix_iff_eq_take.1 steady.gathered, ← taken, gathered_receive]
  obtain ⟨even, whole⟩ := steady.unfinished more
  have sized : page.length = min scan.chunkSize (ahead.length - (given ++ scan.buffer).length) := by
    rw [taken, List.length_take, List.length_drop]
  have within := steady.gathered.length_le
  obtain ⟨goesOn, ends⟩ := @exhausted_receive scan more page (by omega)
  refine ⟨?_, ?_, steady.reached, ?_, ?_⟩
  · exact gathered ▸ List.take_prefix _ _
  · have moved : (scan.receive page).fetched = cursorAfter scan.fetched page := rfl
    rw [moved, steady.fetched, ← cursorAfter_append, gathered_receive]
  · intro another
    have full := goesOn another
    refine ⟨?_, ?_⟩
    · rw [even, full]
      exact List.replicate_succ'.symm
    · rw [gathered_receive, List.length_append, whole, full]
      exact (Nat.succ_mul scan.pages scan.chunkSize).symm
  · intro last
    have short := ends last
    have total : page.length + scan.chunkSize * scan.pages = ahead.length := by
      rw [Nat.mul_comm]
      omega
    obtain ⟨quotient, remainder⟩ :=
      (Nat.div_mod_unique (Nat.zero_lt_of_lt short)).2 ⟨total, short⟩
    refine ⟨?_, ?_, ?_⟩
    · rw [gathered]
      exact List.take_of_length_le (by omega)
    · dsimp only [Scan.receive]
      rw [quotient]
    · dsimp only [Scan.receive]
      rw [quotient, remainder, even]

/-- Above the last host gathered lie the hosts ahead that are not gathered yet. -/
theorem above_fetched (steady : Steady cursor (hosts.filter (Inventory.above cursor)) given sizes scan)
    (ascending : Ascending hosts) : hosts.filter (Inventory.above scan.fetched) =
      (hosts.filter (Inventory.above cursor)).drop (given ++ scan.buffer).length := by
  have front := List.prefix_iff_eq_take.1 steady.gathered
  have behind := Inventory.filter_above_taken ascending cursor (given ++ scan.buffer).length
  rwa [← front, ← steady.fetched] at behind

/-- The first host that waits is handed out. -/
theorem pop (steady : Steady cursor ahead given sizes scan) :
    Steady cursor ahead (given ++ scan.pop.1.toList) sizes scan.pop.2 := by
  refine ⟨?_, ?_, ?_, ?_, ?_⟩
  · rw [gathered_pop]
    exact steady.gathered
  · rw [gathered_pop, fetched_pop]
    exact steady.fetched
  · rw [cursor_pop, steady.reached, cursorAfter_append]
  · rw [gathered_pop, exhausted_pop, pages_pop, chunkSize_pop]
    exact steady.unfinished
  · rw [gathered_pop, exhausted_pop, pages_pop, chunkSize_pop]
    exact steady.finished

/-- What is handed out is the next of the hosts ahead. -/
theorem popped (steady : Steady cursor ahead given sizes scan) (ready : scan.buffer = [] → given = ahead) :
    scan.pop.1 = ahead[given.length]? := by
  cases waiting : scan.buffer with
  | nil => simp [Scan.pop, waiting, ← ready waiting]
  | cons host rest =>
      obtain ⟨behind, whole⟩ := steady.gathered
      rw [waiting] at whole
      simp [Scan.pop, waiting, ← whole]

end Steady

/-- Where a scan of a store that holds still stands after some times. -/
structure Paced (store : HostStore State) (account : String) (limit : Nat)
    (holds : State → List Host → Prop) (cursor : Option HostId) (hosts : List Host)
    (past : List (Turn State)) (scan : Scan) (state : State) : Prop where
  ofAccount : scan.account = account
  sized : scan.chunkSize = limit
  held : holds state hosts
  steady : Steady cursor (hosts.filter (Inventory.above cursor)) (handed past) (pageSizes store past) scan
  paced : handed past = (hosts.filter (Inventory.above cursor)).take past.length

/-- What a time leaves of a scan that is well paced. -/
structure Advanced (store : HostStore State) (account : String) (limit : Nat)
    (holds : State → List Host → Prop) (cursor : Option HostId) (hosts : List Host)
    (past : List (Turn State)) (turn : Turn State) : Prop where
  before : Paced store account limit holds cursor hosts past turn.before turn.found
  answered : turn.answer = .ok (hosts.filter (Inventory.above cursor))[past.length]?
  after : Paced store account limit holds cursor hosts (past ++ [turn]) turn.after turn.left
  ended : turn.answer = .ok none → turn.after.exhausted = true

namespace Paced

variable {limit : Nat} {past : List (Turn State)} {left : State}

/-- A host is handed out, or nothing is left, by a scan that need not query or has just queried. -/
theorem advance (paced : Paced store account limit holds cursor hosts past scan state) {ready : Scan}
    (ofAccount : ready.account = account) (sized : ready.chunkSize = limit) (held : holds left hosts)
    (steady : Steady cursor (hosts.filter (Inventory.above cursor)) (handed past)
      (pageSizes store (past ++ [⟨state, scan, .ok ready.pop.1, ready.pop.2, left⟩])) ready)
    (closed : ready.buffer = [] → ready.exhausted = true) :
    Advanced store account limit holds cursor hosts past
      ⟨state, scan, .ok ready.pop.1, ready.pop.2, left⟩ := by
  have full : ready.buffer = [] → handed past = hosts.filter (Inventory.above cursor) := by
    intro empty
    have all := (steady.finished (closed empty)).1
    rwa [empty, List.append_nil] at all
  have position : (hosts.filter (Inventory.above cursor))[(handed past).length]? =
      (hosts.filter (Inventory.above cursor))[past.length]? := by
    rw [paced.paced, List.length_take]
    rcases Nat.le_total past.length (hosts.filter (Inventory.above cursor)).length with within | behind
    · rw [Nat.min_eq_left within]
    · rw [Nat.min_eq_right behind, List.getElem?_eq_none (Nat.le_refl _), List.getElem?_eq_none behind]
  have given := (steady.popped full).trans position
  have handedOut : handed (past ++ [⟨state, scan, .ok ready.pop.1, ready.pop.2, left⟩]) =
      handed past ++ ready.pop.1.toList := by
    rw [handed_append]
    rfl
  refine ⟨paced, congrArg Except.ok given, ⟨?_, ?_, held, ?_, ?_⟩, ?_⟩
  · exact (account_pop ready).trans ofAccount
  · exact (chunkSize_pop ready).trans sized
  · rw [handedOut]
    exact steady.pop
  · rw [handedOut, given, paced.paced, List.length_append, List.length_singleton, List.take_add_one]
  · intro nothing
    have nothing : ready.pop.1 = none := Except.ok.inj nothing
    cases waiting : ready.buffer with
    | nil => simpa [Scan.pop, waiting] using closed waiting
    | cons host rest => simp [Scan.pop, waiting] at nothing

/-- A scan that is well paced stays so when it is asked. -/
theorem step (paced : Paced store account limit holds cursor hosts past scan state)
    (listed : Listed store account fits holds) (positive : 0 < limit) (fitting : fits limit) :
    Advanced store account limit holds cursor hosts past (turnOf store scan state) := by
  have ofAccount := paced.ofAccount
  have sized := paced.sized
  have steady := paced.steady
  by_cases ready : scan.buffer = [] → scan.exhausted = true
  · rw [turnOf, next_of_ready ready]
    refine paced.advance ofAccount sized paced.held ?_ ready
    rw [pageSizes_append]
    simpa [Turn.page?, Turn.queried] using steady
  · obtain ⟨empty, more⟩ := Classical.not_imp.1 ready
    have more := Bool.eq_false_iff.2 more
    rw [← sized] at fitting
    rw [← ofAccount] at listed
    obtain ⟨left, answered, still⟩ := listed.pages scan.fetched paced.held fitting
    rw [steady.above_fetched (listed.ascending paced.held)] at answered
    generalize taken : List.take scan.chunkSize (List.drop _ _) = page at answered
    have received := steady.receive more taken.symm
    rw [turnOf, next_of_page empty more answered]
    refine paced.advance ofAccount sized still ?_ ?_
    · have arrived : Turn.page? store ⟨state, scan, .ok (scan.receive page).pop.1,
          (scan.receive page).pop.2, left⟩ = some page := by
        simp [Turn.page?, Turn.queried, Scan.receive, answered, Except.toOption]
      rw [pageSizes_append, arrived]
      exact received
    · intro none
      have noPage : page = [] := (List.append_eq_nil_iff.1 none).2
      simp [Scan.receive, noPage, sized, positive]

/-- However often a scan is asked, it is well paced each time. -/
theorem run (paced : Paced store account limit holds cursor hosts past scan state)
    (listed : Listed store account fits holds) (positive : 0 < limit) (fitting : fits limit) {count : Nat}
    {front later : List (Turn State)} {turn : Turn State}
    (split : turns store (List.replicate count .ask) scan state = front ++ turn :: later) :
    Advanced store account limit holds cursor hosts (past ++ front) turn := by
  induction count generalizing past scan state front with
  | zero => cases front <;> cases split
  | succ count inductionHypothesis =>
      have here := paced.step listed positive fitting
      cases front with
      | nil =>
          obtain ⟨rfl, -⟩ := List.cons.inj split
          rwa [List.append_nil]
      | cons first front =>
          obtain ⟨same, further⟩ := List.cons.inj split
          have later := inductionHypothesis here.after further
          rwa [List.append_assoc, List.singleton_append, same] at later

end Paced

/-! ### A store that loses hosts -/

/-- Where a scan stands whose account loses hosts: those gathered and those ahead are no more than there
were at first, and each page but the last was a full one. -/
structure Waning (total : Nat) (given hosts : List Host) (scan : Scan) : Prop where
  within : (given ++ scan.buffer).length + (hosts.filter (Inventory.above scan.fetched)).length ≤ total
  unfinished : scan.exhausted = false → (given ++ scan.buffer).length = scan.pages * scan.chunkSize
  bounded : scan.pages ≤ total / scan.chunkSize + 1

namespace Waning

variable {total : Nat}

theorem start (account : String) (limit : Nat) (cursor : Option HostId) (hosts : List Host) :
    Waning (hosts.filter (Inventory.above cursor)).length [] hosts (startAfter account limit cursor) where
  within := by simp [startAfter]
  unfinished _ := (Nat.zero_mul limit).symm
  bounded := Nat.zero_le _

/-- Hosts are removed. -/
theorem thin (waning : Waning total given hosts scan) {fewer : List Host} (sublist : fewer.Sublist hosts) :
    Waning total given fewer scan := by
  have shorter := (sublist.filter (Inventory.above scan.fetched)).length_le
  have within := waning.within
  exact { waning with within := by omega }

/-- The next page of the hosts that are left arrives. -/
theorem receive (waning : Waning total given hosts scan) (ascending : Ascending hosts)
    (positive : 0 < scan.chunkSize) (more : scan.exhausted = false) {page : List Host}
    (taken : page = (hosts.filter (Inventory.above scan.fetched)).take scan.chunkSize) :
    Waning total given hosts (scan.receive page) := by
  have ahead : hosts.filter (Inventory.above (scan.receive page).fetched) =
      (hosts.filter (Inventory.above scan.fetched)).drop scan.chunkSize := by
    rw [taken]
    exact Inventory.filter_above_taken ascending scan.fetched scan.chunkSize
  have sized : page.length = min scan.chunkSize (hosts.filter (Inventory.above scan.fetched)).length := by
    rw [taken, List.length_take]
  have within := waning.within
  have whole := waning.unfinished more
  refine ⟨?_, ?_, ?_⟩
  · rw [gathered_receive, List.length_append, ahead, List.length_drop]
    omega
  · intro another
    have full := (exhausted_receive more (by omega)).1 another
    rw [gathered_receive, List.length_append, whole, full]
    exact (Nat.succ_mul scan.pages scan.chunkSize).symm
  · have fewer : scan.pages ≤ total / scan.chunkSize := by
      rw [Nat.le_div_iff_mul_le positive]
      omega
    exact Nat.succ_le_succ fewer

/-- The first host that waits is handed out. -/
theorem pop (waning : Waning total given hosts scan) :
    Waning total (given ++ scan.pop.1.toList) hosts scan.pop.2 := by
  refine ⟨?_, ?_, ?_⟩
  · rw [gathered_pop, fetched_pop]
    exact waning.within
  · rw [gathered_pop, exhausted_pop, pages_pop, chunkSize_pop]
    exact waning.unfinished
  · rw [pages_pop, chunkSize_pop]
    exact waning.bounded

end Waning

/-- Where a scan of a store that loses hosts stands after some times. -/
structure Dwindling (account : String) (limit : Nat) (holds : State → List Host → Prop) (total : Nat)
    (past : List (Turn State)) (scan : Scan) (state : State) : Prop where
  ofAccount : scan.account = account
  sized : scan.chunkSize = limit
  held : ∃ hosts, holds state hosts ∧ Waning total (handed past) hosts scan
  counted : (past.filter Turn.queried).length = scan.pages

namespace Dwindling

variable {limit total : Nat} {past : List (Turn State)}

/-- What a time leaves of a scan that dwindles. -/
theorem step (dwindling : Dwindling account limit holds total past scan state)
    (listed : Listed store account fits holds) (positive : 0 < limit) (fitting : fits limit) :
    (∃ host, (turnOf store scan state).answer = .ok host) ∧
      Dwindling account limit holds total (past ++ [turnOf store scan state])
        (turnOf store scan state).after (turnOf store scan state).left := by
  obtain ⟨ofAccount, sized, ⟨hosts, held, waning⟩, counted⟩ := dwindling
  by_cases ready : scan.buffer = [] → scan.exhausted = true
  · rw [turnOf, next_of_ready ready]
    refine ⟨⟨_, rfl⟩, (account_pop scan).trans ofAccount, (chunkSize_pop scan).trans sized,
      ⟨hosts, held, ?_⟩, ?_⟩
    · rw [handed_append]
      exact waning.pop
    · rw [List.filter_append, List.length_append, counted]
      simp [Turn.queried]
  · obtain ⟨empty, more⟩ := Classical.not_imp.1 ready
    have more := Bool.eq_false_iff.2 more
    rw [← sized] at fitting positive
    rw [← ofAccount] at listed
    obtain ⟨left, answered, still⟩ := listed.pages scan.fetched held fitting
    rw [turnOf, next_of_page empty more answered]
    have received := waning.receive (listed.ascending held) positive more rfl
    refine ⟨⟨_, rfl⟩, (account_pop _).trans ofAccount, (chunkSize_pop _).trans sized,
      ⟨hosts, still, ?_⟩, ?_⟩
    · rw [handed_append]
      exact received.pop
    · rw [List.filter_append, List.length_append, counted]
      simp [Turn.queried, Scan.receive]

/-- However a store loses hosts, a scan of it dwindles. -/
theorem run (dwindling : Dwindling account limit holds total past scan state)
    (listed : Listed store account fits holds) (positive : 0 < limit) (fitting : fits limit)
    {occasions : List (Occasion State)} (thins : ∀ act, .change act ∈ occasions → Thins holds act) :
    (∀ turn ∈ turns store occasions scan state, ∃ host, turn.answer = .ok host) ∧
      ∃ last left, Dwindling account limit holds total (past ++ turns store occasions scan state) last
        left := by
  induction occasions generalizing past scan state with
  | nil => exact ⟨by simp [turns], scan, state, by simpa [turns] using dwindling⟩
  | cons occasion rest inductionHypothesis =>
      have later : ∀ act, .change act ∈ rest → Thins holds act :=
        fun act among => thins act (List.mem_cons_of_mem _ among)
      cases occasion with
      | change act =>
          obtain ⟨ofAccount, sized, ⟨hosts, held, waning⟩, counted⟩ := dwindling
          obtain ⟨fewer, still, sublist⟩ := thins act List.mem_cons_self state hosts held
          have thinned : Dwindling account limit holds total past scan (act state) :=
            ⟨ofAccount, sized, ⟨fewer, still, waning.thin sublist⟩, counted⟩
          exact inductionHypothesis thinned later
      | ask =>
          obtain ⟨answered, stepped⟩ := dwindling.step listed positive fitting
          obtain ⟨others, last, left, ended⟩ := inductionHypothesis stepped later
          refine ⟨List.forall_mem_cons.2 ⟨answered, others⟩, last, left, ?_⟩
          rwa [List.append_assoc, List.singleton_append] at ended

end Dwindling

/-! ### Both -/

/-- How an account of a store that holds still is scanned in pages of some size, each time one more host
of those ahead. -/
structure Paged (store : HostStore State) (account : String) (fits : Nat → Prop) (cursor : Option HostId)
    (ahead : List Host) (limit : Nat) (all : List (Turn State)) : Prop where
  answered : ∀ front turn later, all = front ++ turn :: later → turn.answer = .ok ahead[front.length]?
  /-- Behind so many hosts the scan says which one was the last. -/
  reached : ∀ front turn later, all = front ++ turn :: later → front.length ≤ ahead.length →
    turn.before.cursor =
      if front.length = 0 then cursor else (ahead[front.length - 1]?).map Host.id
  /-- From there a scan with any page size hands out the other hosts. -/
  resumed : ∀ front turn later, all = front ++ turn :: later → front.length ≤ ahead.length →
    ∀ other, 0 < other → fits other → ∀ count,
      (turns store (List.replicate count .ask) (startAfter account other turn.before.cursor)
        turn.found).map Turn.answer =
        (List.range count).map fun position => .ok (ahead.drop front.length)[position]?
  sized : ahead.length < all.length → pageSizes store all =
    List.replicate (ahead.length / limit) limit ++ [ahead.length % limit]
  counted : ahead.length < all.length → ∀ last ∈ all.getLast?, last.after.pages = ahead.length / limit + 1

/-- How an account is scanned that loses hosts of those that were ahead at first. -/
structure Bounded (total limit : Nat) (all : List (Turn State)) : Prop where
  queried : (all.filter Turn.queried).length ≤ total / limit + 1
  handed : (handed all).length ≤ total
  /-- After as many times it has ended. -/
  ended : total < all.length → ∃ turn ∈ all, turn.answer = .ok none

theorem length_turns (store : HostStore State) (count : Nat) (scan : Scan) (state : State) :
    (turns store (List.replicate count .ask) scan state).length = count := by
  induction count generalizing scan state with
  | zero => rfl
  | succ count inductionHypothesis => exact congrArg (· + 1) (inductionHypothesis _ _)

theorem cursorAfter_take {count : Nat} (within : count ≤ ahead.length) :
    cursorAfter cursor (ahead.take count) =
      if count = 0 then cursor else (ahead[count - 1]?).map Host.id := by
  cases count with
  | zero => rfl
  | succ count =>
      have last : (ahead.take (count + 1)).getLast? = some ahead[count] := by
        simp [List.getLast?_take, List.getElem?_eq_getElem within]
      simp [cursorAfter, last, List.getElem?_eq_getElem within]

section Both

variable {limit : Nat}

/-- A scan from a cursor starts well paced. -/
theorem Paced.start (cursor : Option HostId) (held : holds state hosts) :
    Paced store account limit holds cursor hosts [] (startAfter account limit cursor) state where
  ofAccount := rfl
  sized := rfl
  held := held
  steady := .start account limit cursor _
  paced := rfl

/-- A scan of a store that holds still is well paced each time it is asked. -/
theorem advanced_of_split (listed : Listed store account fits holds) (held : holds state hosts)
    (cursor : Option HostId) (positive : 0 < limit) (fitting : fits limit) (count : Nat)
    {front later : List (Turn State)} {turn : Turn State}
    (split : turns store (List.replicate count .ask) (startAfter account limit cursor) state =
      front ++ turn :: later) : Advanced store account limit holds cursor hosts front turn :=
  (Paced.start cursor held).run listed positive fitting split

/-- A scan of a store that holds still hands out the hosts ahead in order, and then nothing. -/
theorem answers_eq (listed : Listed store account fits holds) (held : holds state hosts)
    (cursor : Option HostId) (positive : 0 < limit) (fitting : fits limit) (count : Nat) :
    (turns store (List.replicate count .ask) (startAfter account limit cursor) state).map Turn.answer =
      (List.range count).map fun position =>
        .ok (hosts.filter (Inventory.above cursor))[position]? := by
  have run := @advanced_of_split _ store account fits holds hosts state limit listed held cursor positive
    fitting count
  have length := length_turns store count (startAfter account limit cursor) state
  generalize turns store (List.replicate count .ask) (startAfter account limit cursor) state = all at run length
  apply List.ext_getElem
  · simp [length]
  · intro position inside _
    have inside : position < all.length := by simpa using inside
    have split : all = all.take position ++ all[position] :: all.drop (position + 1) := by
      rw [← List.drop_eq_getElem_cons inside, List.take_append_drop]
    have advanced := run split
    simp [advanced.answered, Nat.min_eq_left (Nat.le_of_lt inside)]

/-- The cursor of a scan that is well paced is the last host handed out, or where the scan started. -/
theorem Paced.cursor_eq {past : List (Turn State)}
    (paced : Paced store account limit holds cursor hosts past scan state) :
    scan.cursor = cursorAfter cursor ((hosts.filter (Inventory.above cursor)).take past.length) := by
  rw [paced.steady.reached, paced.paced]

/-- A scan that was asked more often than there are hosts ahead has come to its end. -/
theorem exists_finished {all : List (Turn State)}
    (run : ∀ {front turn later}, all = front ++ turn :: later →
      Advanced store account limit holds cursor hosts front turn)
    (many : (hosts.filter (Inventory.above cursor)).length < all.length) :
    ∃ front last, all = front ++ [last] ∧ last.after.chunkSize = limit ∧ last.after.exhausted = true ∧
      Steady cursor (hosts.filter (Inventory.above cursor)) (handed all) (pageSizes store all)
        last.after := by
  rcases List.eq_nil_or_concat all with rfl | ⟨front, last, rfl⟩
  · exact absurd many (Nat.not_lt_zero _)
  · rw [List.concat_eq_append] at run many ⊢
    have advanced := run rfl
    have behind : (hosts.filter (Inventory.above cursor)).length ≤ front.length := by
      simpa [Nat.lt_succ_iff] using many
    have nothing : last.answer = .ok none := by
      rw [advanced.answered, List.getElem?_eq_none behind]
    exact ⟨front, last, rfl, advanced.after.sized, advanced.ended nothing, advanced.after.steady⟩

theorem paged (listed : Listed store account fits holds) (held : holds state hosts)
    (cursor : Option HostId) (positive : 0 < limit) (fitting : fits limit) (count : Nat) :
    Paged store account fits cursor (hosts.filter (Inventory.above cursor)) limit
      (turns store (List.replicate count .ask) (startAfter account limit cursor) state) := by
  have run := @advanced_of_split _ store account fits holds hosts state limit listed held cursor positive
    fitting count
  generalize turns store (List.replicate count .ask) (startAfter account limit cursor) state = all at run
  refine ⟨fun front turn later split => (run split).answered, ?_, ?_, ?_, ?_⟩
  · intro front turn later split within
    rw [(run split).before.cursor_eq, cursorAfter_take within]
  · intro front turn later split _ other otherPositive otherFits times
    have before := (run split).before
    rw [answers_eq listed before.held turn.before.cursor otherPositive otherFits, before.cursor_eq,
      Inventory.filter_above_taken (listed.ascending held)]
  · intro many
    obtain ⟨front, last, -, sized, exhausted, steady⟩ := exists_finished run many
    have sizes := (steady.finished exhausted).2.2
    rwa [sized] at sizes
  · intro many last isLast
    obtain ⟨front, final, rfl, sized, exhausted, steady⟩ := exists_finished run many
    have pages := (steady.finished exhausted).2.1
    rw [List.getLast?_concat, Option.mem_some_iff] at isLast
    rwa [sized, isLast] at pages

theorem bounded (listed : Listed store account fits holds) (held : holds state hosts)
    (cursor : Option HostId) (positive : 0 < limit) (fitting : fits limit)
    {occasions : List (Occasion State)} (thins : ∀ act, .change act ∈ occasions → Thins holds act) :
    Bounded (hosts.filter (Inventory.above cursor)).length limit
      (turns store occasions (startAfter account limit cursor) state) := by
  have begun : Dwindling account limit holds (hosts.filter (Inventory.above cursor)).length []
      (startAfter account limit cursor) state :=
    ⟨rfl, rfl, ⟨hosts, held, .start account limit cursor hosts⟩, rfl⟩
  obtain ⟨answered, last, left, ended⟩ := begun.run listed positive fitting thins
  generalize turns store occasions (startAfter account limit cursor) state = all at answered ended
  obtain ⟨-, sized, ⟨fewer, -, waning⟩, counted⟩ := ended
  rw [List.nil_append] at waning counted
  have few : (handed all).length ≤ (hosts.filter (Inventory.above cursor)).length := by
    have within := waning.within
    rw [List.length_append] at within
    omega
  refine ⟨?_, few, ?_⟩
  · rw [counted, ← sized]
    exact waning.bounded
  · intro many
    by_contra goesOn
    have each : ∀ turn ∈ all, turn.host?.isSome = true := by
      intro turn among
      obtain ⟨host, same⟩ := answered turn among
      cases host with
      | none => exact absurd ⟨turn, among, same⟩ goesOn
      | some host => simp [Turn.host?, same, Except.toOption]
    have whole : (handed all).length = all.length := by
      rw [handed, List.length_filterMap_eq_countP, List.countP_eq_length.2 each]
    omega

/-- A scan of a store that holds still queries one page more than the hosts ahead fill, hands them out in
order, and can be taken up from its cursor; if hosts are removed meanwhile it queries no more pages. -/
theorem turns_paged (listed : Listed store account fits holds) (held : holds state hosts)
    (cursor : Option HostId) (positive : 0 < limit) (fitting : fits limit) :
    (∀ count, Paged store account fits cursor (hosts.filter (Inventory.above cursor)) limit
      (turns store (List.replicate count .ask) (startAfter account limit cursor) state)) ∧
    ∀ occasions, (∀ act, .change act ∈ occasions → Thins holds act) →
      Bounded (hosts.filter (Inventory.above cursor)).length limit
        (turns store occasions (startAfter account limit cursor) state) :=
  ⟨paged listed held cursor positive fitting,
    fun _ thins => bounded listed held cursor positive fitting thins⟩

/-- Seven hosts come in pages of three, three and one; when the fourth is removed behind the first host,
there are no more pages. -/
theorem seven_hosts_paged :
    let host (number : Fin 8) : Host :=
      Inventory.exampleHost ⟨number, Nat.lt_trans number.isLt (by decide)⟩ "acct-1" (.object []) 0
    let inventory := Inventory.ofHosts [host 1, host 2, host 3, host 4, host 5, host 6, host 7]
    let ahead := (inventory.hostsOf "acct-1").filter (Inventory.above none)
    let still := turns Inventory.store (List.replicate 8 .ask) (startAfter "acct-1" 3 none) inventory
    let remove : Occasion Inventory := .change fun inventory => (Inventory.store.delete (host 4).id inventory).2
    let thinned := turns Inventory.store (.ask :: remove :: List.replicate 7 .ask) (startAfter "acct-1" 3 none)
      inventory
    0 < 3 ∧ ahead.length = 7 ∧ pageSizes Inventory.store still = [3, 3, 1] ∧
      Paged Inventory.store "acct-1" (fun _ => True) none ahead 3 still ∧
      pageSizes Inventory.store thinned = [3, 3, 0] ∧ Bounded ahead.length 3 thinned := by
  intro host inventory ahead still remove thinned
  have both := turns_paged (Inventory.listed "acct-1") (rfl : inventory.hostsOf "acct-1" = _) none
    (by decide : 0 < 3) trivial
  refine ⟨by decide, by decide +kernel, by decide +kernel, both.1 8, by decide +kernel,
    both.2 _ fun act among => ?_⟩
  obtain rfl : act = fun inventory => (Inventory.store.delete (host 4).id inventory).2 := by
    simpa [remove] using among
  exact Inventory.delete_thins "acct-1" (host 4).id

end Both

end Scan

end HostPruning
