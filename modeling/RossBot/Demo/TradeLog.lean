import Mathlib.Algebra.Order.Floor.Div
import Mathlib.Data.List.Sort
import Mathlib.GroupTheory.GroupAction.Ring
import RossBot.Demo.Ledger
import RossBot.Lib.Runs
import RossBot.Lib.Window
import RossBot.Text

/-!
# The trade log

`performance_trades` of `core/demo/engine.py` and its endpoint in
`api/routers/performance.py`. The rows a query matches are put in order of exit,
numbered and totalled, turned round, and handed out a page at a time. Whatever the
page size, the pages together are that list once (`logPages_logs`).

The ISO strings of instants in UTC sort as the instants do, so an `exit_ts` is the
instant and only its date is a text. `upper` is `str.upper`.
-/

namespace RossBot

open Lib

/-- `closed_trades`: every row is one `_record_journal` has written. -/
structure Journal where
  rows : List JournalRow
  written : ∀ r ∈ rows, ∃ c : JournalCall, c.row = r

/-- The journal that calls of `_record_journal` write. -/
def Journal.of (calls : List JournalCall) : Journal where
  rows := calls.map JournalCall.row
  written := fun _ hr => (List.mem_map.mp hr).imp fun _ h => h.2

/-- A desk's closed trades are a journal, whatever has happened. -/
theorem Desk.written_of_reachable {env : DemoEnv} {s : Desk}
    (h : Reachable (Desk.step env) (Desk.init env) s) :
    ∀ r ∈ s.closedTrades, ∃ c : JournalCall, c.row = r := by
  refine h.invariant (I := fun s => ∀ r ∈ s.closedTrades, ∃ c : JournalCall, c.row = r) ?_ ?_
  · intro r hr
    exact absurd hr List.not_mem_nil
  · intro s l s' _ ih hs r hr
    rw [(step_posts hs).closedTrades, closedTrades_post] at hr
    rcases List.mem_append.mp hr with hr | hr
    · exact ih r hr
    · exact (List.mem_map.mp hr).imp fun _ h => h.2

/-- The journal of a desk. -/
def Desk.journal {env : DemoEnv} (s : Desk) (h : Reachable (Desk.step env) (Desk.init env) s) :
    Journal := ⟨s.closedTrades, written_of_reachable h⟩

/-- `exit_ts[:10]`. -/
def JournalRow.exitDate (t : JournalRow) : String := isoDate ⌊t.exitTs / 86400⌋

/-- A trade was not closed after another. -/
def JournalRow.NotAfter (t u : JournalRow) : Prop := t.exitTs ≤ u.exitTs

instance : DecidableRel JournalRow.NotAfter := fun t u =>
  inferInstanceAs (Decidable (t.exitTs ≤ u.exitTs))

instance : Std.Total JournalRow.NotAfter := ⟨fun t u => le_total t.exitTs u.exitTs⟩

instance : IsTrans JournalRow JournalRow.NotAfter := ⟨fun _ _ _ h h' => le_trans h h'⟩

/-- `sorted(trades, key=exit_ts)`: trades closed in one instant stay as they were. -/
def byExit (trades : List JournalRow) : List JournalRow :=
  trades.insertionSort JournalRow.NotAfter

/-- The filters of a query. An empty text filters nothing, as `None` does. -/
structure TradeQuery where
  symbol : Option String
  dateFrom : Option String
  dateTo : Option String

/-- One filter. -/
def filterBy (given : Option String) (keeps : String → JournalRow → Bool)
    (trades : List JournalRow) : List JournalRow :=
  match given.filter fun text => text ≠ "" with
  | some text => trades.filter (keeps text)
  | none => trades

/-- The trades a query is about. -/
def TradeQuery.select (upper : String → String) (q : TradeQuery) (trades : List JournalRow) :
    List JournalRow :=
  let trades := filterBy q.symbol (fun symbol t => upper t.symbol = upper symbol) trades
  let trades := filterBy q.dateFrom (fun dateFrom t => dateFrom ≤ t.exitDate) trades
  filterBy q.dateTo (fun dateTo t => t.exitDate ≤ dateTo) trades

/-- A row of the log, with `trade_id` and `day_pnl_running_total`. -/
structure LoggedTrade extends JournalRow where
  tradeId : ℕ
  dayPnlRunningTotal : ℚ

/-- The loop that numbers the trades from `idx` on and totals them from `running` on. -/
def enrich (idx : ℕ) (running : ℚ) : List JournalRow → List LoggedTrade
  | [] => []
  | t :: trades =>
      let running := running + t.pnl
      { t with tradeId := idx, dayPnlRunningTotal := quantize2 running } ::
        enrich (idx + 1) running trades

/-- A page number and a page size. -/
structure PageRequest where
  page : ℕ
  pageSize : ℕ
  page_pos : 1 ≤ page
  pageSize_pos : 1 ≤ pageSize

/-- A page of the log. -/
structure TradePage where
  trades : List LoggedTrade
  total : ℕ
  page : ℕ
  pageSize : ℕ
  pages : ℕ

/-- `performance_trades`. -/
def performanceTrades (upper : String → String) (closedTrades : List JournalRow) (q : TradeQuery)
    (r : PageRequest) : TradePage :=
  let tradesAsc := byExit (q.select upper closedTrades)
  let enriched := enrich 1 0 tradesAsc
  let total := enriched.length
  let enrichedDesc := enriched.reverse
  let start := (r.page - 1) * r.pageSize
  { trades := (enrichedDesc.drop start).take r.pageSize
    total := total
    page := r.page
    pageSize := r.pageSize
    pages := max 1 ((total + r.pageSize - 1) / r.pageSize) }

/-- What `get_performance_trades` makes of its parameters. -/
def PageRequest.clamped (page pageSize : ℤ) : PageRequest where
  page := (max 1 page).toNat
  pageSize := (min (max 1 pageSize) 200).toNat
  page_pos := by omega
  pageSize_pos := by omega

/-- `get_performance_trades`; there may be no engine. -/
def getPerformanceTrades (upper : String → String) (engine : Option (List JournalRow))
    (page pageSize : ℤ) (q : TradeQuery) : TradePage :=
  let r := PageRequest.clamped page pageSize
  match engine with
  | none => ⟨[], 0, r.page, r.pageSize, 1⟩
  | some closedTrades => performanceTrades upper closedTrades q r

/-- Up to 200 rows a page, the endpoint hands out the page it is asked for. -/
theorem getPerformanceTrades_of_le (upper : String → String) (closedTrades : List JournalRow)
    (r : PageRequest) (q : TradeQuery) (hsize : r.pageSize ≤ 200) :
    getPerformanceTrades upper (some closedTrades) r.page r.pageSize q =
      performanceTrades upper closedTrades q r := by
  have hpage := r.page_pos
  have hpos := r.pageSize_pos
  have hclamped : PageRequest.clamped r.page r.pageSize = r := by
    unfold PageRequest.clamped
    congr 1 <;> omega
  rw [getPerformanceTrades, hclamped]

/-! ## The trades of a query -/

/-- A trade is one a filter is for. -/
def passes (given : Option String) (keeps : String → JournalRow → Bool) (t : JournalRow) : Bool :=
  given.all fun text => decide (text = "") || keeps text t

/-- A trade is one the query is about. -/
def TradeQuery.admits (upper : String → String) (q : TradeQuery) (t : JournalRow) : Bool :=
  passes q.symbol (fun symbol t => upper t.symbol = upper symbol) t &&
    (passes q.dateFrom (fun dateFrom t => dateFrom ≤ t.exitDate) t &&
      passes q.dateTo (fun dateTo t => t.exitDate ≤ dateTo) t)

theorem filterBy_eq_filter (given : Option String) (keeps : String → JournalRow → Bool)
    (trades : List JournalRow) :
    filterBy given keeps trades = trades.filter (passes given keeps) := by
  unfold filterBy passes
  cases given with
  | none => simp
  | some text =>
      by_cases htext : text = ""
      · subst htext
        simp [Option.filter]
      · simp [htext, Option.filter]

theorem TradeQuery.select_eq_filter (upper : String → String) (q : TradeQuery)
    (trades : List JournalRow) : q.select upper trades = trades.filter (q.admits upper) := by
  unfold select
  simp only [filterBy_eq_filter, List.filter_filter]
  refine List.filter_congr ?_
  intro t _
  rw [admits]
  ac_rfl

theorem byExit_perm (trades : List JournalRow) : (byExit trades).Perm trades :=
  List.perm_insertionSort _ trades

theorem byExit_pairwise (trades : List JournalRow) :
    (byExit trades).Pairwise fun t u => t.exitTs ≤ u.exitTs :=
  List.pairwise_insertionSort JournalRow.NotAfter trades

/-! ## What is printed to the cent stays exact -/

theorem Journal.onCents (journal : Journal) : ∀ t ∈ journal.rows, OnCents t.pnl := by
  intro t ht
  obtain ⟨c, rfl⟩ := journal.written t ht
  exact onCents_quantize2 c.realized

/-! ## Numbers and totals -/

section Enrich

variable {idx : ℕ} {running : ℚ} {trades : List JournalRow}

theorem rows_enrich (idx : ℕ) (running : ℚ) (trades : List JournalRow) :
    (enrich idx running trades).map (·.toJournalRow) = trades := by
  induction trades generalizing idx running with
  | nil => rfl
  | cons t trades ih => rw [enrich, List.map_cons, ih]

theorem ids_enrich (idx : ℕ) (running : ℚ) (trades : List JournalRow) :
    (enrich idx running trades).map (·.tradeId) = List.range' idx trades.length := by
  induction trades generalizing idx running with
  | nil => rfl
  | cons t trades ih => rw [enrich, List.map_cons, ih, List.length_cons, List.range'_succ]

theorem length_enrich (idx : ℕ) (running : ℚ) (trades : List JournalRow) :
    (enrich idx running trades).length = trades.length := by
  rw [← List.length_map (·.toJournalRow), rows_enrich]

theorem le_id_of_mem_enrich {t : LoggedTrade} (h : t ∈ enrich idx running trades) :
    idx ≤ t.tradeId := by
  have hid := List.mem_map_of_mem (f := (·.tradeId)) h
  rw [ids_enrich] at hid
  exact (List.mem_range'_1.mp hid).1

/-- A row's total is what ran before it and the P&L of the rows up to it. -/
theorem total_of_mem_enrich (hcents : ∀ t ∈ trades, OnCents t.pnl) (hrunning : OnCents running)
    {t : LoggedTrade} (h : t ∈ enrich idx running trades) :
    t.dayPnlRunningTotal = running +
      (((enrich idx running trades).filter fun u => u.tradeId ≤ t.tradeId).map (·.pnl)).sum := by
  induction trades generalizing idx running with
  | nil => exact absurd h List.not_mem_nil
  | cons first trades ih =>
      have hnext : OnCents (running + first.pnl) := hrunning.add (hcents first List.mem_cons_self)
      rw [enrich] at h ⊢
      rcases List.mem_cons.mp h with rfl | h
      · -- the first row: all others have a larger number
        have hnone : ((enrich (idx + 1) (running + first.pnl) trades).filter
            fun u => decide (u.tradeId ≤ idx)) = [] := by
          rw [List.filter_eq_nil_iff]
          intro u hu
          have hlater := le_id_of_mem_enrich hu
          simp
          omega
        rw [List.filter_cons_of_pos (by simp), hnone]
        simpa using hnext.quantize2_eq
      · have hbefore : idx ≤ t.tradeId := (Nat.le_succ idx).trans (le_id_of_mem_enrich h)
        rw [List.filter_cons_of_pos (by simpa using hbefore), List.map_cons, List.sum_cons,
          ih (fun t ht => hcents t (List.mem_cons_of_mem _ ht)) hnext h]
        ring

end Enrich

/-! ## The pages together -/

/-- The pages of a request, one after another, as many as it says there are. -/
def allPages (upper : String → String) (closedTrades : List JournalRow) (q : TradeQuery)
    (pageSize : ℕ) (hsize : 1 ≤ pageSize) : List LoggedTrade :=
  let first := performanceTrades upper closedTrades q ⟨1, pageSize, le_refl 1, hsize⟩
  (List.range first.pages).flatMap fun k =>
    (performanceTrades upper closedTrades q ⟨k + 1, pageSize, Nat.le_add_left 1 k, hsize⟩).trades

/-- `log` is the log of the trades `matching`, newest first. -/
structure LogOf (log : List LoggedTrade) (matching : List JournalRow) : Prop where
  once : (log.map (·.toJournalRow)).Perm matching
  newest_first : log.Pairwise fun t u => u.exitTs ≤ t.exitTs
  ids : log.map (·.tradeId) = (List.range' 1 matching.length).reverse
  rank : ∀ t ∈ log, ∀ u ∈ log, t.tradeId < u.tradeId → t.exitTs ≤ u.exitTs
  totals : ∀ t ∈ log, t.dayPnlRunningTotal =
    ((log.filter fun u => u.tradeId ≤ t.tradeId).map (·.pnl)).sum

/-- The trades in order of exit, numbered from 1 and turned round. -/
theorem logOf_enrich (trades : List JournalRow) (hcents : ∀ t ∈ trades, OnCents t.pnl) :
    LogOf (enrich 1 0 (byExit trades)).reverse trades := by
  have hlen : (byExit trades).length = trades.length := (byExit_perm trades).length_eq
  have hsorted : (enrich 1 0 (byExit trades)).Pairwise fun t u => t.exitTs ≤ u.exitTs := by
    have h := byExit_pairwise trades
    rw [← rows_enrich 1 0 (byExit trades), List.pairwise_map] at h
    exact h
  have hids : (enrich 1 0 (byExit trades)).Pairwise fun t u => t.tradeId < u.tradeId := by
    have h : (List.range' 1 (byExit trades).length).Pairwise (· < ·) := List.pairwise_lt_range'
    rw [← ids_enrich 1 0 (byExit trades), List.pairwise_map] at h
    exact h
  refine ⟨?_, List.pairwise_reverse.mpr hsorted, ?_, ?_, ?_⟩
  · rw [List.map_reverse, rows_enrich]
    exact (List.reverse_perm _).trans (byExit_perm trades)
  · rw [List.map_reverse, ids_enrich, hlen]
  · -- of two rows the one with the greater number comes later, and exits no earlier
    let InOrder : LoggedTrade → LoggedTrade → Prop :=
      fun t u => t.tradeId < u.tradeId → t.exitTs ≤ u.exitTs
    have hlater : (enrich 1 0 (byExit trades)).Pairwise InOrder := by
      refine hsorted.imp ?_
      intro t u hexit _
      exact hexit
    have hearlier : (enrich 1 0 (byExit trades)).Pairwise (flip InOrder) := by
      refine hids.imp ?_
      intro t u hid h
      exact absurd h hid.asymm
    have hboth := hlater.forall_of_forall_of_flip (fun t _ _ => le_refl t.exitTs) hearlier
    intro t ht u hu
    exact hboth (List.mem_reverse.mp ht) (List.mem_reverse.mp hu)
  · intro t ht
    have hmem := List.mem_reverse.mp ht
    have hcents' : ∀ t ∈ byExit trades, OnCents t.pnl := fun t ht =>
      hcents t ((byExit_perm trades).mem_iff.mp ht)
    rw [total_of_mem_enrich hcents' ⟨0, by norm_num⟩ hmem, zero_add, List.filter_reverse,
      List.map_reverse, List.sum_reverse]

/--
**The pages together are the log.** For any journal, query and page size, every page
gives the same number of pages, one at least and as many as the matching trades
fill; and the pages one after another hold each matching trade once, newest exit
first, numbered by exit from 1, each with the total of the trades up to its number.
-/
theorem logPages_logs (upper : String → String) (journal : Journal) (q : TradeQuery)
    (pageSize : ℕ) (hsize : 1 ≤ pageSize) :
    (∀ r : PageRequest, r.pageSize = pageSize →
      (performanceTrades upper journal.rows q r).pages =
        max 1 ((journal.rows.filter (q.admits upper)).length ⌈/⌉ pageSize)) ∧
    LogOf (allPages upper journal.rows q pageSize hsize)
      (journal.rows.filter (q.admits upper)) := by
  have hlen : (enrich 1 0 (byExit (q.select upper journal.rows))).length =
      (journal.rows.filter (q.admits upper)).length := by
    rw [length_enrich, (byExit_perm _).length_eq, q.select_eq_filter]
  constructor
  · -- the number of pages is counted on the enriched list, which is as long
    rintro r rfl
    rw [Nat.ceilDiv_eq_add_pred_div, ← hlen]
    rfl
  · -- so many pages show the whole list
    have hpages : allPages upper journal.rows q pageSize hsize =
        (enrich 1 0 (byExit (q.select upper journal.rows))).reverse := by
      have henough := length_le_pages
        (enrich 1 0 (byExit (q.select upper journal.rows))).reverse hsize
      rw [List.length_reverse] at henough
      exact (flatMap_pages _ _ _).trans
        (List.take_of_length_le (by rw [List.length_reverse]; exact henough))
    rw [hpages, q.select_eq_filter]
    exact logOf_enrich _ fun t ht => journal.onCents t (List.mem_of_mem_filter ht)

/-- Three trades, two of them closed in one instant. -/
def threeTrades : Journal :=
  .of [⟨some 0, ⟨"AAA", 100, 5, 49 / 10, openingBell, false, .microPullback⟩, 26 / 5, 100,
        .p1HardStop, openingBell + 60⟩,
      ⟨some 1, ⟨"BBB", 100, 8, 79 / 10, openingBell, false, .microPullback⟩, 39 / 5, 100,
        .p1HardStop, openingBell + 30⟩,
      ⟨some 2, ⟨"AAA", 50, 6, 59 / 10, openingBell, false, .bullFlag⟩, 31 / 5, 50,
        .p1HardStop, openingBell + 60⟩]

example : (allPages id threeTrades.rows ⟨some "AAA", some "2026-01-06", none⟩ 1 (by decide)).map
    (fun t => (t.tradeId, t.dayPnlRunningTotal)) = [(2, 30), (1, 20)] := by decide +kernel

theorem logPages_logs_three :
    (∀ r : PageRequest, r.pageSize = 2 →
      (performanceTrades id threeTrades.rows ⟨none, none, none⟩ r).pages =
        max 1 ((threeTrades.rows.filter ((⟨none, none, none⟩ : TradeQuery).admits id)).length
          ⌈/⌉ 2)) ∧
    LogOf (allPages id threeTrades.rows ⟨none, none, none⟩ 2 (Nat.le_succ 1))
      (threeTrades.rows.filter ((⟨none, none, none⟩ : TradeQuery).admits id)) :=
  logPages_logs id threeTrades ⟨none, none, none⟩ 2 (Nat.le_succ 1)

end RossBot
