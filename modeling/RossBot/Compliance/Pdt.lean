import RossBot.Config
import RossBot.Lib.Dict
import RossBot.Lib.Runs
import RossBot.Market

/-!
# Round trips

`core/compliance/pdt.py`. A round trip is an open and the close that matches it,
and the guard blocks trading once the day has had enough of them. It counts a close
whenever nothing is left of the quantity it has on record, also when it had nothing
on record before: a close reported twice counts twice
(`call_recordClose`, `roundTrips_doubled`).
-/

namespace RossBot

open Lib

/-- `AccountType`. -/
inductive AccountType where
  | unknown
  | cash
  | margin
  deriving DecidableEq, Repr

/-- `AccountType.value`. -/
def AccountType.value : AccountType → String
  | .unknown => "unknown"
  | .cash => "cash"
  | .margin => "margin"

/-- `PDTGuard`. -/
structure PDTGuard where
  roundTripsToday : ℕ
  openSymbols : Dict Symbol ℤ

/-- `reset_session`. -/
def PDTGuard.resetSession (g : PDTGuard) : PDTGuard :=
  { g with roundTripsToday := 0, openSymbols := ∅ }

/-- `record_open`. -/
def PDTGuard.recordOpen (g : PDTGuard) (symbol : Symbol) (qty : ℤ) : PDTGuard :=
  { g with
    openSymbols := g.openSymbols.set symbol ((g.openSymbols.get? symbol).getD 0 + qty) }

/-- `record_close`. -/
def PDTGuard.recordClose (g : PDTGuard) (symbol : Symbol) (qty : ℤ) : PDTGuard :=
  let remaining := (g.openSymbols.get? symbol).getD 0 - qty
  if remaining ≤ 0 then
    { openSymbols := g.openSymbols.erase symbol
      roundTripsToday := g.roundTripsToday + 1 }
  else { g with openSymbols := g.openSymbols.set symbol remaining }

/-- The trades a day may have: a cash account is held to one. -/
def maxTrades (cfg : Config) (accountType : AccountType) : ℤ :=
  if accountType = .cash ∧ 1 < cfg.maxTradesPerDay then 1 else cfg.maxTradesPerDay

/-- `can_trade`. -/
def PDTGuard.canTrade (g : PDTGuard) (cfg : Config) (accountType : AccountType) :
    Bool × String :=
  let maxTrades := maxTrades cfg accountType
  if maxTrades ≤ g.roundTripsToday then
    (false, "MAX_TRADES_PER_DAY reached: " ++ toString g.roundTripsToday ++ "/" ++
      toString maxTrades ++ " round-trips today (account_type=" ++ accountType.value ++
      "). spec §13.11.")
  else (true, "")

/-- A call to the guard within a session. -/
inductive PdtCall where
  | recordOpen (symbol : Symbol) (qty : ℤ)
  | recordClose (symbol : Symbol) (qty : ℤ)
  deriving DecidableEq, Repr

namespace PdtCall

/-- The symbol it is about. -/
def symbol : PdtCall → Symbol
  | .recordOpen symbol _ => symbol
  | .recordClose symbol _ => symbol

/-- The quantity. -/
def qty : PdtCall → ℤ
  | .recordOpen _ qty => qty
  | .recordClose _ qty => qty

/-- It is an open. -/
def opens : PdtCall → Bool
  | .recordOpen _ _ => true
  | .recordClose _ _ => false

/-- What it makes of a quantity of its symbol: a close takes no more than there is. -/
def applied (q : ℤ) : PdtCall → ℤ
  | .recordOpen _ qty => q + qty
  | .recordClose _ qty => max 0 (q - qty)

end PdtCall

/-- One call. -/
def PDTGuard.call (g : PDTGuard) : PdtCall → PDTGuard
  | .recordOpen symbol qty => g.recordOpen symbol qty
  | .recordClose symbol qty => g.recordClose symbol qty

/-- The calls one after another. -/
def PDTGuard.after (g : PDTGuard) (calls : List PdtCall) : PDTGuard := calls.foldl call g

/-! ## What there is to count -/

/-- How much of a symbol is open after the calls. -/
def openQty (symbol : Symbol) (calls : List PdtCall) : ℤ :=
  calls.foldl (fun q c => if c.symbol = symbol then c.applied q else q) 0

/-- A call takes its symbol from a positive quantity to none. -/
def goesFlat (before : List PdtCall) (c : PdtCall) : Bool :=
  decide (0 < openQty c.symbol before) && decide (openQty c.symbol (before ++ [c]) = 0)

/-- A call does not close a symbol of which nothing is open. -/
def Matched (before : List PdtCall) (c : PdtCall) : Prop :=
  c.opens = true ∨ 0 < openQty c.symbol before

/-- The guard counts the round trips: each time a symbol goes flat, and no other time. -/
structure PDTGuard.CountsRoundTrips (g : PDTGuard) (calls : List PdtCall) : Prop where
  count_eq : (g.after calls).roundTripsToday = countAt goesFlat calls
  le_opens : (g.after calls).roundTripsToday ≤ calls.countP PdtCall.opens
  unmatched : EachAt (fun before c => ¬ Matched before c →
    (g.after (before ++ [c])).roundTripsToday = (g.after before).roundTripsToday) calls

section Calls

variable {g : PDTGuard} {calls : List PdtCall}

theorem openQty_snoc (symbol : Symbol) (calls : List PdtCall) (c : PdtCall) :
    openQty symbol (calls ++ [c]) =
      if c.symbol = symbol then c.applied (openQty symbol calls) else openQty symbol calls := by
  rw [openQty, List.foldl_append, List.foldl_cons, List.foldl_nil, openQty]

theorem PDTGuard.after_snoc (g : PDTGuard) (calls : List PdtCall) (c : PdtCall) :
    g.after (calls ++ [c]) = (g.after calls).call c := by
  rw [after, List.foldl_append, List.foldl_cons, List.foldl_nil, after]

theorem PDTGuard.call_recordOpen (g : PDTGuard) (symbol : Symbol) (qty : ℤ) :
    (g.call (.recordOpen symbol qty)).roundTripsToday = g.roundTripsToday := rfl

/-- A close counts when it leaves nothing, whatever there was. -/
theorem PDTGuard.call_recordClose (g : PDTGuard) (symbol : Symbol) (qty : ℤ) :
    (g.call (.recordClose symbol qty)).roundTripsToday =
      g.roundTripsToday + if (g.openSymbols.get? symbol).getD 0 ≤ qty then 1 else 0 := by
  rw [call, recordClose]
  by_cases h : (g.openSymbols.get? symbol).getD 0 ≤ qty
  · rw [if_pos (by omega), if_pos h]
  · rw [if_neg (by omega), if_neg h, Nat.add_zero]

/-- The dictionary holds the open quantities, and no binding that is not positive. -/
structure PDTGuard.Holds (g : PDTGuard) (calls : List PdtCall) : Prop where
  getD_eq : ∀ symbol, (g.openSymbols.get? symbol).getD 0 = openQty symbol calls
  pos : ∀ symbol q, g.openSymbols.get? symbol = some q → 0 < q

theorem PDTGuard.Holds.nonneg (h : g.Holds calls) (symbol : Symbol) :
    0 ≤ openQty symbol calls := by
  rw [← h.getD_eq]
  cases hget : g.openSymbols.get? symbol with
  | none => exact le_refl 0
  | some q => exact (h.pos symbol q hget).le

theorem PDTGuard.Holds.of_set {next : PDTGuard} {c : PdtCall} {q : ℤ} (h : g.Holds calls)
    (hnext : next.openSymbols = g.openSymbols.set c.symbol q) (hpos : 0 < q)
    (hq : c.applied (openQty c.symbol calls) = q) : next.Holds (calls ++ [c]) where
  getD_eq := by
    intro symbol
    rw [hnext, Dict.get?_set, openQty_snoc]
    by_cases hs : symbol = c.symbol
    · rw [if_pos hs, if_pos hs.symm, hs, hq, Option.getD_some]
    · rw [if_neg hs, if_neg (Ne.symm hs), h.getD_eq]
  pos := by
    intro symbol u hget
    rw [hnext, Dict.get?_set] at hget
    split at hget
    · exact Option.some.inj hget ▸ hpos
    · exact h.pos symbol u hget

theorem PDTGuard.Holds.of_erase {next : PDTGuard} {c : PdtCall} (h : g.Holds calls)
    (hnext : next.openSymbols = g.openSymbols.erase c.symbol)
    (hflat : c.applied (openQty c.symbol calls) = 0) : next.Holds (calls ++ [c]) where
  getD_eq := by
    intro symbol
    rw [hnext, Dict.get?_erase, openQty_snoc]
    by_cases hs : symbol = c.symbol
    · rw [if_pos hs, if_pos hs.symm, hs, hflat, Option.getD_none]
    · rw [if_neg hs, if_neg (Ne.symm hs), h.getD_eq]
  pos := by
    intro symbol u hget
    rw [hnext, Dict.get?_erase] at hget
    split at hget
    · exact absurd hget (by simp)
    · exact h.pos symbol u hget

/-- **The dictionary keeps up**, call by call. -/
theorem PDTGuard.Holds.call (h : g.Holds calls) {c : PdtCall} (hqty : 0 < c.qty) :
    (g.call c).Holds (calls ++ [c]) := by
  cases c with
  | recordOpen symbol qty =>
      have hnonneg := h.nonneg symbol
      refine h.of_set rfl ?_ ?_
      · rw [h.getD_eq]
        exact Int.add_pos_of_nonneg_of_pos hnonneg hqty
      · rw [h.getD_eq]; rfl
  | recordClose symbol qty =>
      -- the position goes flat: its symbol leaves the dictionary
      by_cases hflat : openQty symbol calls - qty ≤ 0
      · have hcall : g.call (.recordClose symbol qty) = ⟨g.roundTripsToday + 1,
            g.openSymbols.erase symbol⟩ := by
          rw [PDTGuard.call, recordClose, h.getD_eq, if_pos hflat]
        rw [hcall]
        exact h.of_erase rfl (max_eq_left hflat)
      · -- some shares stay open, and the entry with them
        have hcall : g.call (.recordClose symbol qty) = { g with
            openSymbols := g.openSymbols.set symbol (openQty symbol calls - qty) } := by
          rw [PDTGuard.call, recordClose, h.getD_eq, if_neg hflat]
        rw [hcall]
        exact h.of_set rfl (not_le.mp hflat) (max_eq_right (not_le.mp hflat).le)

theorem PDTGuard.holds_resetSession (g : PDTGuard) : g.resetSession.Holds [] where
  getD_eq := fun _ => rfl
  pos := fun _ _ h => absurd h (by simp [resetSession])

theorem PDTGuard.holds_after (g : PDTGuard) (hqty : ∀ c ∈ calls, 0 < c.qty) :
    (g.resetSession.after calls).Holds calls := by
  induction calls using List.reverseRecOn with
  | nil => exact g.holds_resetSession
  | append_singleton calls c ih =>
      rw [after_snoc]
      exact (ih fun c hc => hqty c (List.mem_append_left _ hc)).call (hqty c (by simp))

/-! ## What a call adds to the count -/

/-- Of a matched call, the guard counts what takes its symbol to none. -/
theorem PDTGuard.Holds.roundTrips_call (h : g.Holds calls) {c : PdtCall} (hqty : 0 < c.qty)
    (hc : Matched calls c) :
    (g.call c).roundTripsToday = g.roundTripsToday + if goesFlat calls c then 1 else 0 := by
  have hnonneg := h.nonneg c.symbol
  have hafter := openQty_snoc c.symbol calls c
  rw [if_pos rfl] at hafter
  have hflat : goesFlat calls c = true ↔
      0 < openQty c.symbol calls ∧ c.applied (openQty c.symbol calls) = 0 := by
    rw [goesFlat, hafter, Bool.and_eq_true, decide_eq_true_iff, decide_eq_true_iff]
  cases c with
  | recordOpen symbol qty =>
      -- a quantity that is added leaves the position above zero
      have hstays : ¬ goesFlat calls (.recordOpen symbol qty) = true := by
        rw [hflat]
        simp only [PdtCall.qty] at hqty
        simp only [PdtCall.applied, PdtCall.symbol] at hnonneg ⊢
        omega
      rw [call_recordOpen, if_neg hstays, Nat.add_zero]
  | recordClose symbol qty =>
      -- an open position is what `Matched` asks of a close
      have hopen : 0 < openQty symbol calls := hc.resolve_left (by simp [PdtCall.opens])
      have hiff : goesFlat calls (.recordClose symbol qty) = true ↔ openQty symbol calls ≤ qty := by
        rw [hflat]
        simp only [PdtCall.applied, PdtCall.symbol]
        omega
      rw [call_recordClose, h.getD_eq]
      simp only [hiff]

/-- An unmatched close counts. -/
theorem PDTGuard.Holds.roundTrips_unmatched (h : g.Holds calls) {c : PdtCall} (hqty : 0 < c.qty)
    (hc : ¬ Matched calls c) : (g.call c).roundTripsToday = g.roundTripsToday + 1 := by
  obtain ⟨hclose, hnone⟩ := not_or.mp hc
  cases c with
  | recordOpen symbol qty => exact absurd rfl hclose
  | recordClose symbol qty =>
      have hall : openQty symbol calls ≤ qty := (not_lt.mp hnone).trans hqty.le
      rw [call_recordClose, h.getD_eq, if_pos hall]

/-- A matched call that ends a round trip takes a symbol off the record, and only an open puts
one there. -/
theorem PDTGuard.Holds.roundTrips_add_open (h : g.Holds calls) {c : PdtCall}
    (hc : Matched calls c) :
    (g.call c).roundTripsToday + (g.call c).openSymbols.items.length ≤
      g.roundTripsToday + g.openSymbols.items.length + if c.opens then 1 else 0 := by
  cases c with
  | recordOpen symbol qty =>
      -- opening adds one entry at most
      have hlen := g.openSymbols.length_set_le symbol
        ((g.openSymbols.get? symbol).getD 0 + qty)
      rw [call_recordOpen, if_pos (show (PdtCall.recordOpen symbol qty).opens = true from rfl),
        Nat.add_assoc]
      exact Nat.add_le_add_left hlen _
  | recordClose symbol qty =>
      have hopen : 0 < openQty symbol calls := hc.resolve_left (by simp [PdtCall.opens])
      rw [← h.getD_eq] at hopen
      -- a close of nothing is excluded by `Matched`
      cases hget : g.openSymbols.get? symbol with
      | none => exact absurd hopen (by simp [hget])
      | some q =>
          simp only [PdtCall.opens, Bool.false_eq_true, if_false, Nat.add_zero]
          rw [PDTGuard.call, recordClose, hget, Option.getD_some]
          -- going flat counts one round trip and frees one entry
          by_cases hflat : q - qty ≤ 0
          · have hlen := Dict.length_erase_lt hget
            rw [if_pos hflat]
            show g.roundTripsToday + 1 + (g.openSymbols.erase symbol).items.length ≤ _
            omega
          · -- a partial close changes neither
            rw [if_neg hflat]
            show g.roundTripsToday + (g.openSymbols.set symbol (q - qty)).items.length ≤ _
            rw [Dict.length_set_of_contains hget]

/-! ## What a day adds up to -/

/-- Over matched calls the guard counts what went flat. -/
theorem PDTGuard.roundTrips_eq (g : PDTGuard) (hqty : ∀ c ∈ calls, 0 < c.qty)
    (hmatched : EachAt Matched calls) :
    (g.resetSession.after calls).roundTripsToday = countAt goesFlat calls := by
  induction calls using List.reverseRecOn with
  | nil => rfl
  | append_singleton calls c ih =>
      obtain ⟨hbefore, hc⟩ := eachAt_snoc.mp hmatched
      have hpos : ∀ c ∈ calls, 0 < c.qty := fun c hc => hqty c (List.mem_append_left _ hc)
      rw [after_snoc, (g.holds_after hpos).roundTrips_call (hqty c (by simp)) hc, countAt_snoc,
        ih hpos hbefore]

theorem PDTGuard.roundTrips_le_opens (g : PDTGuard) (hqty : ∀ c ∈ calls, 0 < c.qty)
    (hmatched : EachAt Matched calls) :
    (g.resetSession.after calls).roundTripsToday +
      (g.resetSession.after calls).openSymbols.items.length ≤ calls.countP PdtCall.opens := by
  induction calls using List.reverseRecOn with
  | nil => exact le_refl 0
  | append_singleton calls c ih =>
      obtain ⟨hbefore, hc⟩ := eachAt_snoc.mp hmatched
      have hpos : ∀ c ∈ calls, 0 < c.qty := fun c hc => hqty c (List.mem_append_left _ hc)
      have hstep := (g.holds_after hpos).roundTrips_add_open hc
      rw [after_snoc, List.countP_append, List.countP_singleton]
      exact hstep.trans (Nat.add_le_add_right (ih hpos hbefore) _)

/-- A day may go on exactly while fewer symbols went flat than it may have trades. -/
theorem PDTGuard.canTrade_iff (g : PDTGuard) (cfg : Config) (accountType : AccountType)
    (hqty : ∀ c ∈ calls, 0 < c.qty) (hmatched : EachAt Matched calls) :
    ((g.resetSession.after calls).canTrade cfg accountType).1 = true ↔
      (countAt goesFlat calls : ℤ) < maxTrades cfg accountType := by
  have hcount := g.roundTrips_eq hqty hmatched
  rw [canTrade, hcount]
  split
  · rename_i hfull
    simpa using hfull
  · rename_i hroom
    simpa using hroom

end Calls

/--
**The guard counts round trips exactly while no close comes without an open.** With
positive quantities, its count since the session was reset is the number of times a
symbol went flat, at most the number of opens, and untouched by a close of a symbol
of which nothing is open, if and only if there is no such close.
-/
theorem countsRoundTrips_iff (g : PDTGuard) (calls : List PdtCall)
    (hqty : ∀ c ∈ calls, 0 < c.qty) :
    g.resetSession.CountsRoundTrips calls ↔ EachAt Matched calls := by
  constructor
  · intro h before c after hcalls
    by_contra hunmatched
    have hpos : ∀ c ∈ before, 0 < c.qty := fun c hc => hqty c (by simp [hcalls, hc])
    have hcounted := (g.holds_after hpos).roundTrips_unmatched (hqty c (by simp [hcalls]))
      hunmatched
    have hsame := h.unmatched before c after hcalls hunmatched
    rw [PDTGuard.after_snoc] at hsame
    omega
  · intro h
    refine ⟨g.roundTrips_eq hqty h, ?_, ?_⟩
    · exact (Nat.le_add_right _ _).trans (g.roundTrips_le_opens hqty h)
    · intro before c after hcalls hunmatched
      exact absurd (h before c after hcalls) hunmatched

/-- One round trip, its close reported twice. -/
def closeReportedTwice : List PdtCall :=
  [.recordOpen "AAA" 100, .recordClose "AAA" 100, .recordClose "AAA" 100]

theorem roundTrips_doubled :
    (∀ c ∈ closeReportedTwice, 0 < c.qty) ∧
      ¬ (PDTGuard.resetSession ⟨0, ∅⟩).CountsRoundTrips closeReportedTwice := by
  refine ⟨by decide, ?_⟩
  intro h
  exact absurd h.le_opens (by decide)

theorem countsRoundTrips_iff_partial :
    (PDTGuard.resetSession ⟨0, ∅⟩).CountsRoundTrips
        [.recordOpen "AAA" 100, .recordClose "AAA" 40, .recordClose "AAA" 70]
      ↔ EachAt Matched [.recordOpen "AAA" 100, .recordClose "AAA" 40, .recordClose "AAA" 70] :=
  countsRoundTrips_iff ⟨0, ∅⟩ _ (by decide)

end RossBot
