import Mathlib.Data.Int.Bitwise
import RossBot.Money

/-!
# The fill model

`core/backtest/fill_model.py`: what a simulated order is filled at, and what it
costs. The generator behind a seeded partial fill is a parameter,
`rng seed = random.Random(seed).random()`.
-/

namespace RossBot

/-- `_FINRA_TAF_PER_SHARE`. -/
def finraTafPerShare : ℚ := 195 / 1000000

/-- `_FINRA_TAF_CAP`. -/
def finraTafCap : ℚ := 979 / 100

/-- `_EXCHANGE_TAKER_PER_SHARE`. -/
def exchangeTakerPerShare : ℚ := 3 / 10000

/-- `MENTAL_STOP_LATENCY_SLIP`. -/
def mentalStopLatencySlip : ℚ := 5 / 100

/-- The double nearest to `0.10`, below which a draw means a partial fill. -/
def partialFillThreshold : ℚ := 3602879701896397 / 36028797018963968

/-- `FillResult`. -/
structure FillResult where
  fillPrice : ℚ
  fillShares : ℤ
  fees : ℚ
  isPartial : Bool
  slippage : ℚ

/-- Slippage of a buy in cents: one for each ten dollars, at least one, at most five. -/
def slipCents (askPrice : ℚ) : ℤ := max 1 (min 5 (roundDown askPrice / 10))

/-- Whether a seeded buy is only partly filled. -/
def isPartialFill (rng : ℤ → ℚ) (seed : Option ℤ) : Bool :=
  match seed with
  | none => false
  | some seed => decide (rng seed < partialFillThreshold)

/-- `entry_fill`. -/
def entryFill (rng : ℤ → ℚ) (askPrice buyOffset : ℚ) (requestedShares : ℤ) (seed : Option ℤ) :
    FillResult :=
  let slippage : ℚ := (slipCents askPrice : ℚ) / 100
  let isPartial := isPartialFill rng seed
  let fillShares := if isPartial then max 1 (requestedShares / 2) else requestedShares
  { fillPrice := askPrice + buyOffset + slippage
    fillShares := fillShares
    fees := (fillShares : ℚ) * exchangeTakerPerShare
    isPartial := isPartial
    slippage := slippage }

/-- `_sell_fees`. The fill price is not looked at. -/
def sellFees (_fillPrice : ℚ) (shares : ℤ) : ℚ :=
  min ((shares : ℚ) * finraTafPerShare) finraTafCap + (shares : ℚ) * exchangeTakerPerShare

/-- `exit_fill_stop`. -/
def exitFillStop (stopPrice barLow : ℚ) (shares : ℤ) : FillResult :=
  let fillPrice := max (min (stopPrice - mentalStopLatencySlip) (barLow - 1 / 100)) (1 / 100)
  { fillPrice := fillPrice
    fillShares := shares
    fees := sellFees fillPrice shares
    isPartial := false
    slippage := stopPrice - fillPrice }

/-- `exit_fill_target`, with the default `extra_slippage`. -/
def exitFillTarget (bidPrice : ℚ) (shares : ℤ) : FillResult :=
  let fillPrice := max (bidPrice - 1 / 100) (1 / 100)
  { fillPrice := fillPrice
    fillShares := shares
    fees := sellFees fillPrice shares
    isPartial := false
    slippage := 1 / 100 }

theorem one_le_slipCents (askPrice : ℚ) : 1 ≤ slipCents askPrice := le_max_left ..

theorem entryFill_fillPrice (rng : ℤ → ℚ) (ask offset : ℚ) (n : ℤ) (seed : Option ℤ) :
    (entryFill rng ask offset n seed).fillPrice = ask + offset + (slipCents ask : ℚ) / 100 := rfl

/-- A buy fills at least a cent above ask plus offset. -/
theorem le_entryFill_fillPrice (rng : ℤ → ℚ) (ask offset : ℚ) (n : ℤ) (seed : Option ℤ) :
    ask + offset + 1 / 100 ≤ (entryFill rng ask offset n seed).fillPrice := by
  have h : (1 : ℚ) ≤ (slipCents ask : ℚ) := by exact_mod_cast one_le_slipCents ask
  rw [entryFill_fillPrice]
  linarith

end RossBot
