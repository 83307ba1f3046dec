import RossBot.Market

/-!
# Streaming indicators

`core/indicators.py`: EMA, MACD and session VWAP, one bar at a time. The
recurrence keeps full precision; values are rounded to six decimals on the way
out.
-/

namespace RossBot

/-- `_q`: quantize to six decimals (the context's `ROUND_HALF_EVEN`). -/
def q6 (x : ℚ) : ℚ := (roundHalfEven (x * 1000000) : ℚ) / 1000000

/-- `EmaState`. -/
structure EmaState where
  period : ℕ
  buf : List ℚ
  ema : Option ℚ

/-- `EmaState(period)`. -/
def EmaState.new (period : ℕ) : EmaState := ⟨period, [], none⟩

/-- The smoothing factor `2 / (period + 1)`. -/
def EmaState.k (s : EmaState) : ℚ := 2 / ((s.period : ℚ) + 1)

/-- `EmaState.update`: the new state and the value it emits. -/
def EmaState.update (s : EmaState) (price : ℚ) : EmaState × Option ℚ :=
  match s.ema with
  | none =>
      let buf := s.buf ++ [price]
      if buf.length < s.period then ({ s with buf := buf }, none)
      else
        -- the seed is the simple average of the first `period` prices
        let seed := buf.sum / (s.period : ℚ)
        ({ s with buf := buf, ema := some seed }, some (q6 seed))
  | some e =>
      let e' := (price - e) * s.k + e
      ({ s with ema := some e' }, some (q6 e'))

/-- `MacdPoint`. -/
structure MacdPoint where
  macd : ℚ
  signal : Option ℚ
  histogram : Option ℚ

/-- `MacdState`. -/
structure MacdState where
  fast : EmaState
  slow : EmaState
  signal : EmaState

/-- `MacdState()`, with the default periods 12, 26 and 9. -/
def MacdState.new : MacdState := ⟨.new 12, .new 26, .new 9⟩

/-- `MacdState.update`. -/
def MacdState.update (s : MacdState) (close : ℚ) : MacdState × Option MacdPoint :=
  let f := s.fast.update close
  let sl := s.slow.update close
  match f.2, sl.2 with
  | some fastV, some slowV =>
      let line := fastV - slowV
      let sg := s.signal.update line
      (⟨f.1, sl.1, sg.1⟩, some ⟨q6 line, sg.2, sg.2.map fun v => q6 (line - v)⟩)
  | _, _ => (⟨f.1, sl.1, s.signal⟩, none)

/-- `macd`: a point for each close. -/
def macd (closes : List ℚ) : List (Option MacdPoint) :=
  (closes.foldl (fun (r : MacdState × List (Option MacdPoint)) c =>
    ((r.1.update c).1, r.2 ++ [(r.1.update c).2])) (.new, [])).2

/-- `macd_positive`: an unseeded point is not positive. -/
def macdPositive : Option MacdPoint → Bool
  | some ⟨m, some s, some h⟩ => decide (s < m) && decide (0 ≤ h)
  | _ => false

/-- `VwapState`. -/
structure VwapState where
  pv : ℚ
  vol : ℚ

/-- `VwapState()`. -/
def VwapState.new : VwapState := ⟨0, 0⟩

/-- `VwapState.value`. -/
def VwapState.value (s : VwapState) : Option ℚ :=
  if s.vol = 0 then none else some (q6 (s.pv / s.vol))

/-- `VwapState.update`. -/
def VwapState.update (s : VwapState) (high low close : ℚ) (volume : ℕ) : VwapState × Option ℚ :=
  let s' : VwapState := ⟨s.pv + (high + low + close) / 3 * volume, s.vol + volume⟩
  (s', s'.value)

end RossBot
