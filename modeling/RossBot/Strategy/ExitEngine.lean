import RossBot.Strategy.Patterns

/-!
# Exit rules P1–P8

`core/strategy/exit_engine.py` and the higher-high guard of
`core/execution/bailout.py`. The first rule that fires wins.
-/

namespace RossBot

/-- `has_higher_high_on_rising_volume`. -/
def hasHigherHighOnRisingVolume : List BarTick → ℚ → Bool
  | prev :: curr :: rest, entryPrice =>
      (decide (prev.high.val < curr.high.val) && decide (entryPrice < curr.high.val)
        && decide (prev.volume ≤ curr.volume))
      || hasHigherHighOnRisingVolume (curr :: rest) entryPrice
  | _, _ => false

/-- `is_bailout_condition`. -/
def isBailoutCondition (cfg : Config) (entryTs : Time) (entryPrice currentPrice : ℚ)
    (barsSinceEntry : List BarTick) (nowTs : Time) : Bool :=
  if nowTs - entryTs < cfg.bailoutSeconds then false
  else if cfg.bailoutMove ≤ currentPrice - entryPrice then false
  else if hasHigherHighOnRisingVolume barsSinceEntry entryPrice then false
  else true

/-- `_at_psych_level`. -/
def atPsychLevel (price step tolerance : ℚ) : Bool :=
  if step ≤ 0 then false
  else
    let nearest := (roundHalfUp (price / step) : ℚ) * step
    decide (|price - nearest| ≤ tolerance)

/-- What `evaluate_exit` looks at besides the position. -/
structure ExitInput where
  currentBar : BarTick
  prevBars : List BarTick
  currentPrice : ℚ
  l2Signal : L2Signal
  vwap : Option ℚ
  marketRank : Option ℤ
  intradayHigh : ℚ

/-- P2: the time stop, with the higher-high guard. -/
def timeStopFires (cfg : Config) (p : PositionSnapshot) (i : ExitInput) : Bool :=
  decide ((cfg.bailoutSeconds : ℚ) ≤ i.currentBar.ts - p.entryTs)
    && decide (i.currentPrice - p.entryPrice.val < cfg.bailoutMove)
    && !hasHigherHighOnRisingVolume (i.prevBars.filter fun b => decide (p.entryTs ≤ b.ts))
      p.entryPrice.val

/-- P4: the previous bar topped out and this one made a new low. -/
def toppingTailFires (i : ExitInput) : Bool :=
  match i.prevBars.getLast? with
  | none => false
  | some b => isToppingCandle b && decide (i.currentBar.low.val < b.low.val)

/-- P5: a new high of day or a half-dollar level, with the position in profit. -/
def scaleFires (cfg : Config) (p : PositionSnapshot) (i : ExitInput) : Bool :=
  let hodBreak := decide (i.intradayHigh < i.currentPrice)
    && decide (p.highWatermark.val < i.intradayHigh)
  let psychHit := atPsychLevel i.currentPrice cfg.psychLevelStep cfg.psychLevelTolerance
  (hodBreak || psychHit) && decide (cfg.moveBeTrigger ≤ i.currentPrice - p.entryPrice.val)

/-- A signal to sell everything. -/
def fullExit (p : PositionSnapshot) (i : ExitInput) (reason : ExitReason) : ExitSignal :=
  { symbol := p.symbol, ts := i.currentBar.ts, reason := reason, action := .fullExit,
    scaleFraction := 1, newStop := none }

/-- P5's signal: sell the first fraction and move the stop to the entry price. -/
def scaleOut (cfg : Config) (p : PositionSnapshot) (i : ExitInput) : ExitSignal :=
  { symbol := p.symbol, ts := i.currentBar.ts, reason := .scaleStrength, action := .partialScale,
    scaleFraction := cfg.firstScaleFraction, newStop := some p.entryPrice }

/-- `evaluate_exit`. -/
def evaluateExit (cfg : Config) (p : PositionSnapshot) (i : ExitInput) : Option ExitSignal :=
  let unrealized := i.currentPrice - p.entryPrice.val
  if i.currentPrice ≤ p.currentStop.val then some (fullExit p i .hardStop)
  else if timeStopFires cfg p i then some (fullExit p i .timeStop)
  else if i.l2Signal = .spoof ∨ i.l2Signal = .iceberg then some (fullExit p i .l2Reversal)
  else if toppingTailFires i then some (fullExit p i .toppingTail)
  else if scaleFires cfg p i then some (scaleOut cfg p i)
  else if i.currentBar.close.val < i.currentBar.openPrice.val then
    some (fullExit p i .firstRedClose)
  else if i.vwap.any (fun v => decide (i.currentPrice < v))
      && decide (cfg.moveBeTrigger ≤ unrealized) then some (fullExit p i .vwapGuard)
  else if i.marketRank.any (fun r => decide (cfg.attentionWatchRank < r)) then
    some (fullExit p i .lostPopularity)
  else none

/-- The exit rules either sell everything or scale out by P5. -/
theorem evaluateExit_cases {cfg : Config} {p : PositionSnapshot} {i : ExitInput} {s : ExitSignal}
    (h : evaluateExit cfg p i = some s) :
    (∃ r, s = fullExit p i r) ∨ s = scaleOut cfg p i := by
  unfold evaluateExit at h
  dsimp only at h
  repeat' split at h
  all_goals first
    | exact Or.inl ⟨_, (Option.some.inj h).symm⟩
    | exact Or.inr (Option.some.inj h).symm
    | exact absurd h (by simp)

end RossBot
