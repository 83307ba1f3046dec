import RossBot.Live.Buys
import RossBot.MarketState.Provider

/-!
# Outside a hot market

`classify` says HOT for a hot stretch of days only, and a session is run with what it
says. What that is for, end to end: on any other day every BUY of every interleaving
waits for a close above the high of the bar before, and its size is cut once more.
-/

namespace RossBot

open Lib

/-- A BUY that bets on nothing but a close: smaller when the market is cold, and capped in rehab. -/
structure CautiousBuy (env : Env) (before : List Event) (o : EntryOrder) : Prop where
  /-- The bar closes above the high of the symbol's 1-minute bar before it. -/
  crossing : ∃ chart, barsOf o.bar.symbol before = chart ++ [o.bar]
    ∧ ∃ prior ∈ (minuteBars chart).getLast?, prior.high.val < o.bar.close.val
  cold : env.marketState = .cold →
    (o.shares : ℚ) ≤ (max 1 ⌊(env.cfg.maxSize : ℚ) * env.cfg.icebreakerFraction⌋ : ℤ)
      * env.cfg.marketStateColdMult
  rehab : env.marketState = .rehab → o.shares ≤ env.cfg.marketStateRehabCap

/-- In a cold market a size that is not zero is at most the multiplier's part of the
ice-breaker. -/
theorem computeSize_le_cold {cfg : Config} {sig : EntrySignal} {s : RiskState} {day : ℕ}
    {cap : Option ℤ} (hf : Fractions cfg sig) (hpnl : s.realizedPnl ≤ 0)
    (h : 0 < computeSize sig s cfg .cold day cap) :
    (computeSize sig s cfg .cold day cap : ℚ)
      ≤ (max 1 ⌊(cfg.maxSize : ℚ) * cfg.icebreakerFraction⌋ : ℤ) * cfg.marketStateColdMult := by
  obtain ⟨raw, hraw⟩ := exists_rawSize h
  have hlast := (computeSize_le_last hraw h).1.trans (liquidityCap_le ..)
  -- what the multiplier is applied to is within the ice-breaker
  generalize hsized : dayOfWeekScale (scaleDown (cushionCap raw s cfg) sig.convictionScore.val) day
    cfg = sized at hlast
  have hcold : computeSize sig s cfg .cold day cap ≤ scaleDown sized cfg.marketStateColdMult := by
    rw [← hsized]
    exact (computeSize_le_last hraw h).1.trans (liquidityCap_le ..)
  have hwithin : sized ≤ max 1 ⌊(cfg.maxSize : ℚ) * cfg.icebreakerFraction⌋ := by
    have hle : sized ≤ max 0 (cushionCap raw s cfg) :=
      calc sized ≤ max 0 (scaleDown (cushionCap raw s cfg) sig.convictionScore.val) :=
            hsized ▸ dayOfWeekScale_le hf ..
        _ ≤ max 0 (max 0 (cushionCap raw s cfg)) :=
            max_le_max_left 0 (scaleDown_le hf.conviction.1 hf.conviction.2)
        _ ≤ max 0 (cushionCap raw s cfg) := by rw [max_eq_right (le_max_left ..)]
    have hice : cushionCap raw s cfg ≤ icebreakerCap cfg := cushionCap_le_icebreaker hpnl
    rw [icebreakerCap_eq] at hice
    omega
  have hcast : (sized : ℚ) ≤ (max 1 ⌊(cfg.maxSize : ℚ) * cfg.icebreakerFraction⌋ : ℤ) := by
    exact_mod_cast hwithin
  rcases le_total 0 ((sized : ℚ) * cfg.marketStateColdMult) with hpos | hneg
  · calc (computeSize sig s cfg .cold day cap : ℚ)
        ≤ scaleDown sized cfg.marketStateColdMult := by exact_mod_cast hcold
      _ ≤ sized * cfg.marketStateColdMult := roundDown_le hpos
      _ ≤ _ := mul_le_mul_of_nonneg_right hcast hf.cold.1
  · have hnone : scaleDown sized cfg.marketStateColdMult ≤ 0 := roundDown_nonpos hneg
    omega

/-- **An order that is decided outside a hot market is a cautious one.** -/
theorem World.Decided.cautious {env : Env} {w : World} {before : List Event} {o : EntryOrder}
    (hcfg : SoundConfig env.cfg) (hstate : env.marketState ≠ .hot) (hr : Reached env w)
    (h : Decided env w before o) : CautiousBuy env before o := by
  obtain ⟨chart, hchart, hentry⟩ := h.charted hr
  obtain ⟨hscan, hsig, ho, hjudged, hopened⟩ := h
  have hledger := zeroLedger_reached hr
  obtain ⟨rfl, rfl, -⟩ := entryOrder_some ho
  obtain ⟨size, hshares, hsize, hcompute⟩ := entryOrder_sized ho
  have hf : Fractions env.cfg o.signal := ⟨hcfg.monday, hcfg.friday, hcfg.cold, hentry.conviction⟩
  have hle : o.shares ≤ size := hshares ▸ rampApply_le env.cfg size
  have hmarket : o.signal.marketState = env.marketState := hentry.state
  refine ⟨⟨chart, hchart, hentry.crossing ?_⟩, fun hcold => ?_, fun hrehab => ?_⟩
  · -- mid-candle entries need a hot market
    change effectiveTrigger env.cfg.entryTrigger env.marketState = .candleClose
    unfold effectiveTrigger
    cases env.cfg.entryTrigger <;> simp [hstate]
  · rw [hmarket, hcold] at hcompute
    calc (o.shares : ℚ) ≤ size := by exact_mod_cast hle
      _ ≤ _ := hcompute ▸ computeSize_le_cold hf hledger.pnl.le (hcompute ▸ hsize)
  · have hwithin := sizedWithin_computeSize hf (hcompute ▸ hsize)
    rw [← hcompute] at hwithin
    exact hle.trans (hwithin.rehab (hmarket.trans hrehab))

/-- The trading day, but nothing was recorded before it. -/
def firstDay : Env := { tradingDay with marketState := .cold }

/-- A run of it. -/
def firstBreakout : LiveRun firstDay :=
  (Execution.start _ _).play (beforeBreakout ++ breakout 100)

end RossBot
