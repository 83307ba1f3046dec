import RossBot.Config

/-!
# What crosses the adapters

`adapters/base.py`, `adapters/providers.py` and the part of
`core/scanner/models.py` the strategy reads: bars, quotes, order
acknowledgements and scan results. Instants are seconds since the epoch (UTC).
Fields no modelled function reads (sizes on a quote, the pillar report of a
scan) are left out.
-/

namespace RossBot

/-- A ticker. -/
abbrev Symbol := String

/-- A tz-aware `datetime`, as seconds since the epoch. -/
abbrev Time := ℚ

/-- Tuesday 6 January 2026, 09:30 in New York. -/
def openingBell : Time := 1767709800

/-- `L2Signal`. -/
inductive L2Signal where
  | support
  | absorbBreak
  | spoof
  | iceberg
  | unknown
  deriving DecidableEq, Repr

/-- `Side`. -/
inductive Side where
  | buy
  | sell
  deriving DecidableEq, Repr

/-- `MarketState`. -/
inductive MarketState where
  | hot
  | cold
  | rehab
  deriving DecidableEq, Repr

/-- `Attention`. -/
inductive Attention where
  | prime
  | watch
  | ignore
  deriving DecidableEq, Repr

/-- `BarTick`. -/
structure BarTick where
  symbol : Symbol
  ts : Time
  timeframe : String
  openPrice : Money
  high : Money
  low : Money
  close : Money
  volume : ℕ

/-- `QuoteTick`. -/
structure QuoteTick where
  bid : Money
  ask : Money

/-- `OrderAck`. -/
structure OrderAck where
  clientOrderId : String
  brokerOrderId : Option String
  accepted : Bool
  status : String
  message : Option String
  deriving DecidableEq, Repr

/-- `ScanCandidate`, as far as the strategy reads it. -/
structure ScanCandidate where
  rvol : Option Money
  floatShares : Option ℤ
  recentReverseSplit : Bool

/-- `ScanResult`, as far as the strategy reads it. -/
structure ScanResult where
  candidate : ScanCandidate
  tierBPass : Bool
  attention : Attention

end RossBot
