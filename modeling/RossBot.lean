import RossBot.Lib.Average
import RossBot.Lib.Cuts
import RossBot.Lib.Dict
import RossBot.Lib.Groups
import RossBot.Lib.Ranking
import RossBot.Lib.Runs
import RossBot.Lib.Stairs
import RossBot.Lib.Stretch
import RossBot.Lib.Tally
import RossBot.Lib.Window
import RossBot.Indicators.Ranges
import RossBot.Indicators.Seeding
import RossBot.Strategy.Pullback
import RossBot.Strategy.Session
import RossBot.Strategy.Exits
import RossBot.Strategy.Entries
import RossBot.Strategy.Warmup
import RossBot.Strategy.Charts
import RossBot.Live.Session
import RossBot.Live.Steps
import RossBot.Live.Book
import RossBot.Live.Ledger
import RossBot.Live.Buys
import RossBot.Live.Caution
import RossBot.Live.WindDown
import RossBot.Live.Stores
import RossBot.Live.StopMonitor
import RossBot.Live.Freeze
import RossBot.Live.Flatten
import RossBot.Live.Reconcile
import RossBot.Live.SingleClose
import RossBot.Paper.Session
import RossBot.Paper.Stores
import RossBot.Paper.Exits
import RossBot.Paper.Buys
import RossBot.Backtest.Replay
import RossBot.Backtest.Steps
import RossBot.Backtest.Ledger
import RossBot.Backtest.Closings
import RossBot.Backtest.Sessions
import RossBot.Backtest.Agreement
import RossBot.Backtest.Determinism
import RossBot.Backtest.Readings
import RossBot.Backtest.SimGate
import RossBot.Backtest.Days
import RossBot.Backtest.Settlement
import RossBot.Demo.Engine
import RossBot.Demo.Steps
import RossBot.Demo.Moves
import RossBot.Demo.Halt
import RossBot.Demo.Exits
import RossBot.Demo.Ledger
import RossBot.Demo.Rejected
import RossBot.Demo.Guardrails
import RossBot.Demo.Refs
import RossBot.Demo.Conservation
import RossBot.Demo.Manual
import RossBot.Demo.Orders
import RossBot.Demo.Placing
import RossBot.Demo.Trades
import RossBot.Demo.TradeLog
import RossBot.Demo.Performance
import RossBot.Demo.Scan
import RossBot.Demo.Entries
import RossBot.Demo.Barred
import RossBot.Risk.Approval
import RossBot.Risk.Budget
import RossBot.Risk.Liquidity
import RossBot.Risk.Monotone
import RossBot.Risk.Session
import RossBot.Risk.Shutdown
import RossBot.L2.Evidence
import RossBot.L2.TapeWindow
import RossBot.Data.Bars
import RossBot.Data.Flushes
import RossBot.Data.Timeframes
import RossBot.Data.Staleness
import RossBot.Catalyst.Provider
import RossBot.News.Classifier
import RossBot.News.Stream
import RossBot.News.Verifier
import RossBot.Demo.Catalysts
import RossBot.Compliance.Pdt
import RossBot.Compliance.Luld
import RossBot.Compliance.WashSale
import RossBot.Scanner.FloatResolver
import RossBot.Scanner.Rvol
import RossBot.Scanner.TwoTier
import RossBot.MarketState.Provider
import RossBot.Dashboard.Tabs
