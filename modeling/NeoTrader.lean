import NeoTrader.Trade.RecoveryIsolation
import NeoTrader.Trade.PartialFill
import NeoTrader.Trade.NoForgottenOrder
import NeoTrader.Trade.EarlyTerminal
import NeoTrader.Trade.NoOrphans
import NeoTrader.Trade.CycleDedup
import NeoTrader.Trade.BrokerTruth
import NeoTrader.Trade.PositionSync
import NeoTrader.Trade.PeriodBaselines
import NeoTrader.Pretest.RiskFloor
import NeoTrader.Pretest.PaperParity
import NeoTrader.Pretest.Exits
import NeoTrader.Agents.CallBudget
import NeoTrader.Auth.TotpRoutes
import NeoTrader.Strategy.SecondFactor
import NeoTrader.Strategy.WalkForwardGate
import NeoTrader.Backtest.Robust
import NeoTrader.Plugins.ActiveSet
import NeoTrader.Plugins.OpenGuard
import NeoTrader.Plugins.ScanCoverage
import NeoTrader.Plugins.ContentChange
import NeoTrader.Plugins.TrustScore
import NeoTrader.Cycle.VetoLedger
import NeoTrader.Cycle.AbsentHook
import NeoTrader.Cycle.FaultIsolation
import NeoTrader.Disciplines.Exits
import NeoTrader.Cycle.RealAccount
import NeoTrader.Catalogue.Replay
import NeoTrader.Agents.TuningDiscipline
import NeoTrader.Trade.SizingCeilings
import NeoTrader.Pretest.Rebalance
import NeoTrader.Pretest.Significance
import NeoTrader.Backtest.TradingCosts
import NeoTrader.Backtest.CurveAgreement
import NeoTrader.Backtest.Generate
import NeoTrader.Backtest.Geometry
import NeoTrader.Disciplines.ExposureCaps
import NeoTrader.Disciplines.ConcentrationCaps
import NeoTrader.Trade.StaleOrders
import NeoTrader.Trade.SubmitFailures
import NeoTrader.Trade.HighWater
import NeoTrader.Trade.Breaker
import NeoTrader.Agents.PermittedFunctions
import NeoTrader.Agents.HiddenCalls
import NeoTrader.Scheduler.Reflection
import NeoTrader.Disciplines.PyramidPlan
import NeoTrader.Disciplines.SizingLimits
import NeoTrader.Providers.CacheRuns
import NeoTrader.Cycle.Resample
import NeoTrader.Disciplines.MacroCalendar
import NeoTrader.Disciplines.VoteOrder
import NeoTrader.Trade.PolicyLaw
import NeoTrader.Strategy.BootRetry
import NeoTrader.Backtest.InverseVol
import NeoTrader.Disciplines.AtrStop
import NeoTrader.Agents.ContextMemory
import NeoTrader.Panel.PublisherIdentity
import NeoTrader.Trade.VirtualBook
import NeoTrader.Plugins.SkillUndo
import NeoTrader.Agents.ConfigMerge
import NeoTrader.Panel.Credentials
import NeoTrader.Agents.Debate
import NeoTrader.Disciplines.CircuitLock
import NeoTrader.Strategy.CaptureApply
import NeoTrader.Catalogue.PresetManifest
import NeoTrader.Cycle.VetoWindow
import NeoTrader.Cycle.VetoValue
import NeoTrader.Agents.DebateGate
