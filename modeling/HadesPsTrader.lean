import HadesPsTrader.Chain.BalanceRounds
import HadesPsTrader.Chain.Filters
import HadesPsTrader.Chain.Liquidation
import HadesPsTrader.Chain.MetadataDecode
import HadesPsTrader.Chain.MetadataLookup
import HadesPsTrader.Chain.QuoteVault
import HadesPsTrader.Chain.Signatures
import HadesPsTrader.Chain.Whales
import HadesPsTrader.Feeds.BotEntries
import HadesPsTrader.Feeds.BotRefines
import HadesPsTrader.Feeds.BotRuns
import HadesPsTrader.Feeds.ListenerRuns
import HadesPsTrader.Feeds.PollRefines
import HadesPsTrader.Feeds.Socket
import HadesPsTrader.Interaction.History
import HadesPsTrader.Market.Candles
import HadesPsTrader.Market.Crossovers
import HadesPsTrader.Market.DipBuyRuns
import HadesPsTrader.Market.ExactWindows
import HadesPsTrader.Market.ReclaimRule
import HadesPsTrader.Market.Signals
import HadesPsTrader.Market.WindowGate
import HadesPsTrader.Runs.CleanExit
import HadesPsTrader.Runs.Cooldowns
import HadesPsTrader.Runs.CopyAdmission
import HadesPsTrader.Runs.CopyExits
import HadesPsTrader.Runs.DryRun
import HadesPsTrader.Runs.EntryPrice
import HadesPsTrader.Runs.EntrySignals
import HadesPsTrader.Runs.HoldCap
import HadesPsTrader.Runs.HoldingPeriod
import HadesPsTrader.Runs.LandedBuys
import HadesPsTrader.Runs.MacdWindow
import HadesPsTrader.Runs.MirrorFeed
import HadesPsTrader.Runs.Notices
import HadesPsTrader.Runs.OneTrade
import HadesPsTrader.Runs.RugExit
import HadesPsTrader.Runs.SoldFlag
import HadesPsTrader.Runs.SoldPositions
import HadesPsTrader.Runs.SpendCap
import HadesPsTrader.Runs.SpendRecords
import HadesPsTrader.Runs.TradeRequests
import HadesPsTrader.Runs.TrailingEngaged
import HadesPsTrader.Tasks.CrashPoints
import HadesPsTrader.Tasks.Discord
import HadesPsTrader.Tasks.Divisions
import HadesPsTrader.Tasks.Labels
