import TradeWatch.CommandLine
import TradeWatch.Main
import TradeWatch.Store.Memory
import TradeWatch.Store.Quota
import TradeWatch.Proofs.Ascending
import TradeWatch.Proofs.Dict
import TradeWatch.Proofs.Gate
import TradeWatch.Proofs.Scoring
import TradeWatch.Proofs.Alert.Stored
import TradeWatch.Proofs.Run.History
import TradeWatch.Proofs.TradeOrder
import TradeWatch.Proofs.Config
import TradeWatch.Proofs.Relevance
import TradeWatch.Proofs.EventGrowth
import TradeWatch.Proofs.Run.Course
import TradeWatch.Proofs.WindowBounds
import TradeWatch.Proofs.Run.Anonymous
import TradeWatch.Proofs.Table.Reading
import TradeWatch.Proofs.Essentials
import TradeWatch.Proofs.CandidateTables
import TradeWatch.Proofs.Run.Inputs
import TradeWatch.Proofs.Run.Sources
import TradeWatch.Proofs.Run.Intermediates
import TradeWatch.Proofs.Store.Path
import TradeWatch.Proofs.Store.FileTree
import TradeWatch.Proofs.Store.Directory
import TradeWatch.Proofs.Run.Simulation
import TradeWatch.Proofs.Store.Mirror
import TradeWatch.Proofs.Store.Interchange
import TradeWatch.Proofs.Decimal.Order
import TradeWatch.Proofs.DailyVolume
import TradeWatch.Proofs.EventByEvent
import TradeWatch.Proofs.Rule.PreAnnouncement
import TradeWatch.Proofs.Rule.Network
import TradeWatch.Proofs.Rule.Profit
import TradeWatch.Proofs.Decimal.Sign
import TradeWatch.Proofs.Rule.Gain
import TradeWatch.Proofs.Rule.Leakage
import TradeWatch.Proofs.Random.Stream
import TradeWatch.Proofs.Synthesis.Weeks
import TradeWatch.Proofs.Synthesis.Kinds
import TradeWatch.Proofs.Synthesis.Schedule
import TradeWatch.Proofs.Run.Occurrences
import TradeWatch.Proofs.Window.Scan
import TradeWatch.Proofs.Thresholds
import TradeWatch.Proofs.LookBack
import TradeWatch.Proofs.Baselines
import TradeWatch.Proofs.Translation
import TradeWatch.Proofs.Text.Trim
import TradeWatch.Proofs.Relations.Canonical
import TradeWatch.Proofs.Relations.Styles
import TradeWatch.Proofs.Table.Cells
import TradeWatch.Proofs.Table.Records
import TradeWatch.Proofs.Table.Times
import TradeWatch.Proofs.Tally
import TradeWatch.Proofs.Alert.Summary
import TradeWatch.Proofs.FirstFailure
import TradeWatch.Proofs.Table.Faults
import TradeWatch.Proofs.Alert.Reading
import TradeWatch.Proofs.Config.Reading
import TradeWatch.Proofs.Config.Resolution
import TradeWatch.Proofs.Json.Grammar
import TradeWatch.Proofs.Config.Texts
import TradeWatch.Proofs.Table.Events
