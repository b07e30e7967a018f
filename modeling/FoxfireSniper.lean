import FoxfireSniper.Types
import FoxfireSniper.FeedTypes
import FoxfireSniper.MachineRunProofs
import FoxfireSniper.AttemptLogProofs
import FoxfireSniper.AttemptProofs
import FoxfireSniper.AgentProofs
import FoxfireSniper.RetryProofs
import FoxfireSniper.AgentRunProofs
import FoxfireSniper.FundingProofs
import FoxfireSniper.SniperProofs
import FoxfireSniper.DoubleSpendProofs
import FoxfireSniper.ExecuteTxProofs
import FoxfireSniper.WordProofs
import FoxfireSniper.BuildProofs
import FoxfireSniper.SolvencyProofs
import FoxfireSniper.WindowProofs
import FoxfireSniper.CircularBufferProofs
import FoxfireSniper.BlockchainStreamProofs
import FoxfireSniper.NoRollbackProofs
import FoxfireSniper.CacheProofs
import FoxfireSniper.TxParserProofs
import FoxfireSniper.CollectorProofs
import FoxfireSniper.ReceiptProofs
import FoxfireSniper.ReceiptRaceProofs
import FoxfireSniper.SnipeRunProofs
import FoxfireSniper.GuardScopeProofs
import FoxfireSniper.ExecutorProofs
import FoxfireSniper.VolumeStrategyProofs
import FoxfireSniper.TrancheProofs
import FoxfireSniper.SweepIsolationProofs
import FoxfireSniper.AdmissionProofs
import FoxfireSniper.SniperStrategyProofs
import FoxfireSniper.BroadcastProofs
import FoxfireSniper.StrategyManagerProofs
import FoxfireSniper.StrategyTaskProofs
import FoxfireSniper.ReconcileProofs
import FoxfireSniper.VolumeHandlerProofs
import FoxfireSniper.BuyOrSellProofs
import FoxfireSniper.ProgressProofs
import FoxfireSniper.NewPoolProofs
import FoxfireSniper.ParserPanicProofs
import FoxfireSniper.SwapAttributionProofs
import FoxfireSniper.PoolOrientationProofs
import FoxfireSniper.PriceCacheProofs
import FoxfireSniper.ReserveRaceProofs
import FoxfireSniper.AccountCacheProofs
import FoxfireSniper.SubscriptionProofs
import FoxfireSniper.SnipePhaseProofs
import FoxfireSniper.AttemptBoundProofs
import FoxfireSniper.DeactivationProofs
import FoxfireSniper.TimerProofs
import FoxfireSniper.MainWalletProofs
import FoxfireSniper.SweeperProofs
import FoxfireSniper.SweepPaymentProofs
import FoxfireSniper.SweepStuckProofs
import FoxfireSniper.CollectCommandProofs
import FoxfireSniper.TickBarProofs
import FoxfireSniper.DialogueTypes
import FoxfireSniper.TelegramAccessProofs
import FoxfireSniper.LookupBufferProofs
import FoxfireSniper.ManagerAtomicityProofs
import FoxfireSniper.PoolSupportProofs
import FoxfireSniper.RoundingProofs
import FoxfireSniper.DirichletProofs
import FoxfireSniper.TrancheBudgetProofs
import FoxfireSniper.TradeCoverageProofs
import FoxfireSniper.LedgerProofs
import FoxfireSniper.CollectBuildProofs
import FoxfireSniper.AccountReplayProofs
import FoxfireSniper.StreamWindowProofs
import FoxfireSniper.PlainBufferProofs
import FoxfireSniper.PollProofs
import FoxfireSniper.SnipePriceProofs
import FoxfireSniper.BuyPriceProofs
import FoxfireSniper.SurplusProofs
import FoxfireSniper.SellerSupplyProofs
import FoxfireSniper.BorshProofs
import FoxfireSniper.SwapDataProofs
import FoxfireSniper.SnipeCleanupProofs
import FoxfireSniper.AccountFlowProofs
import FoxfireSniper.HexProofs
import FoxfireSniper.KeysProofs
import FoxfireSniper.PaperTradingProofs
import FoxfireSniper.SharedVecProofs
import FoxfireSniper.ActionQueueProofs
import FoxfireSniper.BlockhashProofs
import FoxfireSniper.LargestProofs
import FoxfireSniper.FeeWindowProofs
import FoxfireSniper.DialogueProofs
import FoxfireSniper.DialogueStoreProofs
import FoxfireSniper.RankingProofs
import FoxfireSniper.SnipeEndProofs
import FoxfireSniper.AttemptEndProofs
import FoxfireSniper.CustodyProofs
import FoxfireSniper.ReaderProofs
import FoxfireSniper.EngineProofs
import FoxfireSniper.FeedbackProofs
import FoxfireSniper.RecencyProofs
import FoxfireSniper.AnnouncementProofs
import FoxfireSniper.AuthorityProofs
import FoxfireSniper.UniqueTableProofs
import FoxfireSniper.RegistrationProofs
import FoxfireSniper.DepositFeeProofs
import FoxfireSniper.SnipeVettingProofs
import FoxfireSniper.PhaseEndProofs
import FoxfireSniper.HandoverProofs
import FoxfireSniper.ActionPathProofs
import FoxfireSniper.NetworkCustodyProofs
import FoxfireSniper.SweepCustodyProofs
import FoxfireSniper.ConfirmationProofs
