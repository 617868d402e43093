import BalanceFrame.Liquidity.Shortage
import BalanceFrame.Liquidity.SettlementCorrect
import BalanceFrame.Liquidity.SettlementOrder
import BalanceFrame.Liquidity.MinCostFlow
import BalanceFrame.Liquidity.Conservation
import BalanceFrame.Evidence.SpentOnce
import BalanceFrame.Evidence.KnownBalances
import BalanceFrame.Evidence.AllocationConserves
import BalanceFrame.Evidence.Apportionment
import BalanceFrame.Decision.Ledgers
import BalanceFrame.Liquidity.Explanations
import BalanceFrame.Liquidity.Arrival
import BalanceFrame.Liquidity.Charges
import BalanceFrame.Archive.RawContent
import BalanceFrame.Archive.VersionChains
import BalanceFrame.Archive.InferenceConsent
import BalanceFrame.Merchant.Caps
import BalanceFrame.Notify.Deliveries
import BalanceFrame.Notification.Admitted
import BalanceFrame.Governance.Agents
import BalanceFrame.Governance.History
import BalanceFrame.Governance.Narrowing
import BalanceFrame.Governance.Subjects
import BalanceFrame.Workflow.ReviewQuorum
import BalanceFrame.Workflow.Lifecycle
import BalanceFrame.Workflow.Holds
import BalanceFrame.Workflow.Quorum
import BalanceFrame.Workflow.Writers
import BalanceFrame.Holds.Proposals
import BalanceFrame.Holds.Admissible
import BalanceFrame.Holds.Coverage
import BalanceFrame.Holds.Isolation
import BalanceFrame.Holds.TransferLifecycle
import BalanceFrame.Merchant.NativeAgreement
import BalanceFrame.Merchant.Variance
import BalanceFrame.Mutation.UnseenCategory
import BalanceFrame.Connection.Exclusive
import BalanceFrame.Attestation.Stale
import BalanceFrame.Purchase.Splits
import BalanceFrame.Decision.CartConserves
import BalanceFrame.Liquidity.AddedHold
import BalanceFrame.Holds.ApprovalTimes
import BalanceFrame.Prospective.Honoured
import BalanceFrame.Analysis.Targets
