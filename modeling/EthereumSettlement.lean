import EthereumSettlement.CheckedCalls
import EthereumSettlement.ByteWords
import EthereumSettlement.CursorReads
import EthereumSettlement.TransitionRuns
import EthereumSettlement.HashCommitments
import EthereumSettlement.MerkleAppends
import EthereumSettlement.PastaPoseidon
import EthereumSettlement.SettlementCodec
import EthereumSettlement.SettlementDecoder
import EthereumSettlement.InnerActionCommitment
import EthereumSettlement.RegistryCheckpoint
import EthereumSettlement.SettlementReceipt
import EthereumSettlement.ZekoSettlement
import EthereumSettlement.BridgeCodec
import EthereumSettlement.BridgeDecoder
import EthereumSettlement.BridgeGuest
import EthereumSettlement.EthereumZekoBridge
import EthereumSettlement.ZekoAssetRegistry
import EthereumSettlement.BridgeSystem
import EthereumSettlement.StepEffects
import EthereumSettlement.SettlementRuns
import EthereumSettlement.InnerActionRanges
import EthereumSettlement.RegistryContinuity
import EthereumSettlement.RunInvariants
import EthereumSettlement.EscrowAccounting
import EthereumSettlement.SettledReceipts
import EthereumSettlement.ClaimSoundness
import EthereumSettlement.PayoutOnce
import EthereumSettlement.ThirdPartyClaims
import EthereumSettlement.ReferenceHashes
import EthereumSettlement.ReferenceDeployment
import EthereumSettlement.InnerActionProofs
import EthereumSettlement.DepositChain
import EthereumSettlement.BridgedDeposits
import EthereumSettlement.RecordCommitments
import EthereumSettlement.OuterActionChain
import EthereumSettlement.DepositLiveness
import EthereumSettlement.ReceiptBinding
import EthereumSettlement.PicklesProof
import EthereumSettlement.PicklesDeferred
import EthereumSettlement.PicklesVerifier
import EthereumSettlement.AccumulatorBinding
import EthereumSettlement.ExpansionBinding
import EthereumSettlement.AssetActivations
import EthereumSettlement.WithdrawalPreimages
import EthereumSettlement.RegistryInvariant
import EthereumSettlement.PendingProposals
import EthereumSettlement.InnerActionRows
import EthereumSettlement.GatewayTables
import EthereumSettlement.OuterWriter
import EthereumSettlement.ProofJobs
import EthereumSettlement.ConfirmedReceipts
import EthereumSettlement.GatewayIndexer
import EthereumSettlement.GatewayRuns
import EthereumSettlement.GatewayChanges
import EthereumSettlement.FencingTokens
import EthereumSettlement.AttemptFencing
import EthereumSettlement.ProofPurchases
import EthereumSettlement.JobSoundness
import EthereumSettlement.ObservedOutcomes
import EthereumSettlement.AmbiguousSubmissions
import EthereumSettlement.OuterWriterExclusion
import EthereumSettlement.RollbackEffects
import EthereumSettlement.UndoSnapshots
import EthereumSettlement.VirtualAccounts
import EthereumSettlement.RollbackRestores
import EthereumSettlement.ActionStateWindow
import EthereumSettlement.ChainRecords
import EthereumSettlement.ReceiptApplicability
import EthereumSettlement.ChainIndexing
import EthereumSettlement.IndexerConsistency
import EthereumSettlement.RegistryAppends
import EthereumSettlement.ArchiveListing
import EthereumSettlement.SingleAppends
import EthereumSettlement.ProposalUndo
import EthereumSettlement.DepositBatching
import EthereumSettlement.WithdrawalParsing
import EthereumSettlement.BatchProofs
import EthereumSettlement.PreflightAgreement
import EthereumSettlement.LabelledForests
import EthereumSettlement.CallForests
import EthereumSettlement.FixedBytesText
import EthereumSettlement.StatementBinding
import EthereumSettlement.WrapPublicInput
import EthereumSettlement.WalletUpdates
import EthereumSettlement.IdempotentReplay
import EthereumSettlement.SkeletonScalars
import EthereumSettlement.VerifierBlob
import EthereumSettlement.DepositLogJoin
import EthereumSettlement.KeysetPages
import EthereumSettlement.ExplorerPages
import EthereumSettlement.RadixConversion
import EthereumSettlement.Base58Addresses
import EthereumSettlement.AmountParsing
import EthereumSettlement.CanonicalJson
import EthereumSettlement.ApprovalHashes
import EthereumSettlement.GreedyPacking
import EthereumSettlement.PackedInputs
import EthereumSettlement.IndexerMoves
import EthereumSettlement.JsStrings
import EthereumSettlement.JsonTexts
import EthereumSettlement.KeyedTables
import EthereumSettlement.PacedGates
import EthereumSettlement.PrefixCodes
import EthereumSettlement.RpcPacing
import EthereumSettlement.WorkerMoves
import EthereumSettlement.EventReplay
import EthereumSettlement.RoleGovernance
import EthereumSettlement.ServedClaims
import EthereumSettlement.ListedClaims
import EthereumSettlement.UpsertedTables
import EthereumSettlement.DepositTable
import EthereumSettlement.QueuedBatches
import EthereumSettlement.SettlementPreflight
import EthereumSettlement.OpenZeppelin
import EthereumSettlement.CivilDates
import EthereumSettlement.HexTexts
