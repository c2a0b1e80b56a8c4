import Igra.Rust.Outcome
import Igra.Rust.Integer
import Igra.Rust.BinarySearch
import Igra.Rust.Float64
import Igra.Rust.Float64Quotient
import Igra.Rust.Float64Rounding
import Igra.Rust.Float64Ceiling
import Igra.Rust.Bytes
import Igra.Rust.HashMap
import Igra.Runs
import Igra.Spending
import Igra.Quorum
import Igra.Weights
import Igra.Requests
import Igra.Tables
import Igra.Kaspa.Transaction
import Igra.Kaswallet.Model
import Igra.Kaswallet.UtxoManager
import Igra.Kaswallet.AddressManager
import Igra.Kaswallet.UtxoStore
import Igra.Kaspa.Devnet
import Igra.Kaswallet.GetBalance
import Igra.Kaswallet.StoreRuns
import Igra.Kaswallet.MempoolReplay
import Igra.Kaswallet.SpentOutpoints
import Igra.Kaswallet.Proto
import Igra.Kaswallet.ProtoConvert
import Igra.Kaswallet.TransactionGenerator
import Igra.Kaswallet.UtxoSelection
import Igra.Kaswallet.AutoCompound
import Igra.Kaswallet.Compounding
import Igra.Kaswallet.Splits
import Igra.Kaswallet.MergeValue
import Igra.Kaswallet.FeeCap
import Igra.Kaswallet.PaymentExactness
import Igra.Kaswallet.AddressFreshness
import Igra.Kaswallet.SyncManager
import Igra.Kaswallet.RoundDraws
import Igra.Kaswallet.FeesWithinCap
import Igra.Kaswallet.BatchSpends
import Igra.Kaswallet.CompoundingRounds
import Igra.Kaswallet.CompoundingEnds
import Igra.RpcProvider.WalletCodec
import Igra.RpcProvider.Lane
import Igra.RpcProvider.Mining
import Igra.Kaswallet.Signing
import Igra.Kaswallet.Service
import Igra.RpcProvider.WalletCaller
import Igra.RpcProvider.LaneSafety
import Igra.RpcProvider.PayloadIntegrity
import Igra.RpcProvider.Transaction
import Igra.Calf.Committee
import Igra.Calf.Certificate
import Igra.Calf.Dag
import Igra.Calf.DagProcessor
import Igra.Calf.CertificateChecks
import Igra.Calf.DagRuns
import Igra.Calf.DeliveryOrder
import Igra.Calf.HeaderElector
import Igra.Calf.ContentAddressing
import Igra.Calf.ElectorAgreement
import Igra.Calf.SyncTracker
import Igra.Calf.SyncStatus
import Igra.Degov.TokenHandler
import Igra.Degov.Ledgers
import Igra.Degov.DelegatorCounts
import Igra.Degov.VotesToken
import Igra.Degov.TokenHistory
import Igra.Degov.SingleCalls
import Igra.Degov.AttestationHandler
import Igra.Degov.StakingHistory
import Igra.Degov.TwoTokens
import Igra.Primality
import Igra.PrimeField
import Igra.Circom.ScalarField
import Igra.Circom.Goldilocks
import Igra.Circom.Constants
import Igra.Circom.Permutation
import Igra.Circom.BitArrays
import Igra.Circom.Layers
import Igra.Circom.Completeness
import Igra.Circom.Soundness
import Igra.Circom.Digests
import Igra.Evm.Bytes
import Igra.Evm.Machine
import Igra.Eip4788.Contracts
import Igra.Eip4788.Paths
import Igra.Eip4788.History
import Igra.Eip4788.Refinement
import Igra.BreadthFirst
import Igra.GraphInspector.Database
import Igra.GraphInspector.Processing
import Igra.GraphInspector.ChainColours
import Igra.GraphInspector.DependencyOrder
import Igra.Json
import Igra.Kaswallet.Broadcast
import Igra.Kaswallet.SelectionOutcome
import Igra.Kaswallet.RelayMass
import Igra.Kaswallet.FeeSufficiency
import Igra.Kaswallet.Subtractions
import Igra.Kaswallet.StatusMapping
import Igra.RpcProvider.AcceptedTransactions
import Igra.RpcProvider.ExhaustionRetry
import Igra.RpcProvider.GasPrice
import Igra.RpcProvider.MiningSearch
import Igra.RpcProvider.Routing
import Igra.JsonPaths
import Igra.RpcProvider.FeeFlooring
import Igra.Kaswallet.Args
import Igra.RpcProvider.LaneConfig
import Igra.Calf.Network
import Igra.Calf.Fetching
import Igra.Calf.VoteCollection
import Igra.Calf.BatchMaker
import Igra.Calf.Fetcher
import Igra.Calf.Worker
import Igra.Calf.AcknowledgmentQuorum
import Igra.Calf.DataAvailability
import Igra.GraphInspector.Layout
import Igra.GraphInspector.ResyncCoverage
import Igra.Kaswallet.SplitMasses
import Igra.Kaswallet.BatchSigning
import Igra.Calf.CircularBuffer
import Igra.Kaswallet.EncryptedMnemonic
import Igra.Kaswallet.Cosigners
import Igra.GraphInspector.BlockCache
import Igra.GraphInspector.CacheCoherence
import Igra.Degov.GovernorHandler
import Igra.Degov.VoteTallies
import Igra.RpcProvider.ConnectionAnswers
import Igra.RpcProvider.InflightLimit
import Igra.Calf.AnnouncedBatches
import Igra.Calf.CausalHistory
import Igra.Calf.CertifiedAvailability
import Igra.Calf.HonestNetwork
import Igra.Mailbox
import Igra.RpcProvider.PostAnswers
import Igra.Kaswallet.TrackedSpends
import Igra.Eip4788.Assembler
