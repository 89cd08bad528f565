import Privachain.Foundation.MerkleTree
import Privachain.Foundation.JavaScript
import Privachain.Circuit.Field
import Privachain.Circuit.Components
import Privachain.Circuit.MerkleProof
import Privachain.Circuit.MerkleSoundness
import Privachain.Circuit.Transaction
import Privachain.Circuit.TransactionSoundness
import Privachain.Foundation.MerklePath
import Privachain.Circuit.HonestSpend
import Privachain.Client.Prover
import Privachain.Client.CircuitAdapter
import Privachain.Client.AdapterSatisfaction
import Privachain.Client.AdapterCompleteness
import Privachain.Client.AdapterSafety
import Privachain.Foundation.Runs
import Privachain.Foundation.StatefulCall
import Privachain.Pallet.Defs
import Privachain.Pallet.Calls
import Privachain.Pallet.Acceptance
import Privachain.Pallet.Runs
import Privachain.Pallet.LeafIndices
import Privachain.Foundation.Registry
import Privachain.Pallet.Nullifiers
import Privachain.Pallet.Accounting
import Privachain.Pallet.Atomicity
import Privachain.Client.Notes
import Privachain.Client.CommitmentBinding
import Privachain.Client.CoinSelection
import Privachain.Client.NoteRuns
import Privachain.Client.Submission
import Privachain.Client.Deposit
import Privachain.Client.InputValidation
import Privachain.Client.InputShape
import Privachain.Client.PrivateTransfer
import Privachain.Client.TransferOutcome
import Privachain.Client.ConcurrentTransfers
import Privachain.Client.Authentication
import Privachain.Client.Lock
import Privachain.Client.UtilCrypto
import Privachain.Client.StealthAddress
import Privachain.Foundation.ReadModifyWrite
import Privachain.Client.ConcurrentStores
import Privachain.Foundation.JsonNumbers
import Privachain.Foundation.Json
import Privachain.Foundation.JsonValues
import Privachain.Foundation.Objects
import Privachain.Foundation.StoredItem
import Privachain.Client.TransferProver
import Privachain.Client.MerkleVerification
import Privachain.Client.TransferSoundness
import Privachain.Foundation.Blocks
import Privachain.Client.Encodings
import Privachain.Client.NoteEncryption
import Privachain.Client.NoteTexts
import Privachain.Client.NoteHistory
import Privachain.Client.NoteBalances
import Privachain.Client.ImportedWallets
import Privachain.Client.DatabaseTexts
import Privachain.Client.Settings
import Privachain.Foundation.PolynomialHash
import Privachain.Client.Backups
import Privachain.Client.PinHash
import Privachain.Client.PinSetup
import Privachain.Client.PinChanges
import Privachain.Client.DatabaseRecords
import Privachain.Client.PrivateBalance
import Privachain.Client.BalanceTexts
import Privachain.Client.BalanceRefresh
import Privachain.Foundation.Numbers
import Privachain.Client.AutoLock
import Privachain.Client.Session
import Privachain.Foundation.Batches
import Privachain.Client.ChainScan
import Privachain.Client.ScanIndices
import Privachain.Client.ChainTransactions
import Privachain.Client.ConnectionHook
import Privachain.Client.EventSubscriptions
import Privachain.Client.IndexerFallback
import Privachain.Client.TransactionHook
import Privachain.Client.WalletKeys
import Privachain.Client.TransactionStore
import Privachain.Client.ConnectionSingleton
import Privachain.Foundation.MachineWords
import Privachain.Foundation.Montgomery
import Privachain.Generator.RawField
import Privachain.Generator.RawAddition
import Privachain.Generator.RawMultiplication
import Privachain.Generator.Element
import Privachain.Generator.Comparison
import Privachain.Foundation.CountingLoops
import Privachain.Generator.Program
import Privachain.Generator.PathSemantics
import Privachain.Generator.TransactionSemantics
import Privachain.Generator.PoseidonProgram
import Privachain.Generator.PoseidonSemantics
import Privachain.Generator.GeneratedWitness
import Privachain.Generator.BigIntegers
import Privachain.Generator.RawFr
import Privachain.Foundation.WriteOnce
import Privachain.Foundation.OpenAddressing
import Privachain.Generator.SignalTable
import Privachain.Generator.InputLoading
import Privachain.Generator.LoadingSemantics
import Privachain.Generator.InputDocument
import Privachain.Foundation.LittleEndian
import Privachain.Generator.WitnessFile
import Privachain.Client.WitnessCalculator
