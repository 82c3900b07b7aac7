import HomeRest.Program
import HomeRest.Interleaving
import HomeRest.UnlockedTransfer
import HomeRest.ReadModifyWrite
import HomeRest.SkipListSet
import HomeRest.HalfUp
import HomeRest.Entity
import HomeRest.Store
import HomeRest.Transfer
import HomeRest.Process
import HomeRest.TransferSteps
import HomeRest.TransferRun
import HomeRest.Atomicity
import HomeRest.ProcessRun
import HomeRest.Rejection
import HomeRest.Outcome
import HomeRest.Ledger
import HomeRest.Conservation
import HomeRest.StorageRounding
import HomeRest.CreditDebit
import HomeRest.NonNegative
import HomeRest.ProcessFollows
import HomeRest.InProcess
import HomeRest.Holdings
import HomeRest.TransferMoves
import HomeRest.Serializability
import HomeRest.CutOff
import HomeRest.Listing
import HomeRest.Reordering
import HomeRest.Clearing
import HomeRest.NestedLoopJoin
import HomeRest.Transactions
import HomeRest.TransactionListing
import HomeRest.TestProfile
import HomeRest.Schema
import HomeRest.TransferSpec
import HomeRest.CurrencyGuard
import HomeRest.SelfTransfer
import HomeRest.Writes
import HomeRest.Lookups
import HomeRest.Beans
import HomeRest.HexGroups
import HomeRest.Setters
import HomeRest.Jackson
import HomeRest.Rendering
import HomeRest.RoundTrip
import HomeRest.Footprints
import HomeRest.CallSteps
import HomeRest.Independence
import HomeRest.Turns
import HomeRest.Progress
import HomeRest.DecimalText
import HomeRest.Servlets
import HomeRest.Requests
import HomeRest.Pages
import HomeRest.Accounting
import HomeRest.Settlement
import HomeRest.WrittenOnce
import HomeRest.Stuck
import HomeRest.Profiles
import HomeRest.Books
import HomeRest.Together
import HomeRest.RelyGuarantee
import HomeRest.Sessions
