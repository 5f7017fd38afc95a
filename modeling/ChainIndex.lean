import ChainIndex.Denom.Update
import ChainIndex.Main
import ChainIndex.Record.Config
import ChainIndex.Record.Database
import ChainIndex.Rehearsal.Faults
import ChainIndex.Rehearsal.Handlers
import ChainIndex.Rehearsal.Web
import ChainIndex.Proofs.Batching
import ChainIndex.Proofs.CoinLists
import ChainIndex.Proofs.CompleteBatch
import ChainIndex.Proofs.ConservedTotals
import ChainIndex.Proofs.DenomUpdate
import ChainIndex.Proofs.Determinism
import ChainIndex.Proofs.Dispatch
import ChainIndex.Proofs.EventOutcome
import ChainIndex.Proofs.FailureHistory
import ChainIndex.Proofs.FeeAccounts
import ChainIndex.Proofs.FetchOutcome
import ChainIndex.Proofs.FilterVerdict
import ChainIndex.Proofs.FinalizeMove
import ChainIndex.Proofs.Interchange
import ChainIndex.Proofs.KeptMessages
import ChainIndex.Proofs.KeySpelling
import ChainIndex.Proofs.KnownDenoms
import ChainIndex.Proofs.LegacyAttributes
import ChainIndex.Proofs.Listed
import ChainIndex.Proofs.MessageEvents
import ChainIndex.Proofs.NodeSpelling
import ChainIndex.Proofs.NothingLost
import ChainIndex.Proofs.PageCalls
import ChainIndex.Proofs.PathsAgree
import ChainIndex.Proofs.PayloadForms
import ChainIndex.Proofs.PushedOnce
import ChainIndex.Proofs.Redaction
import ChainIndex.Proofs.RefusedRegistrations
import ChainIndex.Proofs.RetryBudget
import ChainIndex.Proofs.TipScan
import ChainIndex.Proofs.TxSplit
import ChainIndex.Proofs.UnsuccessfulAnswers
import ChainIndex.Proofs.WholeUnits
import ChainIndex.Proofs.WriteOrder
