import DigWallet.Verify.Analyze
import DigWallet.Lib.Checked
import DigWallet.Verify.Posting
import DigWallet.Verify.Arms
import DigWallet.Verify.Run
import DigWallet.Signer.Keys
import DigWallet.Verify.Summary
import DigWallet.Signer.Gate
import DigWallet.Signer.Sign
import DigWallet.Verify.Bundle
import DigWallet.Sim
import DigWallet.Verify.Conservation
import DigWallet.Signer.Review
import DigWallet.Signer.SignedValue
import DigWallet.Verify.Mint
import DigWallet.Verify.TwoRuns
import DigWallet.Verify.Singletons
import DigWallet.Lib.Ties
import DigWallet.Verify.Order
import DigWallet.Signer.Order
import DigWallet.Signer.Signatures
import DigWallet.Verify.Owners
import DigWallet.Lib.Text
import DigWallet.Signer.Screen
import DigWallet.Engine.Events
import DigWallet.Lib.Runs
import DigWallet.Engine.Lifetimes
import DigWallet.Engine.Publishers
import DigWallet.Engine.Hints
import DigWallet.Engine.State
import DigWallet.Lib.Script
import DigWallet.Engine.Persist
import DigWallet.Engine.Parity
import DigWallet.Engine.Atomicity
import DigWallet.Engine.Steps
import DigWallet.Engine.Announced
import DigWallet.Engine.Interleaving
import DigWallet.Engine.Assets
import DigWallet.Engine.CatBalances
import DigWallet.Engine.Selection
import DigWallet.Lib.Faults
import DigWallet.Engine.Build
import DigWallet.Engine.BuildExtended
import DigWallet.Engine.Drivers
import DigWallet.Engine.Plans
import DigWallet.SimBuild
import DigWallet.SimLayered
import DigWallet.Engine.Accounts
import DigWallet.Engine.Balances
import DigWallet.Engine.PlanLegs
import DigWallet.Engine.Signable
import DigWallet.Engine.Collisions
import DigWallet.Engine.NetworkBook
import DigWallet.Engine.Peak
import DigWallet.Engine.Replayed
import DigWallet.Signer.Identity
import DigWallet.Verify.Reachability
import DigWallet.Engine.SelectionSpec
import DigWallet.Engine.SingleLeg
import DigWallet.Engine.PaysRequest
import DigWallet.Engine.CoinCap
import DigWallet.Engine.ExactTotals
import DigWallet.Engine.Split
import DigWallet.Verify.MeltSearch
import DigWallet.Engine.Discovery
import DigWallet.Engine.HintKeys
import DigWallet.Engine.TwoLogs
import DigWallet.Engine.Fallback
import DigWallet.Engine.OfferState
import DigWallet.Engine.OfferSurface
import DigWallet.Engine.OfferedSide
import DigWallet.Engine.Reorgs
import DigWallet.Engine.Confirmed
import DigWallet.Engine.Consolidation
import DigWallet.Engine.Following
import DigWallet.Engine.PaymentHints
import DigWallet.Engine.BuildOffer
import DigWallet.Engine.Mirrored
import DigWallet.Engine.OfferFlows
import DigWallet.Engine.TakerFunds
import DigWallet.Engine.Migrations
import DigWallet.Engine.OptionCustody
import DigWallet.Engine.Isolation
import DigWallet.Signer.Transport
import DigWallet.Engine.HonestTips
