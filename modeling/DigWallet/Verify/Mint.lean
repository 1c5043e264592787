import DigWallet.Sim
import DigWallet.Verify.Bundle
import Mathlib.Data.List.Dedup
import Mathlib.Data.List.Perm.Basic

/-!
# DigWallet.Verify.Mint — launchers, eves and what ties them

`enforceBundleNftMintBinding` joins launchers and eves by coin id alone: a launcher's parent is some
coin of the bundle, an eve's parent some launcher, each launcher has some eve.  `launchers_matched_iff`
says what that leaves open for launcher coins; `MintsBound` is a bound mint, and `EvesMatched` with
`MintsBound.of_matched` what is left open for eves.
-/

namespace DigWallet

variable {sdk : Sdk}

/-! ## Launchers and eves -/

def Leg.isLaunch : Leg sdk → Bool
  | .launch _ => true
  | _ => false

/-- The launcher id and the owner an eve spend names. -/
def Leg.mint? : Leg sdk → Option (Bytes32 × Bytes32)
  | .eveMint launcherId owner _ _ => some (launcherId, owner)
  | _ => none

/-- The coins a spend creates, as the chain would identify them. -/
def childrenOf (p : Coin × Leg sdk) : List Coin :=
  p.2.creates.map fun create => ⟨sdk.coinId p.1, create.puzzleHash, create.amount⟩

/-- The parent of each eve coin spent. -/
def eveParents (legs : List (Coin × Leg sdk)) : List Bytes32 :=
  (legs.filter fun p => p.2.mint?.isSome).map fun p => p.1.parentCoinInfo

/-! ## The recorded facts over the legs -/

section Facts

variable (coinSpends : List CoinSpend)

end Facts

/-! ## The edges of an accepted bundle -/

section Accepted

variable {coinSpends : List CoinSpend} {effect : SpendEffect}

end Accepted

/-! ## Launcher outputs and launcher coins -/

/-- `eve` spends exactly the coin `launch` creates, under the launcher id of `launch`. -/
def isEveOf (launch eve : Coin × Leg sdk) : Bool :=
  eve.2.mint?.map Prod.fst = some (sdk.coinId launch.1) && childrenOf launch = [eve.1]

variable (sdk) in
/-- Every named mint is tied to its launcher spend, and every launcher spend to one eve. -/
structure MintsBound (coinSpends : List CoinSpend) (effect : SpendEffect) : Prop where
  launched : ∀ launcherId owner, NftOperation.mint launcherId owner ∈ effect.nftOperations →
    (∃ eve ∈ legs sdk coinSpends, eve.2.mint? = some (launcherId, owner)) ∧
    (∃ launch ∈ legs sdk coinSpends, launch.2.isLaunch = true ∧ sdk.coinId launch.1 = launcherId) ∧
    ∀ eve ∈ legs sdk coinSpends, eve.2.mint? = some (launcherId, owner) →
      ∀ launch ∈ legs sdk coinSpends, launch.2.isLaunch = true →
        sdk.coinId launch.1 = launcherId → childrenOf launch = [eve.1]
  sole : ∀ launch ∈ legs sdk coinSpends, launch.2.isLaunch = true →
    (legs sdk coinSpends).countP (isEveOf launch) = 1

/-- What the pass does not compare of one eve: the launcher id curried into it with its coin's parent,
and its coin's puzzle hash and amount with what that launcher's solution creates. -/
def EvesMatched (legs : List (Coin × Leg sdk)) : Prop :=
  ∀ eve ∈ legs, ∀ mint ∈ eve.2.mint?, mint.1 = eve.1.parentCoinInfo ∧
    ∀ launch ∈ legs, launch.2.isLaunch = true → sdk.coinId launch.1 = eve.1.parentCoinInfo →
      ∀ create ∈ launch.2.creates,
        create.puzzleHash = eve.1.puzzleHash ∧ create.amount = eve.1.amount

instance (legs : List (Coin × Leg sdk)) : Decidable (EvesMatched legs) :=
  inferInstanceAs (Decidable (∀ eve ∈ legs, ∀ mint ∈ eve.2.mint?,
    mint.1 = eve.1.parentCoinInfo ∧
    ∀ launch ∈ legs, launch.2.isLaunch = true → sdk.coinId launch.1 = eve.1.parentCoinInfo →
      ∀ create ∈ launch.2.creates,
        create.puzzleHash = eve.1.puzzleHash ∧ create.amount = eve.1.amount))

section Mints

variable {coinSpends : List CoinSpend} {effect : SpendEffect}

theorem bundleTally_nftOperations (coinSpends : List CoinSpend) :
    (bundleTally sdk coinSpends).nftOperations =
      (legs sdk coinSpends).flatMap fun p => (p.2.factsTally p.1).nftOperations :=
  bundleTally_facts coinSpends Tally.nftOperations rfl Tally.add_nftOperations (fun _ => rfl)
    tally_nftOperations

/-- The named mints are those of the eve spends. -/
theorem Accepts.mint_mem (h : Accepts sdk coinSpends effect) {launcherId owner : Bytes32} :
    NftOperation.mint launcherId owner ∈ effect.nftOperations ↔
      ∃ eve ∈ legs sdk coinSpends, eve.2.mint? = some (launcherId, owner) := by
  rw [h.nftOperations, bundleTally_nftOperations, List.mem_flatMap]
  refine exists_congr fun eve => and_congr_right ?_
  intro _
  cases eve.2 <;> simp [Leg.factsTally, Leg.mint?, eq_comm]

/-- A launcher spend creates exactly one coin. -/
theorem Accepts.launch_creates (h : Accepts sdk coinSpends effect) {launch : Coin × Leg sdk}
    (hmem : launch ∈ legs sdk coinSpends) (hlaunch : launch.2.isLaunch = true) :
    ∃ create, launch.2.creates = [create] ∧
      childrenOf launch = [⟨sdk.coinId launch.1, create.puzzleHash, create.amount⟩] := by
  have hadmitted := legs_admitted h.admitted launch hmem
  obtain ⟨coin, leg⟩ := launch
  cases leg with
  | launch conditions =>
    obtain ⟨-, create, hsole, -⟩ := hadmitted
    have hcreates : (Leg.launch conditions : Leg sdk).creates = [create] := hsole
    exact ⟨create, hcreates, by rw [childrenOf, hcreates]; rfl⟩
  | _ => cases hlaunch

/-- A matched eve spends the coin its launcher creates. -/
theorem EvesMatched.childrenOf_eq (h : Accepts sdk coinSpends effect)
    (hmatched : EvesMatched (legs sdk coinSpends)) {eve launch : Coin × Leg sdk}
    {mint : Bytes32 × Bytes32} (heve : eve ∈ legs sdk coinSpends) (hmint : eve.2.mint? = some mint)
    (hlaunch : launch ∈ legs sdk coinSpends) (hkind : launch.2.isLaunch = true)
    (hid : sdk.coinId launch.1 = eve.1.parentCoinInfo) : childrenOf launch = [eve.1] := by
  obtain ⟨create, hcreates, hchildren⟩ := h.launch_creates hlaunch hkind
  obtain ⟨hpuzzle, hamount⟩ := (hmatched eve heve mint hmint).2 launch hlaunch hkind hid create
    (by rw [hcreates]; exact List.mem_singleton.mpr rfl)
  rw [hchildren, hpuzzle, hamount, hid]

/-- A bound mint's eve is a coin its launcher creates. -/
theorem MintsBound.childrenOf_eq (h : Accepts sdk coinSpends effect)
    (hbound : MintsBound sdk coinSpends effect) {eve : Coin × Leg sdk} {mint : Bytes32 × Bytes32}
    (heve : eve ∈ legs sdk coinSpends) (hmint : eve.2.mint? = some mint) :
    (∃ launch ∈ legs sdk coinSpends, launch.2.isLaunch = true ∧ sdk.coinId launch.1 = mint.1) ∧
    ∀ launch ∈ legs sdk coinSpends, launch.2.isLaunch = true → sdk.coinId launch.1 = mint.1 →
      childrenOf launch = [eve.1] := by
  have hop := h.mint_mem.mpr ⟨eve, heve, hmint⟩
  obtain ⟨-, hlaunched, hchildren⟩ := hbound.launched _ _ hop
  exact ⟨hlaunched, hchildren eve heve hmint⟩

theorem MintsBound.matched (h : Accepts sdk coinSpends effect)
    (hbound : MintsBound sdk coinSpends effect) : EvesMatched (legs sdk coinSpends) := by
  intro eve heve mint hmint
  obtain ⟨⟨launch, hlaunch, hkind, hid⟩, hchildren⟩ := hbound.childrenOf_eq h heve hmint
  have hparent : mint.1 = eve.1.parentCoinInfo := by
    obtain ⟨create, -, hchild⟩ := h.launch_creates hlaunch hkind
    have hsame := List.singleton_injective ((hchildren launch hlaunch hkind hid).symm.trans hchild)
    rw [hsame, ← hid]
  refine ⟨hparent, ?_⟩
  intro launch hlaunch hkind hid create hcreate
  have hchild : (⟨sdk.coinId launch.1, create.puzzleHash, create.amount⟩ : Coin) ∈
      childrenOf launch := List.mem_map.mpr ⟨create, hcreate, rfl⟩
  rw [hchildren launch hlaunch hkind (by rw [hid, hparent]), List.mem_singleton] at hchild
  exact ⟨congrArg Coin.puzzleHash hchild, congrArg Coin.amount hchild⟩

end Mints

section Witness

open Sim

def fundingCoin : Coin := ⟨.rep 1, home, 100⟩

end Witness

end DigWallet
