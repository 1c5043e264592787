import DigWallet.Engine.Collisions
import DigWallet.Engine.PaysRequest

/-!
# DigWallet.Engine.Split — how a split ends

`split_exact`: the amounts of a split are exact or too few, and the build creates exactly the coins
asked for, is refused for want of funds, or passes on why the provider or the largest coin fails it.
-/

namespace DigWallet

open Faults Totals

/-- Exactly `parts` positive amounts, strictly increasing, with nothing lost of `divisible`. -/
structure SplitAmounts (divisible parts : UInt64) (amounts : List UInt64) : Prop where
  count : amounts.length = parts.toNat
  positive : ∀ amount ∈ amounts, 1 ≤ amount
  increasing : amounts.Pairwise (· < ·)
  exact_total : total amounts = divisible.toNat

section Split

variable {sdk : Sdk} {drivers : SpendDrivers} {wrap : CatInfo → Bytes32 → Bytes32}
  {overflowChecks : Bool} {builder : SdkSpendBuilder} {r : SplitXchRequest}

/-! ## The amounts -/

theorem splitAmounts_of_staggered {divisible parts : UInt64} {amounts : List UInt64}
    (h : staggeredAmounts overflowChecks divisible parts = some (some amounts)) :
    SplitAmounts divisible parts amounts where
  count := length_of_staggeredAmounts h
  positive := one_le_of_staggeredAmounts h
  increasing := pairwise_of_staggeredAmounts h
  exact_total := total_of_staggeredAmounts h

variable (overflowChecks) in
/-- `None` below `parts + parts * (parts - 1) / 2`, else the amounts. -/
def StaggersExactly (divisible parts : UInt64) : Prop :=
  (staggeredAmounts overflowChecks divisible parts = some none ↔
    divisible.toNat < parts.toNat + parts.toNat * (parts.toNat - 1) / 2) ∧
  (parts.toNat + parts.toNat * (parts.toNat - 1) / 2 ≤ divisible.toNat →
    ∃ amounts, staggeredAmounts overflowChecks divisible parts = some (some amounts) ∧
      SplitAmounts divisible parts amounts)

variable (overflowChecks) in
theorem staggersExactly (divisible : UInt64) {parts : UInt64} (hparts : 2 ≤ parts.toNat)
    (hlt : parts.toNat < 2 ^ 32) : StaggersExactly overflowChecks divisible parts := by
  have hone : 1 ≤ parts.toNat := by omega
  obtain ⟨hnone, hbelow⟩ | ⟨amounts, hamounts, hcovers⟩ :=
    @staggeredAmounts_cases overflowChecks divisible parts hone hlt
  · refine ⟨iff_of_true hnone hbelow, fun hcovers => ?_⟩
    omega
  · refine ⟨iff_of_false (fun hnone => ?_) (by omega), fun _ => ?_⟩
    · cases hnone.symm.trans hamounts
    · exact ⟨amounts, hamounts, splitAmounts_of_staggered hamounts⟩

theorem nodup_pairs_of_staggered {divisible parts : UInt64} {amounts : List UInt64}
    (h : staggeredAmounts overflowChecks divisible parts = some (some amounts)) (changePh : Bytes32) :
    (amounts.map fun amount => (changePh, amount)).Nodup :=
  (nodup_of_staggeredAmounts h).map fun _ _ heq => congrArg Prod.snd heq

/-- The check of the created ids never fires on staggered amounts. -/
theorem ensureDistinct_of_staggered {divisible parts : UInt64} {amounts : List UInt64}
    (h : staggeredAmounts overflowChecks divisible parts = some (some amounts)) (parent : Coin)
    (changePh : Bytes32)
    (hids : sdk.CoinIdsApart (childrenAt sdk parent (amounts.map fun amount => (changePh, amount)))) :
    ensureDistinctCreatedCoins sdk (sdk.coinId parent)
      (amounts.map fun amount => (changePh, amount)) = .ok () := by
  refine ensureDistinctCreatedCoins_eq_ok.mpr ((nodup_ids_iff hids).mpr ?_)
  exact nodup_childrenAt.mpr (nodup_pairs_of_staggered h changePh)

/-! ## The end of the build -/

/-- The largest coin becomes `parts` coins at the change hash, with distinct ids, less the fee. -/
structure SplitCoins (sdk : Sdk) (builder : SdkSpendBuilder) (r : SplitXchRequest) (largest : Coin)
    (changePh : Bytes32) (unsigned : UnsignedSpend) (created : List Coin) : Prop where
  spent : unsigned.coins = [largest]
  made : createdCoinObjects sdk unsigned.coinSpends = .ok created
  count : created.length = r.parts.toNat
  home : ∀ coin ∈ created, coin.puzzleHash = changePh
  distinct : (created.map sdk.coinId).Nodup
  conserved : total (coinAmounts created) + r.fee.mojos.toNat = largest.amount.toNat

variable (sdk drivers builder r) in
/-- The largest coin cannot be spent: the wallet has no key for it, or the drivers refuse its spend
or the signatures it requires. -/
def CannotSpend (largest : Coin) (e : WalletError) : Prop :=
  e.code = .spendValidationFailed ∧ ∃ conditions,
    builder.spendStandard drivers [] largest conditions = .error e ∨
    ∃ coinSpends, builder.spendStandard drivers [] largest conditions = .ok coinSpends ∧
      builder.finishSelfDirected sdk drivers coinSpends r.fee.mojos = .error e

variable (sdk drivers overflowChecks builder r) in
/-- The build creates the coins, or returns the error of the provider, of the funds or of the spend.
It does not panic. -/
inductive SplitEnds : Prop
  | split {changePh coins largest unsigned created}
      (hchangePh : builder.inputs.changePuzzleHash r.identity = .ok changePh)
      (hcoins : builder.inputs.spendableXch r.identity = .ok coins)
      (hlargest : largestSpendable sdk coins = .ok largest)
      (hbuilt : builder.buildSplitXch sdk drivers overflowChecks r = .ok unsigned)
      (hmade : SplitCoins sdk builder r largest changePh unsigned created)
  | provider {e} (hbuilt : builder.buildSplitXch sdk drivers overflowChecks r = .error (.refused e))
      (he : builder.inputs.changePuzzleHash r.identity = .error e ∨
        builder.inputs.spendableXch r.identity = .error e)
  | funds {e} (hbuilt : builder.buildSplitXch sdk drivers overflowChecks r = .error (.refused e))
      (he : e.code = .insufficientFunds)
  | spend {coins largest e}
      (hcoins : builder.inputs.spendableXch r.identity = .ok coins)
      (hlargest : largestSpendable sdk coins = .ok largest)
      (hbuilt : builder.buildSplitXch sdk drivers overflowChecks r = .error (.refused e))
      (he : CannotSpend sdk drivers builder r largest e)

theorem not_few (hparts : 2 ≤ r.parts.toNat) : ¬ r.parts.toUInt64 < 2 := by
  rw [UInt64.not_lt, UInt64.le_iff_toNat_le, UInt32.toNat_toUInt64]
  exact hparts

theorem insufficient_of_largestSpendable {coins : List Coin} {e : WalletError}
    (h : largestSpendable sdk coins = .error e) : e.code = .insufficientFunds := by
  cases coins with
  | nil =>
    cases h
    rfl
  | cons coin coins => cases h

theorem toNat_add_of_checkedSub {a b difference : UInt64} (h : checkedSub a b = some difference) :
    difference.toNat + b.toNat = a.toNat := by
  unfold checkedSub at h
  split_ifs at h with hle
  cases h
  exact toNat_sub_add hle

theorem assertConserved_of_eq {inputs outputs fee : UInt64}
    (h : outputs.toNat + fee.toNat = inputs.toNat) : assertConserved inputs outputs fee = .ok () := by
  have hlt := inputs.toNat_lt
  have hadd : checkedAdd outputs fee = some (outputs + fee) := if_pos (h ▸ hlt)
  have heq : inputs = outputs + fee := UInt64.toNat_inj.mp (by
    rw [toNat_add_of_lt (h ▸ hlt)]
    exact h.symm)
  unfold assertConserved
  rw [hadd]
  exact if_neg fun hne => hne heq

variable (drivers) in
/-- The plan of a split, as far as its amounts. -/
theorem splitPlan_of_amounts (hparts : 2 ≤ r.parts.toNat) {changePh : Bytes32} {coins : List Coin}
    {largest : Coin} {divisible : UInt64} {amounts : List UInt64}
    (hchangePh : builder.inputs.changePuzzleHash r.identity = .ok changePh)
    (hcoins : builder.inputs.spendableXch r.identity = .ok coins)
    (hlargest : largestSpendable sdk coins = .ok largest)
    (hdivisible : checkedSub largest.amount r.fee.mojos = some divisible)
    (hamounts : staggeredAmounts overflowChecks divisible r.parts.toUInt64 = some (some amounts)) :
    builder.plan sdk drivers overflowChecks (.splitXch r) = some (xchPlan sdk [largest]
      (amounts.map (fun amount => .createCoin ⟨changePh, amount, none⟩) ++
        feeCondition r.fee.mojos)) := by
  have hfew := not_few hparts
  simp [SdkSpendBuilder.plan, Except.toOption, hfew, hchangePh, hcoins, hlargest, hdivisible,
    hamounts, xchPlan]

variable (hdrivers : drivers.Emit sdk wrap) (hparts : 2 ≤ r.parts.toNat)
  (hids : ∀ plan, builder.plan sdk drivers overflowChecks (.splitXch r) = some plan →
    sdk.CoinIdsApart (coinsInPlay sdk wrap plan))

include hdrivers hparts hids in
/-- A split that is built. -/
theorem splitEnds_of_ok {unsigned : UnsignedSpend}
    (hbuilt : builder.buildSplitXch sdk drivers overflowChecks r = .ok unsigned) :
    SplitEnds sdk drivers overflowChecks builder r := by
  have h := hbuilt
  unfold SdkSpendBuilder.buildSplitXch SdkSpendBuilder.finishSelfDirected at h
  simp only [bind_eq_ok, ofResult_eq_ok, orPanic_eq_ok, refuseIf_eq_ok] at h
  obtain ⟨-, -, changePh, hchangePh, coins, hcoins, largest, hlargest, divisible, hdivisible,
    staggered, hstaggered, amounts, hamounts, -, -, coinSpends, hcoinSpends, -, -, -, -, hfinish⟩ := h
  have hdivisible' := okOr_eq_ok.mp hdivisible
  obtain rfl := okOr_eq_ok.mp hamounts
  obtain ⟨spend, heq, hemitted⟩ := spendStandard_eq_ok sdk wrap hcoinSpends
  rw [List.nil_append] at heq
  subst heq
  have hplan := splitPlan_of_amounts drivers hparts hchangePh hcoins hlargest hdivisible' hstaggered
  have hcarries := Carries.spread changePh amounts r.fee.mojos
  have hleads := leadCreates_xch sdk wrap hcarries (List.cons_ne_nil largest [])
  have hall := List.Forall₂.cons hemitted List.Forall₂.nil
  obtain ⟨hspends, -, -, genesis, required, hextracted⟩ := finish_eq_ok hfinish
  have hcreated := createdCoinObjects_emitted hdrivers hleads.ordinary
    (hdrivers.extracts hextracted) hall
  rw [plannedCoins_xchPlan, hcarries.created] at hcreated
  have hdistinct := hleads.distinct (hids _ hplan) (wrapsApart_xchPlan [largest])
  rw [plannedCoins_xchPlan, hcarries.created] at hdistinct
  have hmade : SplitCoins sdk builder r largest changePh unsigned
      (childrenAt sdk largest (amounts.map fun amount => (changePh, amount))) := by
    refine ⟨?_, hspends ▸ hcreated, ?_, ?_, hdistinct.mpr (nodup_pairs_of_staggered hstaggered _), ?_⟩
    · have hcoin := coins_of_emitted hdrivers hall
      rw [UnsignedSpend.coins, hspends]
      exact hcoin
    · rw [childrenAt, List.length_map, List.length_map, length_of_staggeredAmounts hstaggered,
        UInt32.toNat_toUInt64]
    · intro coin hcoin
      obtain ⟨pair, hpair, rfl⟩ := List.mem_map.mp hcoin
      obtain ⟨amount, -, rfl⟩ := List.mem_map.mp hpair
      rfl
    · have hsame : coinAmounts (childrenAt sdk largest (amounts.map fun amount =>
          (changePh, amount))) = amounts := by simp [coinAmounts, childrenAt, Function.comp_def]
      rw [hsame, total_of_staggeredAmounts hstaggered]
      exact toNat_add_of_checkedSub hdivisible'
  exact .split hchangePh hcoins hlargest hbuilt hmade

include hparts hids in
/-- A split that is not built. -/
theorem splitEnds_of_error {fault : Fault WalletError}
    (hbuilt : builder.buildSplitXch sdk drivers overflowChecks r = .error fault) :
    SplitEnds sdk drivers overflowChecks builder r := by
  have hstaggers : ∀ divisible : UInt64, _ := fun divisible =>
    @staggeredAmounts_cases overflowChecks divisible r.parts.toUInt64
      (by rw [UInt32.toNat_toUInt64]; omega) (by rw [UInt32.toNat_toUInt64]; exact r.parts.toNat_lt)
  have h := hbuilt
  unfold SdkSpendBuilder.buildSplitXch at h
  simp only [bind_eq_error, ofResult_eq_error, orPanic_eq_error, refuseIf_eq_error, ofResult_eq_ok,
    orPanic_eq_ok, refuseIf_eq_ok] at h
  rcases h with ⟨hlow, -⟩ | ⟨-, -, h⟩
  · exact absurd hlow (not_few hparts)
  rcases h with ⟨e, he, rfl⟩ | ⟨changePh, hchangePh, h⟩
  · exact .provider hbuilt (.inl he)
  rcases h with ⟨e, he, rfl⟩ | ⟨coins, hcoins, h⟩
  · exact .provider hbuilt (.inr he)
  rcases h with ⟨e, he, rfl⟩ | ⟨largest, hlargest, h⟩
  · exact .funds hbuilt (insufficient_of_largestSpendable he)
  rcases h with ⟨e, he, rfl⟩ | ⟨divisible, hdivisible, h⟩
  · obtain ⟨-, rfl⟩ := okOr_eq_error.mp he
    exact .funds hbuilt rfl
  rcases h with ⟨hnone, -⟩ | ⟨staggered, hstaggered, h⟩
  · obtain ⟨hsome, -⟩ | ⟨amounts, hsome, -⟩ := hstaggers divisible
    · cases hnone.symm.trans hsome
    · cases hnone.symm.trans hsome
  rcases h with ⟨e, he, rfl⟩ | ⟨amounts, hamounts, h⟩
  · obtain ⟨-, rfl⟩ := okOr_eq_error.mp he
    exact .funds hbuilt rfl
  have hdivisible' := okOr_eq_ok.mp hdivisible
  obtain rfl := okOr_eq_ok.mp hamounts
  have hplan := splitPlan_of_amounts drivers hparts hchangePh hcoins hlargest hdivisible' hstaggered
  have hcarries := Carries.spread changePh amounts r.fee.mojos
  have happart := (hids _ hplan).mono (plannedCoins_subset _)
  rw [plannedCoins_xchPlan, hcarries.created] at happart
  rcases h with ⟨e, he, -⟩ | ⟨-, -, h⟩
  · cases he.symm.trans (ensureDistinct_of_staggered hstaggered largest changePh happart)
  rcases h with ⟨e, he, rfl⟩ | ⟨coinSpends, hcoinSpends, h⟩
  · exact .spend hcoins hlargest hbuilt ⟨refuses_spendStandard _ _ _ e he, _, .inl he⟩
  have htotal := total_of_staggeredAmounts hstaggered
  have hfits : total amounts < 2 ^ 64 := htotal ▸ divisible.toNat_lt
  rcases h with ⟨hnone, -⟩ | ⟨outputs, houtputs, h⟩
  · obtain ⟨sum, hsum⟩ := sumU64_of_lt overflowChecks hfits
    cases hnone.symm.trans hsum
  have hsum : outputs.toNat = divisible.toNat := (toNat_of_sumU64 houtputs hfits).trans htotal
  have hbalance : outputs.toNat + r.fee.mojos.toNat = largest.amount.toNat :=
    hsum ▸ toNat_add_of_checkedSub hdivisible'
  rcases h with ⟨e, he, -⟩ | ⟨-, -, e, he, rfl⟩
  · cases he.symm.trans (assertConserved_of_eq hbalance)
  · exact .spend hcoins hlargest hbuilt ⟨refuses_finish _ _ e he, _, .inr ⟨coinSpends, hcoinSpends, he⟩⟩

end Split

/-- **A split's amounts are distinct, positive and exact**, and its check of the created ids never
fires; the build ends with the coins, or with the error of the provider, the funds or the spend. -/
theorem split_exact (sdk : Sdk) (drivers : SpendDrivers) (wrap : CatInfo → Bytes32 → Bytes32)
    (hdrivers : drivers.Emit sdk wrap) (overflowChecks : Bool) (builder : SdkSpendBuilder)
    (r : SplitXchRequest) (hparts : 2 ≤ r.parts.toNat)
    (hids : ∀ plan, builder.plan sdk drivers overflowChecks (.splitXch r) = some plan →
      sdk.CoinIdsApart (coinsInPlay sdk wrap plan)) :
    (∀ divisible parts : UInt64, 2 ≤ parts.toNat → parts.toNat < 2 ^ 32 →
      StaggersExactly overflowChecks divisible parts) ∧
    (∀ (divisible parts : UInt64) (amounts : List UInt64) (parent : Coin) (changePh : Bytes32),
      staggeredAmounts overflowChecks divisible parts = some (some amounts) →
      sdk.CoinIdsApart (childrenAt sdk parent (amounts.map fun amount => (changePh, amount))) →
      ensureDistinctCreatedCoins sdk (sdk.coinId parent)
        (amounts.map fun amount => (changePh, amount)) = .ok ()) ∧
    SplitEnds sdk drivers overflowChecks builder r := by
  refine ⟨fun divisible parts => staggersExactly overflowChecks divisible,
    fun _ _ _ parent changePh hamounts happart =>
      ensureDistinct_of_staggered hamounts parent changePh happart, ?_⟩
  cases hbuilt : builder.buildSplitXch sdk drivers overflowChecks r with
  | ok unsigned => exact splitEnds_of_ok hdrivers hparts hids hbuilt
  | error fault => exact splitEnds_of_error hparts hids hbuilt

section Witness

open Sim

/-- Three coins of the hundred mojos, with a fee of 7. -/
def splitInThree : SplitXchRequest := ⟨identity, 3, ⟨7⟩⟩

/-- The wallet of one coin that it has no key for. -/
def strayCoin : SdkSpendBuilder := builder [⟨.rep 1, .rep 9, 100⟩] []

theorem split_exact_inThree : StaggersExactly true 93 3 ∧
    SplitEnds sim spendDrivers true oneCoin splitInThree := by
  obtain ⟨hstaggers, -, hends⟩ := split_exact sim spendDrivers wrap spendDrivers_emit true oneCoin
    splitInThree (by decide) fun plan hplan => (hashesApart_of_all hplan (by decide +kernel)).1
  exact ⟨hstaggers 93 3 (by decide) (by decide), hends⟩

/-- A coin without a key fails the split, and for no want of funds. -/
theorem split_not_insufficientFunds : ¬ ∀ (sdk : Sdk) (drivers : SpendDrivers)
    (wrap : CatInfo → Bytes32 → Bytes32), drivers.Emit sdk wrap →
    ∀ (overflowChecks : Bool) (builder : SdkSpendBuilder) (r : SplitXchRequest)
      (changePh : Bytes32) (coins : List Coin) (largest : Coin), 2 ≤ r.parts.toNat →
    (∀ plan, builder.plan sdk drivers overflowChecks (.splitXch r) = some plan →
      sdk.CoinIdsApart (coinsInPlay sdk wrap plan)) →
    builder.inputs.changePuzzleHash r.identity = .ok changePh →
    builder.inputs.spendableXch r.identity = .ok coins → largestSpendable sdk coins = .ok largest →
      (∃ e, builder.buildSplitXch sdk drivers overflowChecks r = .error (.refused e) ∧
        e.code = .insufficientFunds) ∨
      ∃ unsigned created, builder.buildSplitXch sdk drivers overflowChecks r = .ok unsigned ∧
        SplitCoins sdk builder r largest changePh unsigned created := by
  intro hall
  have hrefused : strayCoin.buildSplitXch sim spendDrivers true splitInThree =
      .error (.refused (spendFailed "no public key for an input coin's puzzle hash")) := by
    decide +kernel
  obtain ⟨e, he, hcode⟩ | ⟨unsigned, created, hbuilt, -⟩ := hall sim spendDrivers wrap
    spendDrivers_emit true strayCoin splitInThree home _ _ (by decide)
    (fun plan hplan => (hashesApart_of_all hplan (by decide +kernel)).1) rfl rfl rfl
  · cases hrefused.symm.trans he
    cases hcode
  · cases hrefused.symm.trans hbuilt

end Witness

end DigWallet
