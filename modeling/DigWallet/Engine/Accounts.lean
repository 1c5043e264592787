import Mathlib.Algebra.Order.BigOperators.Group.List
import DigWallet.Engine.Plans
import DigWallet.Engine.Stagger
import DigWallet.Signer.Gate

/-!
# DigWallet.Engine.Accounts — what a plan pays, keeps and burns

`plannedIn` and `plannedOut` are the amounts of one denomination that a plan spends and creates,
`plannedOutputs` the coins it creates.  `PlanLeg` gathers these for a plan of one denomination whose
first spend carries the conditions.
-/

namespace DigWallet

open Totals SdkSpendBuilder

/-! ## Condition lists -/

abbrev Pairs := List (Bytes32 × UInt64)

/-- The total of the amounts. -/
def pairsTotal (pairs : Pairs) : ℕ := total (pairs.map Prod.snd)

@[simp] theorem pairsTotal_append (pairs pairs' : Pairs) :
    pairsTotal (pairs ++ pairs') = pairsTotal pairs + pairsTotal pairs' := by
  simp [pairsTotal, total]

/-- The puzzle hashes and amounts a condition list creates coins of. -/
def createdPairs (conditions : List Condition) : Pairs :=
  (conditions.filterMap Condition.asCreateCoin).map fun create => (create.puzzleHash, create.amount)

/-- What a condition list reserves. -/
def reserved (conditions : List Condition) : ℕ :=
  ((conditions.filterMap Condition.asReserveFee).map UInt64.toNat).sum

/-- The conditions the builders use. -/
inductive Ordinary : Condition → Prop
  | createCoin (create : CreateCoin) : Ordinary (.createCoin create)
  | reserveFee (amount : UInt64) : Ordinary (.reserveFee amount)
  | assertConcurrentSpend (id : Bytes32) : Ordinary (.assertConcurrentSpend id)

@[simp] theorem createdPairs_append (conditions conditions' : List Condition) :
    createdPairs (conditions ++ conditions') = createdPairs conditions ++ createdPairs conditions' := by
  simp [createdPairs]

@[simp] theorem reserved_append (conditions conditions' : List Condition) :
    reserved (conditions ++ conditions') = reserved conditions + reserved conditions' := by
  simp [reserved]

/-- A condition list, by the coins it creates and the fee it reserves. -/
structure Carries (conditions : List Condition) (pairs : Pairs) (fee : ℕ) : Prop where
  created : createdPairs conditions = pairs
  reserved : reserved conditions = fee
  ordinary : ∀ c ∈ conditions, Ordinary c

namespace Carries

theorem nil : Carries [] [] 0 := ⟨rfl, rfl, by simp⟩

theorem append {conditions conditions' : List Condition} {pairs pairs' : Pairs} {fee fee' : ℕ}
    (h : Carries conditions pairs fee) (h' : Carries conditions' pairs' fee') :
    Carries (conditions ++ conditions') (pairs ++ pairs') (fee + fee') where
  created := by rw [createdPairs_append, h.created, h'.created]
  reserved := by rw [reserved_append, h.reserved, h'.reserved]
  ordinary := List.forall_mem_append.mpr ⟨h.ordinary, h'.ordinary⟩

theorem createCoin (create : CreateCoin) :
    Carries [.createCoin create] [(create.puzzleHash, create.amount)] 0 :=
  ⟨rfl, rfl, by simpa using .createCoin create⟩

theorem reserveFee (fee : UInt64) : Carries [.reserveFee fee] [] fee.toNat :=
  ⟨rfl, rfl, by simpa using .reserveFee fee⟩

theorem assertConcurrentSpend (id : Bytes32) : Carries [.assertConcurrentSpend id] [] 0 :=
  ⟨rfl, rfl, by simpa using .assertConcurrentSpend id⟩

/-- The zero fee reserves nothing. -/
theorem fee (fee : UInt64) : Carries (feeCondition fee) [] fee.toNat := by
  unfold feeCondition
  by_cases hfee : 0 < fee
  · rw [if_pos hfee]
    exact reserveFee fee
  · have hzero : fee = 0 := by simpa using hfee
    rw [if_neg hfee, hzero]
    exact nil

theorem change (changePh : Bytes32) (amount : UInt64) :
    Carries (changeCondition changePh amount) (changePairs changePh amount) 0 := by
  unfold changeCondition changePairs
  by_cases hamount : 0 < amount
  · rw [if_pos hamount, if_pos hamount]
    exact createCoin _
  · rw [if_neg hamount, if_neg hamount]
    exact nil

/-- Each payment pays its pair. -/
theorem payments {drivers : SpendDrivers} {pays : Pairs} {conditions : List Condition}
    (h : SdkSpendBuilder.payments drivers pays = some conditions) : Carries conditions pays 0 := by
  have hall := mapM_eq_ok.mp (toOption_eq_some.mp h)
  clear h
  induction hall with
  | nil => exact nil
  | cons hpay _ ih =>
    unfold hintedCreateCoin at hpay
    simp only [bind_eq_ok, Except.ok.injEq] at hpay
    obtain ⟨hint, -, rfl⟩ := hpay
    exact (createCoin _).append ih

theorem home (changePh : Bytes32) (amounts : List UInt64) :
    Carries (amounts.map fun amount => .createCoin ⟨changePh, amount, none⟩)
      (amounts.map fun amount => (changePh, amount)) 0 := by
  induction amounts with
  | nil => exact nil
  | cons amount amounts ih => exact (createCoin ⟨changePh, amount, none⟩).append ih

/-- The conditions of a combine. -/
theorem merged (changePh : Bytes32) (amount feeAmount : UInt64) :
    Carries (.createCoin ⟨changePh, amount, none⟩ :: feeCondition feeAmount) [(changePh, amount)]
      feeAmount.toNat := by
  have h := (createCoin ⟨changePh, amount, none⟩).append (fee feeAmount)
  rw [List.append_nil, Nat.zero_add] at h
  exact h

/-- The conditions of a split. -/
theorem spread (changePh : Bytes32) (amounts : List UInt64) (feeAmount : UInt64) :
    Carries (amounts.map (fun amount => .createCoin ⟨changePh, amount, none⟩) ++ feeCondition feeAmount)
      (amounts.map fun amount => (changePh, amount)) feeAmount.toNat := by
  have h := (home changePh amounts).append (fee feeAmount)
  rw [List.append_nil, Nat.zero_add] at h
  exact h

/-- The conditions of a payment. -/
theorem paid {drivers : SpendDrivers} {pays : Pairs} {conditions : List Condition}
    (h : SdkSpendBuilder.payments drivers pays = some conditions) (changePh : Bytes32)
    (amount feeAmount : UInt64) :
    Carries (conditions ++ changeCondition changePh amount ++ feeCondition feeAmount)
      (pays ++ changePairs changePh amount) feeAmount.toNat := by
  have h := ((payments h).append (change changePh amount)).append (fee feeAmount)
  rw [List.append_nil, Nat.zero_add] at h
  exact h

/-- The conditions of the fee leg of a CAT send. -/
theorem catFee (feeAmount : UInt64) (leadId changePh : Bytes32) (amount : UInt64) :
    Carries (.reserveFee feeAmount :: .assertConcurrentSpend leadId :: changeCondition changePh amount)
      (changePairs changePh amount) feeAmount.toNat := by
  have h := (reserveFee feeAmount).append ((assertConcurrentSpend leadId).append (change changePh amount))
  rw [List.nil_append, List.nil_append, Nat.zero_add, Nat.add_zero] at h
  exact h

end Carries

/-- The amounts of a split, all to one puzzle hash. -/
theorem pairsTotal_spread (destination : Bytes32) (amounts : List UInt64) :
    pairsTotal (amounts.map fun amount => (destination, amount)) = total amounts := by
  simp [pairsTotal, Function.comp_def]

@[simp] theorem pairsTotal_changePairs (changePh : Bytes32) (amount : UInt64) :
    pairsTotal (changePairs changePh amount) = amount.toNat := by
  unfold changePairs
  by_cases hamount : 0 < amount
  · simp [hamount, pairsTotal]
  · have hzero : amount = 0 := by simpa using hamount
    simp [hzero, pairsTotal]

theorem mem_changePairs {changePh : Bytes32} {amount : UInt64} {pair : Bytes32 × UInt64}
    (h : pair ∈ changePairs changePh amount) : pair.1 = changePh := by
  unfold changePairs at h
  split_ifs at h
  · rw [List.mem_singleton.mp h]
  · cases h

/-! ## Totals of a plan -/

/-- The coins of one denomination. -/
def outputsOf (asset? : Option Bytes32) (pairs : Pairs) : List DecodedOutput :=
  pairs.map fun pair => ⟨pair.1, pair.2, asset?⟩

theorem forall_mem_outputsOf (P : Bytes32 → Prop) {asset? : Option Bytes32} {pairs : Pairs}
    (h : ∀ pair ∈ pairs, P pair.1) : ∀ output ∈ outputsOf asset? pairs, P output.puzzleHash := by
  intro output houtput
  obtain ⟨pair, hpair, rfl⟩ := List.mem_map.mp houtput
  exact h pair hpair

namespace PlannedSpend

/-- The coins the planned spend creates, as the gate reports them. -/
def outputs (planned : PlannedSpend) : List DecodedOutput :=
  outputsOf planned.asset? (createdPairs planned.conditions)

def amountCreated (planned : PlannedSpend) : ℕ := pairsTotal (createdPairs planned.conditions)

end PlannedSpend

def plannedOutputs (plan : List PlannedSpend) : List DecodedOutput := plan.flatMap PlannedSpend.outputs

/-- The amounts of the coins of one denomination. -/
def plannedIn (asset? : Option Bytes32) (plan : List PlannedSpend) : ℕ :=
  (plan.map fun planned => if planned.asset? = asset? then planned.coin.amount.toNat else 0).sum

/-- The amounts the spends of one denomination create. -/
def plannedOut (asset? : Option Bytes32) (plan : List PlannedSpend) : ℕ :=
  (plan.map fun planned => if planned.asset? = asset? then planned.amountCreated else 0).sum

/-- What a plan reserves. -/
def plannedFee (plan : List PlannedSpend) : ℕ :=
  (plan.map fun planned => reserved planned.conditions).sum

section Append

variable (asset? : Option Bytes32) (plan plan' : List PlannedSpend)

@[simp] theorem plannedOutputs_append :
    plannedOutputs (plan ++ plan') = plannedOutputs plan ++ plannedOutputs plan' :=
  List.flatMap_append

@[simp] theorem plannedIn_append :
    plannedIn asset? (plan ++ plan') = plannedIn asset? plan + plannedIn asset? plan' := by
  simp [plannedIn]

@[simp] theorem plannedOut_append :
    plannedOut asset? (plan ++ plan') = plannedOut asset? plan + plannedOut asset? plan' := by
  simp [plannedOut]

@[simp] theorem plannedFee_append :
    plannedFee (plan ++ plan') = plannedFee plan + plannedFee plan' := by
  simp [plannedFee]

end Append

/-! ## One leg of a plan

A leg is a plan of one denomination whose first spend carries the conditions; the others create and
reserve nothing. -/

structure PlanLeg (asset? : Option Bytes32) (coins : List Coin) (pairs : Pairs) (fee : ℕ)
    (plan : List PlannedSpend) : Prop where
  coins_eq : plan.map PlannedSpend.coin = coins
  asset_eq : ∀ planned ∈ plan, planned.asset? = asset?
  created : plan.flatMap (fun planned => createdPairs planned.conditions) = pairs
  reserved : plannedFee plan = fee
  ordinary : ∀ planned ∈ plan, ∀ c ∈ planned.conditions, Ordinary c

namespace PlanLeg

variable {asset? : Option Bytes32} {coins : List Coin} {pairs : Pairs} {fee : ℕ}
  {plan : List PlannedSpend} {conditions : List Condition}

theorem nil : PlanLeg asset? [] [] 0 [] := ⟨rfl, by simp, rfl, rfl, by simp⟩

/-- A spend before a leg. -/
theorem cons (planned : PlannedSpend) {pairs' : Pairs} {fee' : ℕ} (hasset : planned.asset? = asset?)
    (hcarries : Carries planned.conditions pairs' fee') (h : PlanLeg asset? coins pairs fee plan) :
    PlanLeg asset? (planned.coin :: coins) (pairs' ++ pairs) (fee' + fee) (planned :: plan) where
  coins_eq := by rw [List.map_cons, h.coins_eq]
  asset_eq := List.forall_mem_cons.mpr ⟨hasset, h.asset_eq⟩
  created := by rw [List.flatMap_cons, hcarries.created, h.created]
  reserved := by
    have hrest := h.reserved
    unfold plannedFee at hrest ⊢
    rw [List.map_cons, List.sum_cons, hcarries.reserved, hrest]
  ordinary := List.forall_mem_cons.mpr ⟨hcarries.ordinary, h.ordinary⟩

/-- Spends that carry nothing. -/
theorem idle {α : Type} (items : List α) (spent : α → PlannedSpend)
    (hasset : ∀ item ∈ items, (spent item).asset? = asset?)
    (hcarries : ∀ item ∈ items, Carries (spent item).conditions [] 0) :
    PlanLeg asset? (items.map fun item => (spent item).coin) [] 0 (items.map spent) := by
  induction items with
  | nil => exact nil
  | cons item items ih =>
    have hrest := ih (fun i hi => hasset i (List.mem_cons_of_mem _ hi))
      fun i hi => hcarries i (List.mem_cons_of_mem _ hi)
    exact cons _ (hasset item List.mem_cons_self) (hcarries item List.mem_cons_self) hrest

theorem xchPlan (sdk : Sdk) {selected : List Coin} (hne : selected ≠ [])
    (hcarries : Carries conditions pairs fee) :
    PlanLeg none selected pairs fee (xchPlan sdk selected conditions) := by
  cases selected with
  | nil => exact absurd rfl hne
  | cons lead supporting =>
    have hidle : PlanLeg none _ [] 0 _ := idle supporting
      (fun coin => .standard coin [.assertConcurrentSpend (sdk.coinId lead)])
      (fun _ _ => rfl) fun _ _ => .assertConcurrentSpend _
    have hcoins : (supporting.map fun coin => PlannedSpend.coin
        (.standard coin [.assertConcurrentSpend (sdk.coinId lead)])) = supporting := List.map_id _
    have hleg := cons (.standard lead conditions) rfl hcarries hidle
    rw [List.append_nil, Nat.add_zero, hcoins] at hleg
    exact hleg

theorem catPlan {cats : List Cat} {asset : Bytes32} (hne : cats ≠ [])
    (hasset : ∀ cat ∈ cats, cat.info.assetId = asset) (hcarries : Carries conditions pairs fee) :
    PlanLeg (some asset) (cats.map Cat.coin) pairs fee (catPlan cats conditions) := by
  cases cats with
  | nil => exact absurd rfl hne
  | cons lead rest =>
    obtain ⟨hlead, hrest⟩ := List.forall_mem_cons.mp hasset
    have hidle : PlanLeg (some asset) _ [] 0 _ := idle rest (fun cat => .cat cat [])
      (fun cat hcat => congrArg some (hrest cat hcat)) fun _ _ => .nil
    have hleg := cons (.cat lead conditions) (congrArg some hlead) hcarries hidle
    rw [List.append_nil, Nat.add_zero] at hleg
    exact hleg

theorem outputs (h : PlanLeg asset? coins pairs fee plan) :
    plannedOutputs plan = outputsOf asset? pairs := by
  rw [← h.created, outputsOf, List.map_flatMap, plannedOutputs]
  refine List.flatMap_congr fun planned hplanned => ?_
  rw [← h.asset_eq planned hplanned]
  rfl

theorem amountIn (h : PlanLeg asset? coins pairs fee plan) (other : Option Bytes32) :
    plannedIn other plan = if asset? = other then total (coinAmounts coins) else 0 := by
  have hmap : plan.map (fun planned => if planned.asset? = other then planned.coin.amount.toNat else 0) =
      coins.map fun coin => if asset? = other then coin.amount.toNat else 0 := by
    rw [← h.coins_eq, List.map_map]
    exact List.map_congr_left fun planned hplanned => by rw [h.asset_eq planned hplanned]; rfl
  rw [plannedIn, hmap]
  split_ifs
  · simp [total, coinAmounts, Function.comp_def]
  · simp

theorem amountOut (h : PlanLeg asset? coins pairs fee plan) (other : Option Bytes32) :
    plannedOut other plan = if asset? = other then pairsTotal pairs else 0 := by
  have hmap : plan.map (fun planned => if planned.asset? = other then planned.amountCreated else 0) =
      plan.map fun planned => if asset? = other then planned.amountCreated else 0 :=
    List.map_congr_left fun planned hplanned => by rw [h.asset_eq planned hplanned]
  rw [plannedOut, hmap, ← h.created]
  split_ifs
  · clear hmap h
    induction plan with
    | nil => rfl
    | cons planned plan ih =>
      rw [List.map_cons, List.sum_cons, ih, List.flatMap_cons, pairsTotal_append]
      rfl
  · simp

/-- A leg without a fee reserves nothing in any of its spends. -/
theorem unreserved (h : PlanLeg asset? coins pairs 0 plan) {planned : PlannedSpend}
    (hplanned : planned ∈ plan) : DigWallet.reserved planned.conditions = 0 := by
  have hsum := h.reserved
  unfold plannedFee at hsum
  exact List.sum_eq_zero_iff.mp hsum _ (List.mem_map.mpr ⟨planned, hplanned, rfl⟩)

end PlanLeg

end DigWallet
