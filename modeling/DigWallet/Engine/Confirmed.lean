import DigWallet.Engine.Collisions
import DigWallet.Engine.PaysRequest

/-!
# DigWallet.Engine.Confirmed — what a confirmed bundle leaves of a wallet

The chain beside the builders.  A wallet holds coins; a bundle that confirms takes those it spends and
adds those it creates at the wallet's own puzzle hashes.  `value_of_confirm`: an XCH build costs its
wallet the fee and what it pays to others.
-/

namespace DigWallet

open Totals SdkSpendBuilder

section Confirm

variable (sdk : Sdk)

/-- The coins that are not among `spent`. -/
def unspentBy (spent coins : List Coin) : List Coin :=
  coins.filter fun coin => sdk.coinId coin ∉ spent.map sdk.coinId

/-- The wallet's coins once the bundle confirms; no coin is created twice. -/
def confirm (own : Bytes32 → Bool) (coins : List Coin) (coinSpends : List CoinSpend) :
    Option (List Coin) := do
  let created ← (createdCoinObjects sdk coinSpends).toOption
  if ((coins ++ created).map sdk.coinId).Nodup then
    some (unspentBy sdk (coinSpends.map CoinSpend.coin) coins ++
      created.filter fun coin => own coin.puzzleHash)
  else none

/-- The same builder over other coins. -/
def SdkSpendBuilder.holding (builder : SdkSpendBuilder) (coins : List Coin) : SdkSpendBuilder :=
  { builder with inputs := { builder.inputs with spendableXch := fun _ => .ok coins } }

/-- The pairs at puzzle hashes that are not the wallet's. -/
def foreign (own : Bytes32 → Bool) (pairs : Pairs) : Pairs := pairs.filter fun pair => !own pair.1

end Confirm

section

variable {sdk : Sdk} {own : Bytes32 → Bool} {coins coins' : List Coin}

theorem confirm_eq_some {coinSpends : List CoinSpend}
    (h : confirm sdk own coins coinSpends = some coins') :
    ∃ created, createdCoinObjects sdk coinSpends = .ok created ∧
      ((coins ++ created).map sdk.coinId).Nodup ∧
      coins' = unspentBy sdk (coinSpends.map CoinSpend.coin) coins ++
        created.filter fun coin => own coin.puzzleHash := by
  unfold confirm at h
  simp only [Option.bind_eq_bind, Option.bind_eq_some_iff, toOption_eq_some] at h
  obtain ⟨created, hcreated, h⟩ := h
  split_ifs at h with hfresh
  exact ⟨created, hcreated, hfresh, (Option.some.inj h).symm⟩

/-- A confirmed bundle keeps the ids distinct. -/
theorem nodup_of_confirm {coinSpends : List CoinSpend}
    (h : confirm sdk own coins coinSpends = some coins') : (coins'.map sdk.coinId).Nodup := by
  obtain ⟨created, -, hfresh, rfl⟩ := confirm_eq_some h
  exact hfresh.sublist
    ((List.filter_sublist.append List.filter_sublist).map sdk.coinId)

/-- With distinct ids, the coins are those spent and those left. -/
theorem perm_spent_append (hids : (coins.map sdk.coinId).Nodup) {spent : List Coin}
    (hspent : (spent.map sdk.coinId).Nodup) (hsub : spent ⊆ coins) :
    coins.Perm (spent ++ unspentBy sdk spent coins) := by
  have htaken : (coins.filter fun coin => decide (sdk.coinId coin ∈ spent.map sdk.coinId)).Perm
      spent := by
    refine (List.perm_ext_iff_of_nodup (hids.of_map.filter _) hspent.of_map).mpr fun coin => ?_
    rw [List.mem_filter, decide_eq_true_eq]
    constructor
    · rintro ⟨hcoin, hid⟩
      obtain ⟨coin', hcoin', heq⟩ := List.mem_map.mp hid
      rwa [List.inj_on_of_nodup_map hids hcoin (hsub hcoin') heq.symm]
    · intro hcoin
      exact ⟨hsub hcoin, List.mem_map_of_mem hcoin⟩
  have hleft : coins.filter (fun coin => !decide (sdk.coinId coin ∈ spent.map sdk.coinId)) =
      unspentBy sdk spent coins :=
    List.filter_congr fun coin _ => (decide_not).symm
  have hsplit := List.filter_append_perm
    (fun coin => decide (sdk.coinId coin ∈ spent.map sdk.coinId)) coins
  rw [hleft] at hsplit
  exact hsplit.symm.trans (htaken.append_right _)

theorem total_append (amounts amounts' : List UInt64) :
    total (amounts ++ amounts') = total amounts + total amounts' := by
  simp [total]

theorem total_spent_add (hids : (coins.map sdk.coinId).Nodup) {spent : List Coin}
    (hspent : (spent.map sdk.coinId).Nodup) (hsub : spent ⊆ coins) :
    total (coinAmounts coins) =
      total (coinAmounts spent) + total (coinAmounts (unspentBy sdk spent coins)) := by
  rw [total_perm (coinAmounts_perm (perm_spent_append hids hspent hsub)), coinAmounts,
    List.map_append, total_append]
  rfl

variable (sdk own) in
/-- What a coin creates at its wallet's own puzzle hashes and at those of others. -/
theorem pairsTotal_eq_own_add_foreign (parent : Coin) (pairs : Pairs) :
    pairsTotal pairs = total (coinAmounts ((childrenAt sdk parent pairs).filter
      fun coin => own coin.puzzleHash)) + pairsTotal (foreign own pairs) := by
  induction pairs with
  | nil => rfl
  | cons pair pairs ih =>
    have hhead : pairsTotal (pair :: pairs) = pair.2.toNat + pairsTotal pairs := by
      simp [pairsTotal]
    rw [hhead, ih]
    unfold foreign childrenAt
    cases hown : own pair.1 with
    | true =>
      simp only [List.map_cons, List.filter_cons, hown, Bool.not_true, Bool.false_eq_true, if_false,
        if_true, coinAmounts_cons, total_cons]
      omega
    | false =>
      simp only [List.map_cons, List.filter_cons, hown, Bool.not_false, Bool.false_eq_true, if_false,
        if_true, pairsTotal, List.map_cons, total_cons]
      omega

theorem createdBySpend_of_runsTo {spend : CoinSpend} {conditions : List Condition}
    (h : RunsTo sdk spend conditions) :
    createdBySpend sdk spend = .ok (childrenAt sdk spend.coin (createdPairs conditions)) := by
  obtain ⟨puzzle, solution, sig, hpuzzle, hsolution, hrun⟩ := h
  rw [createdBySpend_eq_ok hpuzzle hsolution hrun, childrenAt, createdPairs, List.map_map]
  rfl

/-- The lead coin creates what the bundle pays, the others nothing. -/
theorem createdCoinObjects_of_leadPays {coinSpends : List CoinSpend} {created : Pairs} {fee : UInt64}
    (h : LeadPays sdk coinSpends created fee) : ∃ lead supporting,
      coinSpends.map CoinSpend.coin = lead :: supporting ∧
      createdCoinObjects sdk coinSpends = .ok (childrenAt sdk lead created) := by
  obtain ⟨lead, rest, conditions, rfl, hlead, rfl, -, hrest⟩ := h
  refine ⟨lead.coin, rest.map CoinSpend.coin, rfl, ?_⟩
  have hidle : rest.mapM (createdBySpend sdk) = .ok (rest.map fun _ => []) := by
    rw [mapM_eq_ok, List.forall₂_map_right_iff, List.forall₂_same]
    intro spend hspend
    exact createdBySpend_of_runsTo (hrest spend hspend)
  have hnone : (rest.map fun _ => ([] : List Coin)).flatten = [] :=
    List.flatten_eq_nil_iff.mpr fun part hpart => by
      obtain ⟨_, -, rfl⟩ := List.mem_map.mp hpart
      rfl
  unfold createdCoinObjects
  rw [List.mapM_cons, createdBySpend_of_runsTo hlead]
  simp only [bind, Except.bind, hidle, pure, Except.pure, List.flatten_cons, hnone, List.append_nil]

/-- What a confirmed payment leaves and adds. -/
theorem confirm_of_leadPays {coinSpends : List CoinSpend} {created : Pairs} {fee : UInt64}
    (hpays : LeadPays sdk coinSpends created fee)
    (h : confirm sdk own coins coinSpends = some coins') : ∃ lead supporting,
      coinSpends.map CoinSpend.coin = lead :: supporting ∧
      coins' = unspentBy sdk (lead :: supporting) coins ++
        (childrenAt sdk lead created).filter fun coin => own coin.puzzleHash := by
  obtain ⟨lead, supporting, hspent, hcreated⟩ := createdCoinObjects_of_leadPays hpays
  obtain ⟨created', hcreated', -, rfl⟩ := confirm_eq_some h
  obtain rfl := Except.ok.inj (hcreated.symm.trans hcreated')
  exact ⟨lead, supporting, hspent, by rw [hspent]⟩

/-- **A confirmed payment that balances costs its wallet the fee and what it pays to others.** -/
theorem value_of_confirm {coinSpends : List CoinSpend} {created : Pairs} {fee : UInt64}
    (hpays : LeadPays sdk coinSpends created fee) (hids : (coins.map sdk.coinId).Nodup)
    (hdistinct : ((coinSpends.map CoinSpend.coin).map sdk.coinId).Nodup)
    (hmembers : coinSpends.map CoinSpend.coin ⊆ coins)
    (hbalance : total (coinAmounts (coinSpends.map CoinSpend.coin)) =
      pairsTotal created + fee.toNat)
    (h : confirm sdk own coins coinSpends = some coins') :
    total (coinAmounts coins') + pairsTotal (foreign own created) + fee.toNat =
      total (coinAmounts coins) := by
  obtain ⟨lead, supporting, hspent, rfl⟩ := confirm_of_leadPays hpays h
  rw [hspent] at hdistinct hmembers hbalance
  have hsplit := total_spent_add hids hdistinct hmembers
  have hcreated := pairsTotal_eq_own_add_foreign sdk own lead created
  have hsum : total (coinAmounts (unspentBy sdk (lead :: supporting) coins ++
      (childrenAt sdk lead created).filter fun coin => own coin.puzzleHash)) =
      total (coinAmounts (unspentBy sdk (lead :: supporting) coins)) +
      total (coinAmounts ((childrenAt sdk lead created).filter fun coin => own coin.puzzleHash)) := by
    rw [coinAmounts, List.map_append, total_append]
    rfl
  rw [hsum]
  omega

end

end DigWallet
