import DigWallet.Verify.Analyze
import DigWallet.Verify.Arms

/-!
# DigWallet.Verify.Run — what `analyze` accepts

`bundleTally` is the sum of the legs' tallies.  `analyze_eq_ok`: `analyze` accepts a list of coin
spends exactly when `Accepts` holds of it, a predicate over the unbounded tally.  `refuses_analyze`:
every other outcome is a `spendValidationFailed`.
-/

namespace DigWallet

open Checked

variable (sdk : Sdk)

/-- The tally of a bundle: its coin ids, then its legs in order. -/
def bundleTally (coinSpends : List CoinSpend) : Tally :=
  { spentCoinIds := coinSpends.map fun spend => sdk.coinId spend.coin } +
    (coinSpends.map (tallyOf sdk)).sum

/-! ## The accounting loop -/

theorem foldlM_accountCoin_posts (coinSpends : List CoinSpend) :
    LedgerPosts (fun l => coinSpends.foldlM (accountCoin sdk) l) fun d =>
      (∀ spend ∈ coinSpends, Admitted sdk spend) ∧ d = (coinSpends.map (tallyOf sdk)).sum :=
  Posts.foldlM_map (fun _ _ => Tally.Fits.left) coinSpends fun spend _ =>
    accountCoin_posts sdk spend

/-! ## The epilogue over tallies -/

/-- `enforceBundleNftMintBinding`, over a tally. -/
def MintBound (t : Tally) : Prop :=
  t.launcherParents = [] ∧ t.eveParents = [] ∨
    (t.launcherParents = [] ∨
      ∃ output ∈ t.protocolSink, output.puzzleHash = sdk.singletonLauncherHash) ∧
    (∀ parent ∈ t.launcherParents, parent ∈ t.spentCoinIds) ∧
    (∀ parent ∈ t.eveParents, parent ∈ t.launcherCoinIds) ∧
    (∀ launcher ∈ t.launcherCoinIds, launcher ∈ t.eveParents) ∧
    ∀ entry ∈ t.launcherAnnouncements, ∃ id ∈ entry.2, id ∈ t.signedAnnouncementAssertions

theorem enforceBundleNftMintBinding_eq_ok (ledger : SpendLedger) :
    enforceBundleNftMintBinding sdk ledger = .ok () ↔ MintBound sdk ledger.toTally := by
  unfold enforceBundleNftMintBinding MintBound
  by_cases hempty : ledger.launcherParents = [] ∧ ledger.eveParents = []
  · simp [hempty, SpendLedger.toTally]
  · have hcond : ¬ (ledger.launcherParents.isEmpty && ledger.eveParents.isEmpty) = true := by
      simpa using hempty
    rw [if_neg hcond]
    simp only [guard_bind_eq_ok, require_eq_ok, forM_eq_ok, Bool.or_eq_true, List.isEmpty_iff,
      List.any_eq_true, List.all_eq_true, decide_eq_true_eq, List.contains_iff_mem,
      SpendLedger.toTally]
    exact (or_iff_right hempty).symm

theorem refuses_enforceBundleNftMintBinding (ledger : SpendLedger) :
    Refuses (enforceBundleNftMintBinding sdk ledger) := by
  unfold enforceBundleNftMintBinding
  split_ifs
  · exact refuses_ok ()
  · exact (refuses_require _ _).bind fun _ => (refuses_require _ _).bind fun _ =>
      (refuses_require _ _).bind fun _ => (refuses_require _ _).bind fun _ =>
        Refuses.forM (fun _ => refuses_require _ _) _

/-- XCH in is XCH out plus the fee; in strict mode the fee is the reserved and the destroyed mojos. -/
def Conserves (optionMode : Bool) (t : Tally) (fee : ℕ) : Prop :=
  t.xchIn = t.xchOut + fee ∧ if optionMode then t.melted = 0 else fee = t.fee + t.melted

theorem optionConservation_eq_ok (ledger : SpendLedger) (fee : UInt64) :
    enforceXchConservation true ledger = .ok fee ↔
      ledger.xchIn.toNat = ledger.xchOut.toNat + fee.toNat ∧ ledger.melted.toNat = 0 := by
  show (if 0 < ledger.melted then _
    else if ledger.xchOut ≤ ledger.xchIn then _ else _) = _ ↔ _
  by_cases hmelted : 0 < ledger.melted
  · have hpos : 0 < ledger.melted.toNat := UInt64.lt_iff_toNat_lt.mp hmelted
    rw [if_pos hmelted]
    constructor
    · intro h
      cases h
    · rintro ⟨-, hzero⟩
      omega
  have hzero : ledger.melted.toNat = 0 := by
    have := mt UInt64.lt_iff_toNat_lt.mpr hmelted
    have h0 : (0 : UInt64).toNat = 0 := rfl
    omega
  rw [if_neg hmelted]
  by_cases hle : ledger.xchOut ≤ ledger.xchIn
  · have hsub : (ledger.xchIn - ledger.xchOut).toNat = ledger.xchIn.toNat - ledger.xchOut.toNat :=
      UInt64.toNat_sub_of_le _ _ hle
    have hle' : ledger.xchOut.toNat ≤ ledger.xchIn.toNat := UInt64.le_iff_toNat_le.mp hle
    rw [if_pos hle, Except.ok.injEq, ← UInt64.toNat_inj, hsub]
    omega
  · have hlt : ¬ ledger.xchOut.toNat ≤ ledger.xchIn.toNat := mt UInt64.le_iff_toNat_le.mpr hle
    rw [if_neg hle]
    constructor
    · intro h
      cases h
    · rintro ⟨h, -⟩
      omega

theorem strictConservation_eq_ok (ledger : SpendLedger) (fee : UInt64) :
    enforceXchConservation false ledger = .ok fee ↔
      ledger.xchIn.toNat = ledger.xchOut.toNat + fee.toNat ∧
        fee.toNat = ledger.fee.toNat + ledger.melted.toNat := by
  have hin := ledger.xchIn.toNat_lt
  have hfee := fee.toNat_lt
  show (accumulate _ _ _ >>= _) = _ ↔ _
  simp only [bind_eq_ok, accumulate_eq_ok, require_eq_ok, decide_eq_true_eq]
  constructor
  · rintro ⟨_, ⟨hout, rfl⟩, _, ⟨hacc, rfl⟩, _, hconserved, hfit, rfl⟩
    have houtfee := toNat_add_of_lt hout
    have hsum := congrArg UInt64.toNat hconserved
    rw [toNat_add_of_lt hacc, houtfee] at hsum
    rw [toNat_add_of_lt hfit]
    omega
  · rintro ⟨hconserved, hsum⟩
    have hout : ledger.xchOut.toNat + ledger.fee.toNat < UInt64.size := by
      show _ < 2 ^ 64
      omega
    have houtfee := toNat_add_of_lt hout
    have hacc : (ledger.xchOut + ledger.fee).toNat + ledger.melted.toNat < UInt64.size := by
      show _ < 2 ^ 64
      omega
    have hfit : ledger.fee.toNat + ledger.melted.toNat < UInt64.size := by
      show _ < 2 ^ 64
      omega
    refine ⟨_, ⟨hout, rfl⟩, _, ⟨hacc, rfl⟩, (), ?_, hfit, ?_⟩
    · rw [← UInt64.toNat_inj, toNat_add_of_lt hacc, houtfee]
      omega
    · rw [← UInt64.toNat_inj, toNat_add_of_lt hfit]
      exact hsum

theorem enforceXchConservation_eq_ok (optionMode : Bool) (ledger : SpendLedger) (fee : UInt64) :
    enforceXchConservation optionMode ledger = .ok fee ↔
      Conserves optionMode ledger.toTally fee.toNat := by
  cases optionMode with
  | true => exact optionConservation_eq_ok ledger fee
  | false => exact strictConservation_eq_ok ledger fee

theorem refuses_enforceXchConservation (optionMode : Bool) (ledger : SpendLedger) :
    Refuses (enforceXchConservation optionMode ledger) := by
  unfold enforceXchConservation
  split_ifs
  · exact refuses_reject _
  · exact refuses_ok _
  · exact refuses_reject _
  · exact (refuses_accumulate _ _ _).bind fun _ => (refuses_accumulate _ _ _).bind fun _ =>
      (refuses_require _ _).bind fun _ => refuses_accumulate _ _ _

theorem AssetTotals.get_eq_zero (totals : AssetTotals) (asset : Bytes32)
    (h : asset ∉ totals.keys) : totals.get asset = 0 := by
  induction totals with
  | nil => rfl
  | cons entry totals ih =>
    obtain ⟨key, total⟩ := entry
    simp only [AssetTotals.keys, List.map_cons, List.mem_cons, not_or] at h
    rw [AssetTotals.get, if_neg (Ne.symm h.1)]
    exact ih h.2

theorem enforceCatConservation_eq_ok (ledger : SpendLedger) :
    enforceCatConservation ledger = .ok () ↔
      ∀ asset, ledger.toTally.catIn asset = ledger.toTally.catOut asset := by
  unfold enforceCatConservation
  simp only [forM_eq_ok, require_eq_ok, decide_eq_true_eq, List.mem_append]
  constructor
  · intro h asset
    by_cases hmem : asset ∈ ledger.catIn.keys ∨ asset ∈ ledger.catOut.keys
    · exact congrArg UInt64.toNat (h asset hmem)
    · obtain ⟨hin, hout⟩ := not_or.mp hmem
      show (ledger.catIn.get asset).toNat = (ledger.catOut.get asset).toNat
      rw [AssetTotals.get_eq_zero _ _ hin, AssetTotals.get_eq_zero _ _ hout]
  · intro h asset _
    exact UInt64.toNat_inj.mp (h asset)

theorem refuses_enforceCatConservation (ledger : SpendLedger) :
    Refuses (enforceCatConservation ledger) :=
  Refuses.forM (fun _ => refuses_require _ _) _

/-- Settlement binds when each coin that pays a sink carries the announcement itself. -/
theorem enforceBundleSettlementBinding_of_carries {bindings : List CoinBinding}
    (h : ∀ b ∈ bindings, b.createsSink = true → b.carriesAnnouncement = true) :
    enforceBundleSettlementBinding bindings = .ok () := by
  unfold enforceBundleSettlementBinding
  rw [require_eq_ok, List.all_eq_true]
  intro i _
  cases hsink : bindings[i].createsSink with
  | false => rfl
  | true =>
    have hcarries := h bindings[i] (List.getElem_mem _) hsink
    rw [Bool.not_true, Bool.false_or, tiedToAnnouncement, Search.search_iff]
    exact ⟨i, .refl, hcarries⟩

/-! ## The whole pass -/

/-- What `analyze` accepts, over the bundle's tally. -/
structure Accepts (coinSpends : List CoinSpend) (effect : SpendEffect) : Prop where
  nonempty : coinSpends ≠ []
  admitted : ∀ spend ∈ coinSpends, Admitted sdk spend
  fits : (bundleTally sdk coinSpends).Fits
  mint : MintBound sdk (bundleTally sdk coinSpends)
  settlement : enforceBundleSettlementBinding (bundleTally sdk coinSpends).bindings = .ok ()
  xch : Conserves (isOptionBundle sdk coinSpends) (bundleTally sdk coinSpends) effect.fee.toNat
  cat : ∀ asset,
    (bundleTally sdk coinSpends).catIn asset = (bundleTally sdk coinSpends).catOut asset
  outputs : effect.outputs = (bundleTally sdk coinSpends).outputs
  protocolSink : effect.protocolSink = (bundleTally sdk coinSpends).protocolSink
  nftOperations : effect.nftOperations = (bundleTally sdk coinSpends).nftOperations
  meltedSingletons : effect.meltedSingletons = (bundleTally sdk coinSpends).meltedSingletons

/-- The ledger the accounting loop starts from. -/
def startLedger (coinSpends : List CoinSpend) : SpendLedger :=
  { SpendLedger.new with spentCoinIds := coinSpends.map fun spend => sdk.coinId spend.coin }

theorem toTally_startLedger (coinSpends : List CoinSpend) :
    (startLedger sdk coinSpends).toTally =
      { spentCoinIds := coinSpends.map fun spend => sdk.coinId spend.coin } := by
  ext1 <;> simp [startLedger, SpendLedger.new, SpendLedger.toTally, AssetTotals.get, funext_iff]

/-- The loop from the start ledger reaches the bundle's tally. -/
theorem foldlM_accountCoin_iff (coinSpends : List CoinSpend) :
    (∃ ledger, coinSpends.foldlM (accountCoin sdk) (startLedger sdk coinSpends) = .ok ledger) ↔
      (∀ spend ∈ coinSpends, Admitted sdk spend) ∧ (bundleTally sdk coinSpends).Fits := by
  have hposts := foldlM_accountCoin_posts sdk coinSpends
  have hstart := toTally_startLedger sdk coinSpends
  constructor
  · rintro ⟨ledger, hledger⟩
    obtain ⟨_, ⟨hadm, rfl⟩, htally, hfit⟩ := hposts.sound (SpendLedger.fits_toTally _) hledger
    rw [htally, hstart] at hfit
    exact ⟨hadm, hfit⟩
  · rintro ⟨hadm, hfit⟩
    obtain ⟨ledger, hledger, -⟩ := hposts.complete (s := startLedger sdk coinSpends) ⟨hadm, rfl⟩
      (hstart ▸ hfit)
    exact ⟨ledger, hledger⟩

theorem toTally_of_foldlM {coinSpends : List CoinSpend} {ledger : SpendLedger}
    (h : coinSpends.foldlM (accountCoin sdk) (startLedger sdk coinSpends) = .ok ledger) :
    ledger.toTally = bundleTally sdk coinSpends := by
  obtain ⟨_, ⟨-, rfl⟩, htally, -⟩ :=
    (foldlM_accountCoin_posts sdk coinSpends).sound (SpendLedger.fits_toTally _) h
  rw [htally, toTally_startLedger]
  rfl

/-- `analyze` as its loop and its four epilogue checks. -/
theorem analyze_eq_ok_iff_ledger {coinSpends : List CoinSpend} {effect : SpendEffect} :
    analyze sdk coinSpends = .ok effect ↔ coinSpends ≠ [] ∧ ∃ ledger,
      coinSpends.foldlM (accountCoin sdk) (startLedger sdk coinSpends) = .ok ledger ∧
      enforceBundleNftMintBinding sdk ledger = .ok () ∧
      enforceBundleSettlementBinding ledger.bindings = .ok () ∧
      ∃ fee, enforceXchConservation (isOptionBundle sdk coinSpends) ledger = .ok fee ∧
        enforceCatConservation ledger = .ok () ∧
        effect = ⟨ledger.outputs, ledger.protocolSink, fee, ledger.nftOperations,
          ledger.meltedSingletons⟩ := by
  unfold analyze
  simp only [bind_eq_ok, Unique.exists_iff, require_eq_ok, Bool.not_eq_true',
    List.isEmpty_eq_false_iff, Except.ok.injEq, eq_comm (a := effect)]
  rfl

/-- **`analyze` accepts exactly `Accepts`.** -/
theorem analyze_eq_ok {coinSpends : List CoinSpend} {effect : SpendEffect} :
    analyze sdk coinSpends = .ok effect ↔ Accepts sdk coinSpends effect := by
  rw [analyze_eq_ok_iff_ledger]
  constructor
  · rintro ⟨hne, ledger, hledger, hmint, hsettle, fee, hxch, hcat, rfl⟩
    obtain ⟨hadm, hfit⟩ := (foldlM_accountCoin_iff sdk coinSpends).mp ⟨ledger, hledger⟩
    rw [enforceBundleNftMintBinding_eq_ok] at hmint
    rw [enforceXchConservation_eq_ok] at hxch
    rw [enforceCatConservation_eq_ok] at hcat
    have htally := toTally_of_foldlM sdk hledger
    rw [htally] at hmint hxch hcat
    refine ⟨hne, hadm, hfit, hmint, ?_, hxch, hcat, ?_, ?_, ?_, ?_⟩
    · rw [← htally]
      exact hsettle
    all_goals
      rw [← htally]
      rfl
  · rintro ⟨hne, hadm, hfit, hmint, hsettle, hxch, hcat, houtputs, hsinks, hops, hmelts⟩
    obtain ⟨ledger, hledger⟩ := (foldlM_accountCoin_iff sdk coinSpends).mpr ⟨hadm, hfit⟩
    have htally := toTally_of_foldlM sdk hledger
    rw [← htally] at hmint hsettle hxch hcat houtputs hsinks hops hmelts
    refine ⟨hne, ledger, hledger, (enforceBundleNftMintBinding_eq_ok sdk ledger).mpr hmint,
      hsettle, effect.fee, (enforceXchConservation_eq_ok _ ledger _).mpr hxch,
      (enforceCatConservation_eq_ok ledger).mpr hcat, ?_⟩
    obtain ⟨outputs, protocolSink, fee, nftOperations, meltedSingletons⟩ := effect
    simp only [SpendLedger.toTally] at houtputs hsinks hops hmelts
    rw [houtputs, hsinks, hops, hmelts]

/-- **Every refusal of `analyze` is `spendValidationFailed`.** -/
theorem refuses_analyze (coinSpends : List CoinSpend) : Refuses (analyze sdk coinSpends) := by
  unfold analyze
  refine (refuses_require _ _).bind ?_
  intro _
  refine Refuses.bind (fun e he => (foldlM_accountCoin_posts sdk coinSpends).fails he) fun _ => ?_
  refine (refuses_enforceBundleNftMintBinding sdk _).bind ?_
  intro _
  refine (refuses_require _ _).bind ?_
  intro _
  refine (refuses_enforceXchConservation _ _).bind ?_
  intro _
  exact (refuses_enforceCatConservation _).bind fun _ => refuses_ok _

end DigWallet
