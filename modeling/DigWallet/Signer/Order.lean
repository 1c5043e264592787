import DigWallet.Signer.Review
import DigWallet.Verify.Order

/-!
# DigWallet.Signer.Order — the gate under reordering
-/

namespace DigWallet

open Ties

variable {sdk : Sdk} {coinSpends coinSpends' : List CoinSpend}

variable (sdk) in
/-- Two coin-spend lists get one verdict, one effect up to order, and pass the gate together. -/
structure SameVerdict (coinSpends coinSpends' : List CoinSpend) : Prop where
  accepted : (∃ effect, analyze sdk coinSpends = .ok effect) ↔
    ∃ effect, analyze sdk coinSpends' = .ok effect
  effects : ∀ effect effect', analyze sdk coinSpends = .ok effect →
    analyze sdk coinSpends' = .ok effect' →
    effect.fee = effect'.fee ∧ effect.outputs.Perm effect'.outputs ∧
      effect.protocolSink.Perm effect'.protocolSink ∧
      effect.meltedSingletons.Perm effect'.meltedSingletons ∧
      effect.nftOperations.Perm effect'.nftOperations
  gate : ∀ signer requiredSignatures summary,
    verifyBeforeSigning sdk signer ⟨coinSpends, requiredSignatures, summary⟩ = .ok () ↔
      verifyBeforeSigning sdk signer ⟨coinSpends', requiredSignatures, summary⟩ = .ok ()

theorem assertReviewedSummaryMatches_perm {signer : LocalSigner} {claimed : TransactionSummary}
    {effect effect' : SpendEffect} (hfee : effect.fee = effect'.fee)
    (houtputs : effect.outputs.Perm effect'.outputs)
    (hsinks : effect.protocolSink.Perm effect'.protocolSink)
    (hmelts : effect.meltedSingletons.Perm effect'.meltedSingletons)
    (hops : effect.nftOperations.Perm effect'.nftOperations)
    (h : assertReviewedSummaryMatches sdk claimed (reclassifyByOwnership sdk signer effect) =
      .ok ()) :
    assertReviewedSummaryMatches sdk claimed (reclassifyByOwnership sdk signer effect') =
      .ok () := by
  obtain ⟨hf, hm, ⟨sentences, hs, hn⟩, ⟨reviewed, hr, hrecipients⟩, hk⟩ :=
    assertReviewedSummaryMatches_eq_ok.mp h
  obtain ⟨sentences', hs', hsentences⟩ := mapM_perm hops hs
  refine assertReviewedSummaryMatches_eq_ok.mpr ⟨hf.trans hfee, ?_, ⟨sentences', hs', ?_⟩,
    ⟨reviewed, hr, ?_⟩, ?_⟩
  · exact (hmelts.symm.map _).trans hm
  · exact hsentences.trans hn
  · exact ((houtputs.symm.filter _).map _).trans hrecipients
  · exact ((hsinks.symm.filter _).map _).trans hk

theorem verifyBeforeSigning_perm (hperm : coinSpends.Perm coinSpends')
    (haccepted : (∃ effect, analyze sdk coinSpends = .ok effect) →
      ∃ effect, analyze sdk coinSpends' = .ok effect)
    {signer : LocalSigner} {requiredSignatures : List RequiredSignature}
    {summary : TransactionSummary}
    (h : verifyBeforeSigning sdk signer ⟨coinSpends, requiredSignatures, summary⟩ = .ok ()) :
    verifyBeforeSigning sdk signer ⟨coinSpends', requiredSignatures, summary⟩ = .ok () := by
  obtain ⟨effect, heffect, hmatch⟩ := verifyBeforeSigning_eq_ok.mp h
  obtain ⟨effect', heffect'⟩ := haccepted ⟨effect, heffect⟩
  obtain ⟨hfee, houtputs, hsinks, hmelts, hops⟩ := effect_perm hperm heffect heffect'
  exact verifyBeforeSigning_eq_ok.mpr ⟨effect', heffect',
    assertReviewedSummaryMatches_perm hfee houtputs hsinks hmelts hops hmatch⟩

theorem sameVerdict_of_accepted (hperm : coinSpends.Perm coinSpends')
    (haccepted : (∃ effect, analyze sdk coinSpends = .ok effect) ↔
      ∃ effect, analyze sdk coinSpends' = .ok effect) :
    SameVerdict sdk coinSpends coinSpends' where
  accepted := haccepted
  effects _ _ h h' := effect_perm hperm h h'
  gate _ _ _ := ⟨verifyBeforeSigning_perm hperm haccepted.mp,
    verifyBeforeSigning_perm hperm.symm haccepted.mpr⟩

/-- **One verdict for every order.** -/
theorem sameVerdict_iff (sdk : Sdk) (coinSpends : List CoinSpend) :
    (∀ reordered, coinSpends.Perm reordered → SameVerdict sdk coinSpends reordered) ↔
      OrderSafe sdk coinSpends := by
  rw [← accepted_perm_iff]
  constructor
  · intro h reordered hperm
    exact (h reordered hperm).accepted
  · intro h reordered hperm
    exact sameVerdict_of_accepted hperm (h reordered hperm)

section Witness

open Sim

/-- One coin with an offer announcement in its conditions. -/
def announcedSpend : CoinSpend :=
  spendOf (.rep 1) (standardPuzzle walletKey) 100
    (signing [createCoin home 100, assertCoinAnnouncement (.rep 9)])

/-- The same coin without it. -/
def silentSpend : CoinSpend :=
  spendOf (.rep 1) (standardPuzzle walletKey) 100 (signing [createCoin home 100])

/-- A coin that pays settlement, to be spent along with that coin. -/
def offeredSpend : CoinSpend :=
  spendOf (.rep 2) (standardPuzzle walletKey) 100 (signing
    [createCoin (treeHash settlementPuzzle) 100, assertConcurrentSpend (coinId silentSpend.coin)])

def announcedBinding : CoinBinding := ⟨coinId silentSpend.coin, home, false, true, [], []⟩

def silentBinding : CoinBinding := ⟨coinId silentSpend.coin, home, false, false, [], []⟩

def offeredBinding : CoinBinding :=
  ⟨coinId offeredSpend.coin, home, true, false, [coinId silentSpend.coin], []⟩

theorem settled_announcedLast : enforceBundleSettlementBinding
    [offeredBinding, silentBinding, announcedBinding] = .ok () := by
  apply settled_iff.mpr
  intro b hb hsink
  rcases List.mem_cons.mp hb with rfl | hb
  · exact .ask (List.mem_singleton.mpr rfl)
      (show lastWith _ (coinId silentSpend.coin) = some announcedBinding by decide +kernel)
      (.goal rfl)
  rcases List.mem_cons.mp hb with rfl | hb
  · cases hsink
  · obtain rfl := List.mem_singleton.mp hb
    cases hsink

set_option maxRecDepth 8000 in
theorem analyze_announcedLast :
    ∃ effect, analyze sim [offeredSpend, silentSpend, announcedSpend] = .ok effect :=
  ⟨_, (analyze_eq_ok_iff_ledger sim).mpr
    ⟨List.cons_ne_nil _ _, _, rfl, rfl, settled_announcedLast, _, rfl, rfl, rfl⟩⟩

theorem not_tied_silentLast :
    ¬ Tied (tieGraph [offeredBinding, announcedBinding, silentBinding])
      (lastWith [offeredBinding, announcedBinding, silentBinding]) offeredBinding := by
  intro h
  cases h with
  | goal h => cases h
  | free h _ => cases h.2
  | ask h hk hb =>
    obtain rfl := List.mem_singleton.mp h
    have hlast : lastWith [offeredBinding, announcedBinding, silentBinding]
        (coinId silentSpend.coin) = some silentBinding := by decide +kernel
    obtain rfl := Option.some.inj (hlast.symm.trans hk)
    cases hb with
    | goal h => cases h
    | free h _ => cases h.2
    | ask h _ _ => cases h

set_option maxRecDepth 8000 in
theorem not_analyze_silentLast :
    ¬ ∃ effect, analyze sim [offeredSpend, announcedSpend, silentSpend] = .ok effect := by
  intro h
  have hsettled := (accepted_iff.mp h).2
  rw [bundleTally_bindings, show [offeredSpend, announcedSpend, silentSpend].filterMap
    (bindingOf sim) = [offeredBinding, announcedBinding, silentBinding] from rfl] at hsettled
  exact not_tied_silentLast (settled_iff.mp hsettled _ (List.mem_cons_self ..) rfl)

/-- Two spends of one coin id, and the order decides. -/
theorem verdict_depends_on_order : ¬ ∀ (sdk : Sdk) (coinSpends reordered : List CoinSpend),
    coinSpends.Perm reordered → SameVerdict sdk coinSpends reordered := by
  intro hall
  have hsame := hall sim [offeredSpend, silentSpend, announcedSpend]
    [offeredSpend, announcedSpend, silentSpend] (.cons _ (.swap _ _ _))
  exact not_analyze_silentLast (hsame.accepted.mp analyze_announcedLast)

/-- A coin that pays settlement, tied to a coin spent with the offer's announcement. -/
def offerBundle : List CoinSpend := [offeredSpend, announcedSpend]

theorem settled_offerBundle :
    enforceBundleSettlementBinding [offeredBinding, announcedBinding] = .ok () := by
  refine settled_iff.mpr fun b hb hsink => ?_
  rcases List.mem_pair.mp hb with rfl | rfl
  · exact .ask (List.mem_singleton.mpr rfl)
      (show lastWith _ (coinId silentSpend.coin) = some announcedBinding by decide +kernel)
      (.goal rfl)
  · cases hsink

set_option maxRecDepth 8000 in
theorem analyze_offerBundle : ∃ effect, analyze sim offerBundle = .ok effect :=
  ⟨_, (analyze_eq_ok_iff_ledger sim).mpr
    ⟨List.cons_ne_nil _ _, _, rfl, rfl, settled_offerBundle, _, rfl, rfl, rfl⟩⟩

/-- The coin asked for is held by the announced spend alone. -/
theorem must_offered : Must (tieGraph [offeredBinding, announcedBinding]) offeredBinding := by
  refine .ask (List.mem_singleton.mpr rfl) ⟨List.mem_cons_of_mem _ List.mem_cons_self, rfl⟩ ?_
  rintro b ⟨hb, hid⟩
  rcases List.mem_pair.mp hb with rfl | rfl
  · exact absurd hid (by decide +kernel)
  · exact .goal rfl

set_option maxRecDepth 8000 in
theorem sameVerdict_iff_offerBundle : (∃ effect, analyze sim offerBundle = .ok effect) ∧
    ∀ reordered, offerBundle.Perm reordered → SameVerdict sim offerBundle reordered := by
  refine ⟨analyze_offerBundle, (sameVerdict_iff sim offerBundle).mpr ?_⟩
  have hbindings : (bundleTally sim offerBundle).bindings = [offeredBinding, announcedBinding] :=
    (bundleTally_bindings offerBundle).trans rfl
  unfold OrderSafe
  rw [hbindings]
  intro _ _ b hb hsink
  rcases List.mem_pair.mp hb with rfl | rfl
  · exact must_offered
  · cases hsink

end Witness

end DigWallet
