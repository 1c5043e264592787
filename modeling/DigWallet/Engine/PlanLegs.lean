import DigWallet.Engine.Balances
import DigWallet.Verify.Conservation
import DigWallet.Verify.Signed

/-!
# DigWallet.Engine.PlanLegs — the legs of a built bundle

The seam between the builder and `client::verify`: an emitted planned spend is accounted as a standard
or a CAT send that signs the planned conditions and is admitted.  The totals of the bundle's legs are
those of the plan.
-/

namespace DigWallet

open Totals SdkSpendBuilder

/-- No key's standard puzzle is the settlement or the launcher puzzle. -/
def Sdk.StandardUnstructural (sdk : Sdk) : Prop :=
  ∀ key, isProtocolSinkHash sdk (sdk.standardCurryTreeHash key) = false

/-- The leg of a planned spend that signs `signed` under `sig`. -/
def PlannedSpend.leg {sdk : Sdk} (signed : QuotedConditions sdk) (sig : AggSig) :
    PlannedSpend → Leg sdk
  | .standard _ conditions => .standardSend signed (.aggSigMe sig :: conditions)
  | .cat spent conditions => .catSend spent.info.assetId signed (.aggSigMe sig :: conditions)

section

variable {sdk : Sdk} {drivers : SpendDrivers} {wrap : CatInfo → Bytes32 → Bytes32}
  {inputs : SpendInputs}

/-! ## One spend -/

theorem prove_of_quotes {puzzle : Node} {conditions : List Condition}
    (h : sdk.Quotes puzzle conditions) (what : String) :
    QuotedConditions.prove sdk puzzle what = .ok ⟨puzzle, conditions, h⟩ := by
  obtain ⟨op, body, rfl, hop, hbody⟩ := h
  unfold QuotedConditions.prove
  simp only [hop, dite_true]
  split
  · rename_i found hfound
    obtain rfl := Except.ok.inj (hbody.symm.trans hfound)
    rfl
  · rename_i hfound
    cases hbody.symm.trans hfound

/-- What the signed list of an emitted inner spend is. -/
theorem committed_of_emitsInner {key : PublicKey} {conditions : List Condition} {inner : Spend}
    (h : EmitsInner sdk key conditions inner) : ∃ committed sig,
      committedStandardSpend sdk inner.solution = .ok committed ∧
      runConditions sdk inner.puzzle inner.solution = .ok (.aggSigMe sig :: conditions) ∧
      sig.message = (sdk.treeHash committed.conditions.puzzle).bytes := by
  obtain ⟨layer, hlayer, hquotes, hrun⟩ := h.signs
  refine ⟨⟨_, ⟨layer.delegatedPuzzle, conditions, hquotes⟩, rfl⟩, _, ?_,
    runConditions_eq_ok.mpr hrun, rfl⟩
  unfold committedStandardSpend
  rw [hlayer]
  show (QuotedConditions.prove sdk layer.delegatedPuzzle _ >>= _) = _
  rw [prove_of_quotes hquotes]
  rfl

theorem isNonMeAggSig_of_ordinary {c : Condition} (h : Ordinary c) : isNonMeAggSig c = false := by
  cases h <;> rfl

theorem asAggSigMe_of_ordinary {c : Condition} (h : Ordinary c) : c.asAggSigMe = none := by
  cases h <;> rfl

/-- The planned leg passes the checks of its class. -/
theorem admitted_leg {planned : PlannedSpend} {signed : QuotedConditions sdk} {sig : AggSig}
    (hsig : sig.message = (sdk.treeHash signed.puzzle).bytes)
    (hordinary : ∀ c ∈ planned.conditions, Ordinary c) : (planned.leg signed sig).Admitted := by
  have hcommits : Leg.Commits signed (.aggSigMe sig :: planned.conditions) := by
    have hnone : planned.conditions.filterMap Condition.asAggSigMe = [] :=
      List.filterMap_eq_nil_iff.mpr fun c hc => asAggSigMe_of_ordinary (hordinary c hc)
    refine soleAggSigMeMessage_eq_ok.mpr ⟨sig.publicKey, ?_⟩
    rw [List.filterMap_cons, hnone, ← hsig]
    rfl
  have hme : ∀ c ∈ Condition.aggSigMe sig :: planned.conditions, isNonMeAggSig c = false :=
    List.forall_mem_cons.mpr ⟨rfl, fun c hc => isNonMeAggSig_of_ordinary (hordinary c hc)⟩
  cases planned with
  | standard coin conditions => exact ⟨hcommits, hme⟩
  | cat spent conditions => exact ⟨hcommits, hme⟩

/-- What `analyze` makes of one emitted planned spend. -/
structure PlannedLeg (sdk : Sdk) (planned : PlannedSpend) (spend : CoinSpend) : Prop where
  coin_eq : spend.coin = planned.coin
  leg : ∃ signed sig, legOf sdk spend = some (planned.leg signed sig)
  admitted : Admitted sdk spend
  option : isOptionCoin sdk spend = false

theorem plannedLeg_standard (happart : sdk.StandardUnstructural) {key : PublicKey} {coin : Coin}
    {conditions : List Condition} {inner : Spend} {spend : CoinSpend}
    (hkey : sdk.standardCurryTreeHash key = coin.puzzleHash)
    (hinner : EmitsInner sdk key conditions inner) (hspend : EmitsStandard sdk coin inner spend)
    (hordinary : ∀ c ∈ conditions, Ordinary c) :
    PlannedLeg sdk (.standard coin conditions) spend := by
  obtain ⟨committed, sig, hcommitted, hrun, hsig⟩ := committed_of_emitsInner hinner
  have hcoin := hspend.coin_eq
  have hlauncher : coin.puzzleHash ≠ sdk.singletonLauncherHash := by
    intro heq
    have happart := happart key
    rw [hkey, heq] at happart
    simp [isProtocolSinkHash] at happart
  have hplain : Plain sdk coin inner.puzzle inner.solution :=
    ⟨⟨hspend.cat, hspend.option, hspend.underlying⟩, hlauncher, hspend.nft,
      decide_eq_false hspend.singleton⟩
  have hleg : legOf sdk spend =
      some (PlannedSpend.leg committed.conditions sig (.standard coin conditions)) := by
    refine legOf_eq_some.mpr ⟨inner.puzzle, inner.solution, hspend.reveal, hspend.solution, ?_⟩
    rw [hcoin]
    exact .standardSend hplain hinner.standard hcommitted hrun
  refine ⟨hcoin, ⟨_, _, hleg⟩, ⟨⟨inner.puzzle, hspend.reveal, ?_⟩, _, hleg, ?_⟩, ?_⟩
  · rw [hinner.hash, hkey, hcoin]
  · exact admitted_leg hsig hordinary
  · simp [isOptionCoin, hspend.reveal, hspend.solution, hcoin, hspend.option, hspend.underlying]

theorem plannedLeg_cat (hlayers : sdk.LayersDisjoint) {key : PublicKey} {spent : Cat}
    {conditions : List Condition} {inner : Spend} {spend : CoinSpend}
    (hkey : sdk.standardCurryTreeHash key = spent.info.p2PuzzleHash)
    (hhash : spent.coin.puzzleHash = drivers.catPuzzleHash spent.info)
    (hinner : EmitsInner sdk key conditions inner)
    (hspend : EmitsCat sdk drivers wrap ⟨spent, inner⟩ spend)
    (hordinary : ∀ c ∈ conditions, Ordinary c) : PlannedLeg sdk (.cat spent conditions) spend := by
  obtain ⟨committed, sig, hcommitted, hrun, hsig⟩ := committed_of_emitsInner hinner
  obtain ⟨puzzle, solution, hreveal, hsolution, hpuzzle, hcat, -⟩ := hspend.wraps
  have hcoin := hspend.coin_eq
  have hleg : legOf sdk spend =
      some (PlannedSpend.leg committed.conditions sig (.cat spent conditions)) := by
    refine legOf_eq_some.mpr ⟨puzzle, solution, hreveal, hsolution, ?_⟩
    refine .catSend hcat hinner.settlement hinner.standard hcommitted ?_
    rw [hinner.ptr]
    exact hrun
  refine ⟨hcoin, ⟨_, _, hleg⟩, ⟨⟨puzzle, hreveal, ?_⟩, _, hleg, ?_⟩, ?_⟩
  · rw [hpuzzle, hcoin, hhash, hinner.hash, hkey]
  · exact admitted_leg hsig hordinary
  · unfold isOptionCoin
    rw [hreveal, hsolution]
    -- a CAT is neither an option nor an option's underlying
    simp only [Bool.or_eq_false_iff]
    constructor
    · split
      · rename_i hoption
        exact absurd hcat (hlayers.cat_of_option hoption)
      · rfl
    · split
      · rename_i hunderlying
        exact absurd hcat (hlayers.cat_of_underlying hunderlying)
      · rfl

/-- The spends of a plan that balances are accounted as planned. -/
theorem plannedLegs_of_emitted (hdrivers : drivers.Emit sdk wrap) (hlayers : sdk.LayersDisjoint)
    (happart : sdk.StandardUnstructural) {builder : SdkSpendBuilder}
    (hinputs : builder.inputs.Honest sdk drivers) {request : BuildRequest} {plan : List PlannedSpend}
    {coinSpends : List CoinSpend} (hbalanced : Balanced sdk builder request plan)
    (hemitted : List.Forall₂ (Emitted sdk drivers wrap builder.inputs) plan coinSpends) :
    List.Forall₂ (PlannedLeg sdk) plan coinSpends := by
  have hplanned : ∀ planned ∈ plan, planned ∈ plan := fun _ h => h
  refine ((List.forall₂_and_left _ _).mpr ⟨hplanned, hemitted⟩).imp ?_
  rintro planned spend ⟨hmem, hemit⟩
  have hordinary := hbalanced.ordinary planned hmem
  cases hemit with
  | standard hkey hspend =>
    obtain ⟨inner, hinner, hemits⟩ := hdrivers.standard hspend
    exact plannedLeg_standard happart (hinputs.key hkey) (hdrivers.inner hinner) hemits hordinary
  | cat hkey hinner hspend =>
    obtain ⟨assetId, cats, hcats, hspent, -⟩ := hbalanced.cats hmem
    exact plannedLeg_cat hlayers (hinputs.key hkey) (hinputs.catHash hcats _ hspent)
      (hdrivers.inner hinner) hspend hordinary

/-! ## The bundle -/

section Bundle

variable {plan : List PlannedSpend} {coinSpends : List CoinSpend}
  (hplan : List.Forall₂ (PlannedLeg sdk) plan coinSpends)
include hplan

/-- What the legs say of the bundle, the planned spends say of the plan. -/
theorem map_legs {β : Type} {f : PlannedSpend → β} {g : Coin × Leg sdk → β}
    (h : ∀ planned ∈ plan, ∀ signed sig, g (planned.coin, planned.leg signed sig) = f planned) :
    (legs sdk coinSpends).map g = plan.map f := by
  induction hplan with
  | nil => rfl
  | cons hleg _ ih =>
    obtain ⟨signed, sig, hlegOf⟩ := hleg.leg
    rw [legs_cons hlegOf, List.map_cons, List.map_cons, hleg.coin_eq, h _ List.mem_cons_self,
      ih fun planned hmem => h planned (List.mem_cons_of_mem _ hmem)]

theorem flatMap_legs {β : Type} {f : PlannedSpend → List β} {g : Coin × Leg sdk → List β}
    (h : ∀ planned ∈ plan, ∀ signed sig, g (planned.coin, planned.leg signed sig) = f planned) :
    (legs sdk coinSpends).flatMap g = plan.flatMap f := by
  rw [List.flatMap_def, List.flatMap_def, map_legs hplan h]

omit hplan in
@[simp] theorem leg_asset? (planned : PlannedSpend) (signed : QuotedConditions sdk) (sig : AggSig) :
    (planned.leg signed sig).asset? = planned.asset? := by
  cases planned <;> rfl

omit hplan in
@[simp] theorem leg_creates (planned : PlannedSpend) (signed : QuotedConditions sdk) (sig : AggSig) :
    (planned.leg signed sig).creates = planned.creates := by
  cases planned <;> rfl

theorem createdBy_legs : createdBy (legs sdk coinSpends) = plannedOutputs plan := by
  refine flatMap_legs hplan fun planned _ signed sig => ?_
  simp [Leg.created, PlannedSpend.outputs, outputsOf, createdPairs, PlannedSpend.creates]

theorem amountIn_legs (asset? : Option Bytes32) :
    amountIn asset? (legs sdk coinSpends) = plannedIn asset? plan := by
  refine congrArg List.sum (map_legs hplan fun planned _ signed sig => ?_)
  rw [leg_asset?]

theorem amountOut_legs (asset? : Option Bytes32) :
    amountOut asset? (legs sdk coinSpends) = plannedOut asset? plan := by
  refine congrArg List.sum (map_legs hplan fun planned _ signed sig => ?_)
  simp [Leg.amountCreated, PlannedSpend.amountCreated, createdPairs, pairsTotal, total,
    PlannedSpend.creates, Function.comp_def]

theorem reservedFees_legs
    (hcats : ∀ spent conditions, .cat spent conditions ∈ plan → reserved conditions = 0) :
    reservedFees (legs sdk coinSpends) = plannedFee plan := by
  refine congrArg List.sum (map_legs hplan fun planned hmem signed sig => ?_)
  cases planned with
  | standard coin conditions => rfl
  | cat spent conditions => exact (hcats spent conditions hmem).symm

theorem destroyedMojos_legs : destroyedMojos (legs sdk coinSpends) = 0 := by
  have hzero : (legs sdk coinSpends).map (fun p => p.2.destroyed p.1) = plan.map fun _ => 0 :=
    map_legs hplan fun planned _ signed sig => by cases planned <;> rfl
  rw [destroyedMojos, hzero]
  simp

/-- A list no class of the builders adds to is empty. -/
theorem facts_eq_nil {β : Type} (f : Tally → List β) (h0 : f 0 = [])
    (hadd : ∀ a b, f (a + b) = f a ++ f b) (hids : ∀ ids, f { spentCoinIds := ids } = [])
    (hfacts : ∀ (coin : Coin) (leg : Leg sdk), f (leg.tally coin) = f (leg.factsTally coin))
    (h : ∀ (planned : PlannedSpend) (signed : QuotedConditions sdk) sig,
      f ((planned.leg signed sig).factsTally planned.coin) = []) :
    f (bundleTally sdk coinSpends) = [] := by
  rw [bundleTally_facts coinSpends f h0 hadd hids hfacts,
    flatMap_legs (f := fun _ => []) hplan fun planned _ => h planned]
  simp

theorem mem_planLegs {p : Coin × Leg sdk} (hp : p ∈ legs sdk coinSpends) :
    ∃ planned ∈ plan, ∃ signed sig, p = (planned.coin, planned.leg signed sig) := by
  induction hplan with
  | nil => cases hp
  | cons hleg _ ih =>
    obtain ⟨signed, sig, hlegOf⟩ := hleg.leg
    rw [legs_cons hlegOf, hleg.coin_eq] at hp
    rcases List.mem_cons.mp hp with rfl | hp
    · exact ⟨_, List.mem_cons_self, signed, sig, rfl⟩
    · obtain ⟨planned, hmem, hrest⟩ := ih hp
      exact ⟨planned, List.mem_cons_of_mem _ hmem, hrest⟩

/-- The bindings are those of the legs, one for each. -/
theorem bindings_legs : (bundleTally sdk coinSpends).bindings =
    (legs sdk coinSpends).map fun p => coinBinding sdk p.1 p.2.conditions := by
  rw [bundleTally_facts coinSpends Tally.bindings rfl Tally.add_bindings (fun _ => rfl)
    fun coin leg => by simp [tally_facts], List.map_eq_flatMap]
  refine List.flatMap_congr fun p hp => ?_
  obtain ⟨planned, -, signed, sig, rfl⟩ := mem_planLegs hplan hp
  cases planned <;> rfl

/-- No planned spend carries an announcement. -/
theorem carriesAnnouncement_eq_false (hordinary : ∀ planned ∈ plan, ∀ c ∈ planned.conditions, Ordinary c)
    {b : CoinBinding} (hb : b ∈ (bundleTally sdk coinSpends).bindings) :
    b.carriesAnnouncement = false := by
  rw [bindings_legs hplan] at hb
  obtain ⟨p, hp, rfl⟩ := List.mem_map.mp hb
  obtain ⟨planned, hmem, signed, sig, rfl⟩ := mem_planLegs hplan hp
  have hconditions : (planned.leg signed sig).conditions = .aggSigMe sig :: planned.conditions := by
    cases planned <;> rfl
  show hasOfferBindingAssertion (planned.leg signed sig).conditions = false
  rw [hconditions, hasOfferBindingAssertion, List.any_eq_false]
  intro c hc
  rcases List.mem_cons.mp hc with rfl | hc
  · simp
  · cases hordinary planned hmem c hc <;> simp

/-- Settlement binds exactly the plans that create no structural coin. -/
theorem settlement_iff (hordinary : ∀ planned ∈ plan, ∀ c ∈ planned.conditions, Ordinary c) :
    enforceBundleSettlementBinding (bundleTally sdk coinSpends).bindings = .ok () ↔
      ∀ output ∈ plannedOutputs plan, isProtocolSinkHash sdk output.puzzleHash = false := by
  have hcarries := fun b hb => carriesAnnouncement_eq_false hplan hordinary (b := b) hb
  have hsinks : (∀ b ∈ (bundleTally sdk coinSpends).bindings, b.createsSink = false) ↔
      ∀ output ∈ plannedOutputs plan, isProtocolSinkHash sdk output.puzzleHash = false := by
    rw [bindings_legs hplan, ← createdBy_legs hplan, createdBy]
    simp only [List.mem_map, List.mem_flatMap, forall_exists_index, and_imp, forall_apply_eq_imp_iff₂,
      coinBinding, List.any_eq_false, Leg.created, Leg.creates, Bool.not_eq_true]
    constructor
    · intro h output p hp create hcreate heq
      rw [← heq]
      exact h p hp create hcreate
    · intro h p hp create hcreate
      exact h _ p hp create hcreate rfl
  rw [← hsinks]
  constructor
  · intro h b hb
    unfold enforceBundleSettlementBinding at h
    rw [require_eq_ok, List.all_eq_true] at h
    obtain ⟨i, hi, rfl⟩ := List.getElem_of_mem hb
    have htied := h ⟨i, hi⟩ (List.mem_finRange _)
    by_contra hsink
    rw [Bool.or_eq_true, Bool.not_eq_true', tiedToAnnouncement, Search.search_iff] at htied
    obtain hnot | ⟨t, -, ht⟩ := htied
    · exact hsink hnot
    · have hfalse := hcarries _ (List.getElem_mem t.isLt)
      exact absurd (ht.symm.trans hfalse) (by simp)
  · intro h
    refine enforceBundleSettlementBinding_of_carries fun b hb hsink => ?_
    rw [h b hb] at hsink
    cases hsink

/-- The fields the builders' classes leave empty. -/
theorem noFacts : (bundleTally sdk coinSpends).launcherParents = [] ∧
    (bundleTally sdk coinSpends).eveParents = [] ∧
    (bundleTally sdk coinSpends).nftOperations = [] ∧
    (bundleTally sdk coinSpends).meltedSingletons = [] := by
  refine ⟨?_, ?_, ?_, ?_⟩
  · exact facts_eq_nil hplan Tally.launcherParents rfl Tally.add_launcherParents (fun _ => rfl)
      (fun coin leg => by simp [tally_facts]) fun planned signed sig => by cases planned <;> rfl
  · exact facts_eq_nil hplan Tally.eveParents rfl Tally.add_eveParents (fun _ => rfl)
      (fun coin leg => by simp [tally_facts]) fun planned signed sig => by cases planned <;> rfl
  · exact facts_eq_nil hplan Tally.nftOperations rfl Tally.add_nftOperations (fun _ => rfl)
      (fun coin leg => by simp [tally_facts]) fun planned signed sig => by cases planned <;> rfl
  · exact facts_eq_nil hplan Tally.meltedSingletons rfl Tally.add_meltedSingletons (fun _ => rfl)
      (fun coin leg => by simp [tally_facts]) fun planned signed sig => by cases planned <;> rfl

/-- Without a structural coin every planned output is reported, and nothing else. -/
theorem reported_of_unstructural
    (h : ∀ output ∈ plannedOutputs plan, isProtocolSinkHash sdk output.puzzleHash = false) :
    (bundleTally sdk coinSpends).outputs = plannedOutputs plan ∧
      (bundleTally sdk coinSpends).protocolSink = [] := by
  rw [bundleTally_outputs, bundleTally_protocolSink, createdBy_legs hplan]
  constructor
  · exact List.filter_eq_self.mpr fun output ho => by simp [h output ho]
  · exact List.filter_eq_nil_iff.mpr fun output ho => by simp [h output ho]

theorem isOptionBundle_eq_false : isOptionBundle sdk coinSpends = false := by
  rw [isOptionBundle, List.any_eq_false]
  intro spend hspend
  obtain ⟨planned, -, hleg⟩ := exists_mem_left hplan hspend
  simp [hleg.option]

section Balanced

variable {builder : SdkSpendBuilder} {request : BuildRequest}
  (hbalanced : Balanced sdk builder request plan)
include hbalanced

theorem fee_planned : (bundleTally sdk coinSpends).fee = request.fee.toNat := by
  rw [bundleTally_fee, reservedFees_legs hplan fun spent conditions hmem => ?_, hbalanced.fee]
  obtain ⟨_, _, -, -, hzero⟩ := hbalanced.cats hmem
  exact hzero

/-- The tally of a balanced plan fits when what it spends does. -/
theorem fits_planned (hfits : ∀ asset?, plannedIn asset? plan < 2 ^ 64) :
    (bundleTally sdk coinSpends).Fits := by
  have hconserves := hbalanced.conserves hfits
  refine (fits_bundleTally coinSpends).mpr ⟨?_, ?_, ?_, ?_⟩
  · intro asset?
    rw [amountIn_legs hplan]
    exact hfits asset?
  · intro asset?
    have hle := hconserves asset?
    have hlt := hfits asset?
    rw [amountOut_legs hplan]
    show _ < 2 ^ 64
    omega
  · have hxch := hconserves none
    have hlt := hfits none
    rw [if_pos rfl] at hxch
    rw [← bundleTally_fee, fee_planned hplan hbalanced]
    show _ < 2 ^ 64
    omega
  · rw [destroyedMojos_legs hplan]
    decide

/-- **What `analyze` makes of a balanced plan**: it accepts when the totals fit and no structural coin
is created, and then reports the planned outputs and the fee. -/
theorem analyze_planned_iff (hne : coinSpends ≠ []) {effect : SpendEffect} :
    analyze sdk coinSpends = .ok effect ↔ (∀ asset?, plannedIn asset? plan < 2 ^ 64) ∧
      (∀ output ∈ plannedOutputs plan, isProtocolSinkHash sdk output.puzzleHash = false) ∧
      effect = ⟨plannedOutputs plan, [], request.fee, [], []⟩ := by
  have hfee := fee_planned hplan hbalanced
  have hmelted : (bundleTally sdk coinSpends).melted = 0 := by
    rw [bundleTally_melted, destroyedMojos_legs hplan]
  obtain ⟨hlaunchers, heves, hnfts, hmelts⟩ := noFacts hplan
  rw [analyze_eq_ok]
  constructor
  · intro h
    have hfits := ((fits_bundleTally coinSpends).mp h.fits).1
    simp only [amountIn_legs hplan] at hfits
    have hsinks := (settlement_iff hplan hbalanced.ordinary).mp h.settlement
    refine ⟨hfits, hsinks, ?_⟩
    obtain ⟨houtputs, hsink⟩ := reported_of_unstructural hplan hsinks
    have hxch := h.xch
    rw [isOptionBundle_eq_false hplan] at hxch
    have hfeeEq := hxch.2
    simp only [Bool.false_eq_true, if_false, hfee, hmelted, Nat.add_zero] at hfeeEq
    have houtputs := h.outputs.trans houtputs
    have hsink := h.protocolSink.trans hsink
    have hops := h.nftOperations.trans hnfts
    have hmelt := h.meltedSingletons.trans hmelts
    obtain ⟨outputs, sinks, fee, ops, melts⟩ := effect
    simp only at houtputs hsink hops hmelt hfeeEq
    rw [houtputs, hsink, hops, hmelt, UInt64.toNat_inj.mp hfeeEq]
  · rintro ⟨hfits, hsinks, rfl⟩
    have hconserves := hbalanced.conserves hfits
    obtain ⟨houtputs, hsink⟩ := reported_of_unstructural hplan hsinks
    refine ⟨hne, ?_, fits_planned hplan hbalanced hfits, .inl ⟨hlaunchers, heves⟩,
      (settlement_iff hplan hbalanced.ordinary).mpr hsinks, ?_, ?_, houtputs.symm, hsink.symm,
      hnfts.symm, hmelts.symm⟩
    · intro spend hspend
      obtain ⟨planned, -, hleg⟩ := exists_mem_left hplan hspend
      exact hleg.admitted
    · have hxch := hconserves none
      rw [if_pos rfl] at hxch
      rw [isOptionBundle_eq_false hplan]
      refine ⟨?_, ?_⟩
      · rw [bundleTally_xchIn, bundleTally_xchOut, amountIn_legs hplan, amountOut_legs hplan]
        exact hxch
      · simp [hfee, hmelted]
    · intro asset
      have hcat := hconserves (some asset)
      rw [bundleTally_catIn, bundleTally_catOut, amountIn_legs hplan, amountOut_legs hplan]
      simpa using hcat

end Balanced

end Bundle

end

end DigWallet
