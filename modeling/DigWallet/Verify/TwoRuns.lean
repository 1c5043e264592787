import DigWallet.SimLaws
import DigWallet.Verify.Conservation
import DigWallet.Verify.Signed

/-!
# DigWallet.Verify.TwoRuns — one signature, one meaning

`meaning`: what a signed quoted list authorizes for a coin of a signed class.  `attribution_eq_meaning`:
`analyze` attributes exactly that, whatever the solution.  `attribution_eq_of_sole`: two accepted
bundles that spend one coin under one message attribute the same to it.
-/

namespace DigWallet

variable {sdk : Sdk}

/-! ## Classes and attributions -/

/-- The signed classes, with the id curried into the coin's puzzle. -/
inductive SignedClass
  | catSend (asset : Bytes32)
  | optionTransfer
  | nftTransfer (launcherId : Bytes32)
  | melt
  | standardSend
deriving DecidableEq

def Leg.signedClass? : Leg sdk → Option SignedClass
  | catSend asset _ _ => some (.catSend asset)
  | optionTransfer _ _ => some .optionTransfer
  | nftTransfer launcherId _ _ _ => some (.nftTransfer launcherId)
  | melt _ _ => some .melt
  | standardSend _ _ => some .standardSend
  | _ => none

/-- What the review shows of one signed coin. -/
inductive Attribution
  | send (outputs protocolSink : List DecodedOutput) (fee : ℕ)
  | rehome (output : List DecodedOutput)
  | transfer (operation : List NftOperation)
  | destroy (coinIds : List Bytes32) (mojos : ℕ)
  | unsigned
deriving DecidableEq

/-- The attribution, read off what the leg adds to the ledger. -/
def Leg.attribution (coin : Coin) (leg : Leg sdk) : Attribution :=
  let added := leg.tally coin
  match leg with
  | catSend _ _ _ | standardSend _ _ => .send added.outputs added.protocolSink added.fee
  | optionTransfer _ _ => .rehome added.outputs
  | nftTransfer _ _ _ _ => .transfer added.nftOperations
  | melt _ _ => .destroy added.meltedSingletons added.melted
  | _ => .unsigned

variable (sdk) in
/-- The coins a condition list creates, apart from the sinks (`sinks = false`) or the sinks alone. -/
def createdIn (asset? : Option Bytes32) (sinks : Bool) (conditions : List Condition) :
    List DecodedOutput :=
  ((conditions.filterMap Condition.asCreateCoin).map
    fun create => ⟨create.puzzleHash, create.amount, asset?⟩).filter
    fun output => isProtocolSinkHash sdk output.puzzleHash = sinks

def reservedIn (conditions : List Condition) : ℕ :=
  ((conditions.filterMap Condition.asReserveFee).map UInt64.toNat).sum

variable (sdk) in
/-- What the quoted list `signed` authorizes for `coin`. -/
def meaning (coin : Coin) (signed : List Condition) : SignedClass → Attribution
  | .catSend asset =>
    .send (createdIn sdk (some asset) false signed) (createdIn sdk (some asset) true signed) 0
  | .standardSend =>
    .send (createdIn sdk none false signed) (createdIn sdk none true signed) (reservedIn signed)
  | .optionTransfer => .rehome (createdIn sdk none false signed)
  | .nftTransfer launcherId => .transfer
    ((signed.filterMap Condition.asCreateCoin).head?.toList.map
      fun create => .transfer launcherId create.puzzleHash)
  | .melt => .destroy [sdk.coinId coin] coin.amount.toNat

/-! ## A class is read off the puzzle -/

/-- The signed class by the drivers' answers, in dispatch order. -/
def classOf (asset? : Option Bytes32) (isOption : Bool) (launcher? : Option Bytes32)
    (isSingleton : Bool) : SignedClass :=
  match asset? with
  | some asset => .catSend asset
  | none =>
    if isOption then .optionTransfer
    else match launcher? with
      | some launcherId => .nftTransfer launcherId
      | none => if isSingleton then .melt else .standardSend

theorem signedClass_unique (hdrivers : sdk.DriversReadPuzzle) {coin : Coin}
    {puzzlePtr solutionPtr solutionPtr' : Node} {leg leg' : Leg sdk}
    (h : Classifies sdk coin puzzlePtr solutionPtr leg)
    (h' : Classifies sdk coin puzzlePtr solutionPtr' leg')
    (hsigned : leg.signed?.isSome = true) (hsigned' : leg'.signed?.isSome = true) :
    ∃ cls, leg.signedClass? = some cls ∧ leg'.signedClass? = some cls := by
  obtain ⟨asset, hasset⟩ := hdrivers.cat
  obtain ⟨isOption, hoption⟩ := hdrivers.option
  obtain ⟨launcher, hlauncher⟩ := hdrivers.nft
  have key : ∀ {solution : Node} {leg : Leg sdk}, Classifies sdk coin puzzlePtr solution leg →
      leg.signed?.isSome = true → leg.signedClass? = some (classOf (asset (sdk.parsePuzzle puzzlePtr))
        (isOption (sdk.parsePuzzle puzzlePtr)) (launcher (sdk.parsePuzzle puzzlePtr))
        (isSingletonPuzzle sdk (sdk.parsePuzzle puzzlePtr))) := by
    intro solution leg hleg hsome
    cases hleg with
    | catSend hcat _ _ _ _ =>
      rw [← hasset hcat]
      rfl
    | optionTransfer hcat hopt _ _ _ =>
      rw [← hasset hcat, ← hoption hopt]
      rfl
    | nftTransfer hplain _ hnft _ _ _ _ _ =>
      rw [← hasset hplain.cat, ← hoption hplain.option, ← hlauncher hnft]
      rfl
    | melt hplain _ hnft hsingleton _ _ _ =>
      rw [← hasset hplain.cat, ← hoption hplain.option, ← hlauncher hnft, hsingleton]
      rfl
    | standardSend hplain _ _ _ =>
      rw [← hasset hplain.cat, ← hoption hplain.option, ← hlauncher hplain.nft, hplain.singleton]
      rfl
    | _ => cases hsome
  exact ⟨_, key h hsigned, key h' hsigned'⟩

/-! ## The attribution is the meaning -/

theorem createdIn_append_own {own signed : List Condition} {sig : AggSig}
    (hown : own = [] ∨ own = [.aggSigMe sig]) (asset? : Option Bytes32) (sinks : Bool) :
    createdIn sdk asset? sinks (own ++ signed) = createdIn sdk asset? sinks signed := by
  rcases hown with rfl | rfl <;> rfl

theorem reservedIn_append_own {own signed : List Condition} {sig : AggSig}
    (hown : own = [] ∨ own = [.aggSigMe sig]) : reservedIn (own ++ signed) = reservedIn signed := by
  rcases hown with rfl | rfl <;> rfl

theorem tally_outputs_createdIn (coin : Coin) (leg : Leg sdk) :
    (leg.tally coin).outputs = createdIn sdk leg.asset? false leg.conditions := by
  rw [tally_outputs]
  exact List.filter_congr fun output _ => by cases isProtocolSinkHash sdk output.puzzleHash <;> rfl

theorem tally_protocolSink_createdIn (coin : Coin) (leg : Leg sdk) :
    (leg.tally coin).protocolSink = createdIn sdk leg.asset? true leg.conditions := by
  rw [tally_protocolSink]
  exact List.filter_congr fun output _ => by cases isProtocolSinkHash sdk output.puzzleHash <;> rfl

/-- **Whatever the solution, the attribution is the meaning of the quoted list.** -/
theorem attribution_eq_meaning (hstandard : sdk.StandardLayer) {coin : Coin}
    {puzzlePtr solutionPtr : Node} {leg : Leg sdk} {signed : QuotedConditions sdk}
    {cls : SignedClass} (h : Classifies sdk coin puzzlePtr solutionPtr leg)
    (hsigned : leg.signed? = some signed) (hcls : leg.signedClass? = some cls) :
    leg.attribution coin = meaning sdk coin signed.conditions cls := by
  cases h with
  | @catSend cat publicKey committed conditions _ _ hpuzzle hcommitted hrun =>
    cases hsigned
    cases hcls
    obtain ⟨own, hown, rfl⟩ := standard_run hstandard hpuzzle hcommitted hrun
    simp only [Leg.attribution, meaning, tally_outputs_createdIn, tally_protocolSink_createdIn,
      Leg.conditions, Leg.asset?, createdIn_append_own hown, tally_fee, Leg.factsTally]
  | @optionTransfer innerPuzzle innerSolution publicKey committed conditions _ _ hpuzzle hcommitted
      hrun =>
    cases hsigned
    cases hcls
    obtain ⟨own, hown, rfl⟩ := standard_run hstandard hpuzzle hcommitted hrun
    simp only [Leg.attribution, meaning, tally_outputs_createdIn, Leg.conditions, Leg.asset?,
      createdIn_append_own hown]
  | nftTransfer _ _ _ _ _ _ hcreate _ =>
    cases hsigned
    cases hcls
    simp only [Leg.attribution, meaning, tally_nftOperations, Leg.factsTally, hcreate,
      Option.toList_some, List.map_cons, List.map_nil]
  | melt _ _ _ _ _ _ _ =>
    cases hsigned
    cases hcls
    simp only [Leg.attribution, meaning, tally_melted, tally_meltedSingletons, Leg.factsTally]
  | @standardSend publicKey committed conditions _ hpuzzle hcommitted hrun =>
    cases hsigned
    cases hcls
    rw [← hstandard.parsed puzzlePtr] at hrun
    obtain ⟨own, hown, rfl⟩ := standard_run hstandard hpuzzle hcommitted hrun
    simp only [Leg.attribution, meaning, tally_outputs_createdIn, tally_protocolSink_createdIn,
      Leg.conditions, Leg.asset?, createdIn_append_own hown, tally_fee, Leg.factsTally]
    exact congrArg _ (reservedIn_append_own hown)
  | _ => cases hsigned

/-! ## Two runs -/

variable (sdk) in
/-- The trees whose hashes a bundle commits to: its reveals and its quoted puzzles. -/
def committedNodes (coinSpends : List CoinSpend) : List Node :=
  (coinSpends.filterMap fun spend => (sdk.nodeFromBytes spend.puzzleReveal).toOption) ++
    (legs sdk coinSpends).filterMap fun p => p.2.signed?.map QuotedConditions.puzzle

theorem reveal_mem_committedNodes {coinSpends : List CoinSpend} {spend : CoinSpend} {node : Node}
    (hspend : spend ∈ coinSpends) (hreveal : sdk.nodeFromBytes spend.puzzleReveal = .ok node) :
    node ∈ committedNodes sdk coinSpends := by
  refine List.mem_append_left _ (List.mem_filterMap.mpr ⟨spend, hspend, ?_⟩)
  exact toOption_eq_some.mpr hreveal

theorem quoted_mem_committedNodes {coinSpends : List CoinSpend} {p : Coin × Leg sdk}
    {signed : QuotedConditions sdk} (hp : p ∈ legs sdk coinSpends)
    (hsigned : p.2.signed? = some signed) : signed.puzzle ∈ committedNodes sdk coinSpends := by
  refine List.mem_append_right _ (List.mem_filterMap.mpr ⟨p, hp, ?_⟩)
  rw [hsigned]
  rfl

/-- A leg's classification, with the reveal it is of. -/
theorem exists_classifies {coinSpends : List CoinSpend} {effect : SpendEffect}
    (h : Accepts sdk coinSpends effect) {p : Coin × Leg sdk} (hp : p ∈ legs sdk coinSpends) :
    ∃ puzzlePtr solutionPtr, puzzlePtr ∈ committedNodes sdk coinSpends ∧
      sdk.treeHash puzzlePtr = p.1.puzzleHash ∧ Classifies sdk p.1 puzzlePtr solutionPtr p.2 := by
  obtain ⟨spend, hspend, hcoin, hleg⟩ := mem_legs.mp hp
  obtain ⟨⟨revealed, hrevealed, hhash⟩, -⟩ := h.admitted spend hspend
  obtain ⟨puzzlePtr, solutionPtr, hreveal, -, hclass⟩ := legOf_eq_some.mp hleg
  obtain rfl := Except.ok.inj (hrevealed.symm.trans hreveal)
  rw [hcoin] at hhash hclass
  exact ⟨revealed, solutionPtr, reveal_mem_committedNodes hspend hreveal, hhash, hclass⟩

/-- **One signature, one meaning.** -/
theorem attribution_eq_of_sole (sdk : Sdk) (hstandard : sdk.StandardLayer)
    (hdrivers : sdk.DriversReadPuzzle) (coinSpends coinSpends' : List CoinSpend)
    (effect effect' : SpendEffect) (h : analyze sdk coinSpends = .ok effect)
    (h' : analyze sdk coinSpends' = .ok effect')
    (hinj : sdk.CollisionFree (committedNodes sdk coinSpends ++ committedNodes sdk coinSpends'))
    (p p' : Coin × Leg sdk) (hp : p ∈ legs sdk coinSpends) (hp' : p' ∈ legs sdk coinSpends')
    (hcoin : p.1 = p'.1) (message : Bytes32)
    (hsole : soleAggSigMeMessage p.2.conditions = .ok message)
    (hsole' : soleAggSigMeMessage p'.2.conditions = .ok message) :
    p.2.attribution p.1 = p'.2.attribution p'.1 ∧
      ∃ cls, p.2.signedClass? = some cls ∧ p'.2.signedClass? = some cls := by
  have haccepts := (analyze_eq_ok sdk).mp h
  have haccepts' := (analyze_eq_ok sdk).mp h'
  obtain ⟨signed, hsigned, hmessage⟩ :=
    (legs_admitted haccepts.admitted p hp).signed_of_sole hsole
  obtain ⟨signed', hsigned', hmessage'⟩ :=
    (legs_admitted haccepts'.admitted p' hp').signed_of_sole hsole'
  obtain ⟨puzzlePtr, solutionPtr, hmem, hhash, hclass⟩ := exists_classifies haccepts hp
  obtain ⟨puzzlePtr', solutionPtr', hmem', hhash', hclass'⟩ := exists_classifies haccepts' hp'
  -- one coin has one puzzle
  have hpuzzle : puzzlePtr = puzzlePtr' := by
    refine hinj _ (List.mem_append_left _ hmem) _ (List.mem_append_right _ hmem') ?_
    rw [hhash, hhash', hcoin]
  -- one message has one quoted puzzle
  have hquoted : signed.puzzle = signed'.puzzle := by
    refine hinj _ (List.mem_append_left _ (quoted_mem_committedNodes hp hsigned)) _
      (List.mem_append_right _ (quoted_mem_committedNodes hp' hsigned')) ?_
    rw [← hmessage, ← hmessage']
  rw [← hpuzzle, ← hcoin] at hclass'
  obtain ⟨cls, hcls, hcls'⟩ := signedClass_unique hdrivers hclass hclass' (by rw [hsigned]; rfl)
    (by rw [hsigned']; rfl)
  refine ⟨?_, cls, hcls, hcls'⟩
  rw [← hcoin, attribution_eq_meaning hstandard hclass hsigned hcls,
    attribution_eq_meaning hstandard hclass' hsigned' hcls',
    QuotedConditions.conditions_eq hquoted]

section Witness

open Sim

/-- `sendBundle` with another solution for its delegated puzzle. -/
def resolvedBundle : List CoinSpend :=
  [spendOf (.rep 1) (standardPuzzle walletKey) 100
    (Sim.list [nil, quote [createCoin (.rep 7) 60, createCoin home 30, reserveFee 10], num 5])]

set_option maxRecDepth 8000 in
theorem attribution_eq_of_sole_sendBundle :
    ∃ p ∈ legs sim sendBundle, ∃ p' ∈ legs sim resolvedBundle,
      p.2.attribution p.1 = p'.2.attribution p'.1 := by
  obtain ⟨p, hp⟩ : ∃ p, p ∈ legs sim sendBundle := ⟨_, List.mem_singleton.mpr rfl⟩
  obtain ⟨p', hp'⟩ : ∃ p', p' ∈ legs sim resolvedBundle := ⟨_, List.mem_singleton.mpr rfl⟩
  refine ⟨p, hp, p', hp', (attribution_eq_of_sole sim standardLayer driversReadPuzzle sendBundle
    resolvedBundle ⟨[⟨.rep 7, 60, none⟩, ⟨home, 30, none⟩], [], 10, [], []⟩
    ⟨[⟨.rep 7, 60, none⟩, ⟨home, 30, none⟩], [], 10, [], []⟩ rfl rfl (by decide +kernel) p p' hp hp'
    ?_ (treeHash (quote [createCoin (.rep 7) 60, createCoin home 30, reserveFee 10])) ?_ ?_).1⟩
  · obtain rfl := List.mem_singleton.mp hp
    obtain rfl := List.mem_singleton.mp hp'
    rfl
  · obtain rfl := List.mem_singleton.mp hp
    rfl
  · obtain rfl := List.mem_singleton.mp hp'
    rfl

end Witness

end DigWallet
