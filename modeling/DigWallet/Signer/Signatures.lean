import DigWallet.Signer.SignedValue
import DigWallet.Signer.Sign
import DigWallet.Verify.Signed

/-!
# DigWallet.Signer.Signatures — what `sign_unsigned` signs

The gate counts `AGG_SIG_ME` on the list a coin's class reads; the signing list is extracted again,
from the coin's outer run.  `quotes_signed_iff`: the signer signs each signed coin's quoted puzzle and
nothing else exactly when no TAIL that a CAT of the bundle runs emits a signature condition.
-/

namespace DigWallet

open Sorting

/-! ## Outer runs -/

section Extraction

variable (sdk : Sdk) (genesis : Bytes32)

/-- The requirement of one signature condition of `coin`. -/
inductive RequiredFor (coin : Coin) : Condition → SdkRequiredSignature → Prop
  | me (sig : AggSig) : RequiredFor coin (.aggSigMe sig)
      (.bls sig.publicKey (sig.message ++ (sdk.coinId coin).bytes ++ genesis.bytes) (some genesis))
  | other {condition publicKey message domainString} (hcondition : isNonMeAggSig condition = true)
      (hdomain : domainString ≠ some genesis) :
      RequiredFor coin condition (.bls publicKey message domainString)

/-- One requirement for each signature condition of the spend's outer run. -/
def RequiredOf (spend : CoinSpend) (requirements : List SdkRequiredSignature) : Prop :=
  ∃ puzzlePtr solutionPtr outer, sdk.nodeFromBytes spend.puzzleReveal = .ok puzzlePtr ∧
    sdk.nodeFromBytes spend.solution = .ok solutionPtr ∧
    sdk.conditionsOf puzzlePtr solutionPtr = .ok outer ∧
    List.Forall₂ (RequiredFor sdk genesis spend.coin) (outer.filter isAggSig) requirements

/-- The extractor reads outer runs.  A CAT's outer run has the signature conditions of the inner run
and, when that carries `RUN_CAT_TAIL`, those its TAIL emits; an option's has those of the inner run.

`cat` sees the `RUN_CAT_TAIL` the SDK decodes: a raw form that it decodes as another condition, and the
layer runs all the same, is excluded here.  So are secp requirements, which `RequiredFor` lacks. -/
structure OuterRuns (tail : CoinSpend → List Condition) : Prop where
  required : ∀ {coinSpends genesis extracted}, sdk.fromCoinSpends coinSpends genesis = .ok extracted →
    ∃ parts, extracted = parts.flatten ∧ List.Forall₂ (RequiredOf sdk genesis) coinSpends parts
  cat : ∀ {spend puzzlePtr solutionPtr cat inner outer},
    sdk.nodeFromBytes spend.puzzleReveal = .ok puzzlePtr →
    sdk.nodeFromBytes spend.solution = .ok solutionPtr →
    sdk.catParse spend.coin (sdk.parsePuzzle puzzlePtr) solutionPtr = .ok (some cat) →
    sdk.conditionsOf cat.p2Puzzle.ptr cat.p2Solution = .ok inner →
    sdk.conditionsOf puzzlePtr solutionPtr = .ok outer →
    (outer.filter isAggSig).Perm
      ((inner ++ if .runCatTail ∈ inner then tail spend else []).filter isAggSig)
  option : ∀ {coin puzzlePtr solutionPtr innerPuzzle innerSolution inner outer},
    sdk.optionContractParse coin (sdk.parsePuzzle puzzlePtr) solutionPtr =
      .ok (some (innerPuzzle, innerSolution)) →
    sdk.conditionsOf innerPuzzle.ptr innerSolution = .ok inner →
    sdk.conditionsOf puzzlePtr solutionPtr = .ok outer →
    (outer.filter isAggSig).Perm (inner.filter isAggSig)

variable (tail : CoinSpend → List Condition)

/-- What the TAIL of a coin spend emits: nothing unless the coin is a CAT that runs it. -/
def tailConditions (spend : CoinSpend) : List Condition :=
  (legOf sdk spend).elim [] fun leg =>
    if leg.asset?.isSome ∧ .runCatTail ∈ leg.conditions then tail spend else []

end Extraction

section Signatures

variable {sdk : Sdk} {genesis : Bytes32} {tail : CoinSpend → List Condition}

/-- The outer run has the signature conditions of the list the class reads and of the TAIL. -/
theorem OuterRuns.outer_perm (houter : OuterRuns sdk tail) {spend : CoinSpend}
    {puzzlePtr solutionPtr : Node} {leg : Leg sdk} {outer : List Condition}
    (hpuzzle : sdk.nodeFromBytes spend.puzzleReveal = .ok puzzlePtr)
    (hsolution : sdk.nodeFromBytes spend.solution = .ok solutionPtr)
    (hleg : Classifies sdk spend.coin puzzlePtr solutionPtr leg)
    (hrun : sdk.conditionsOf puzzlePtr solutionPtr = .ok outer) :
    (outer.filter isAggSig).Perm
      ((leg.conditions ++ tailConditions sdk tail spend).filter isAggSig) := by
  have hlegOf : legOf sdk spend = some leg :=
    legOf_eq_some.mpr ⟨puzzlePtr, solutionPtr, hpuzzle, hsolution, hleg⟩
  have htail : tailConditions sdk tail spend =
      if leg.asset?.isSome ∧ .runCatTail ∈ leg.conditions then tail spend else [] := by
    rw [tailConditions, hlegOf, Option.elim_some]
  rw [htail]
  have hsame : ∀ {conditions}, runConditions sdk puzzlePtr solutionPtr = .ok conditions →
      outer = conditions :=
    fun h => Except.ok.inj (hrun.symm.trans (runConditions_eq_ok.mp h))
  cases hleg with
  | catClaim hcat _ hinner | catSend hcat _ _ _ hinner =>
    have hperm := houter.cat hpuzzle hsolution hcat (runConditions_eq_ok.mp hinner) hrun
    simpa [Leg.asset?, Leg.conditions] using hperm
  | optionTransfer _ hoption _ _ hinner =>
    have hperm := houter.option hoption (runConditions_eq_ok.mp hinner) hrun
    simpa [Leg.asset?, Leg.conditions] using hperm
  | launch _ _ hinner | eveMint _ _ _ _ _ _ hinner | nftTransfer _ _ _ _ _ _ _ hinner
  | melt _ _ _ _ hinner _ _ | standardSend _ _ _ hinner | settlementClaim _ _ _ hinner =>
    rw [hsame hinner]
    simp [Leg.asset?, Leg.conditions]

/-! ## The signing list -/

/-- The messages the `AGG_SIG_ME`s of `coin` bind. -/
def boundSignatures (sdk : Sdk) (genesis : Bytes32) (coin : Coin) (conditions : List Condition) :
    List RequiredSignature :=
  (conditions.filterMap Condition.asAggSigMe).map fun sig =>
    ⟨sig.publicKey, sig.message ++ (sdk.coinId coin).bytes ++ genesis.bytes⟩

/-- The message a signed coin's quoted puzzle calls for. -/
def quoteSignature (sdk : Sdk) (genesis : Bytes32) (p : Coin × Leg sdk) :
    Option RequiredSignature := do
  let signed ← p.2.signed?
  let sig ← (p.2.conditions.filterMap Condition.asAggSigMe).head?
  return ⟨sig.publicKey,
    (sdk.treeHash signed.puzzle).bytes ++ (sdk.coinId p.1).bytes ++ genesis.bytes⟩

theorem filterMap_asAggSigMe_filter (conditions : List Condition) :
    (conditions.filter isAggSig).filterMap Condition.asAggSigMe =
      conditions.filterMap Condition.asAggSigMe := by
  induction conditions with
  | nil => rfl
  | cons condition conditions ih =>
    cases hsig : condition.asAggSigMe with
    | none =>
      rw [List.filterMap_cons_none hsig, ← ih, List.filter_cons]
      split_ifs
      · exact List.filterMap_cons_none hsig
      · rfl
    | some sig =>
      have hagg : isAggSig condition = true := by simp [isAggSig, hsig]
      rw [List.filter_cons_of_pos hagg, List.filterMap_cons_some hsig,
        List.filterMap_cons_some hsig, ih]

theorem boundSignatures_append (coin : Coin) (conditions conditions' : List Condition) :
    boundSignatures sdk genesis coin (conditions ++ conditions') =
      boundSignatures sdk genesis coin conditions ++ boundSignatures sdk genesis coin conditions' := by
  simp [boundSignatures]

/-- Lists with the same signature conditions bind the same messages. -/
theorem boundSignatures_perm (coin : Coin) {conditions conditions' : List Condition}
    (h : (conditions.filter isAggSig).Perm (conditions'.filter isAggSig)) :
    (boundSignatures sdk genesis coin conditions).Perm
      (boundSignatures sdk genesis coin conditions') := by
  unfold boundSignatures
  rw [← filterMap_asAggSigMe_filter conditions, ← filterMap_asAggSigMe_filter conditions']
  exact (h.filterMap _).map _

/-- An admitted coin binds its quoted puzzle, or nothing. -/
theorem Leg.Admitted.boundSignatures_eq {leg : Leg sdk} (h : leg.Admitted) (coin : Coin) :
    boundSignatures sdk genesis coin leg.conditions =
      (quoteSignature sdk genesis (coin, leg)).toList := by
  unfold boundSignatures quoteSignature
  cases hsigned : leg.signed? with
  | none =>
    have hnone : leg.conditions.filterMap Condition.asAggSigMe = [] := by
      apply List.filterMap_eq_nil_iff.mpr
      intro condition hcondition
      have hnot := h.no_aggSig hsigned condition hcondition
      rw [isAggSig, Bool.or_eq_false_iff] at hnot
      simpa using hnot.1
    rw [hnone]
    rfl
  | some signed =>
    obtain ⟨publicKey, hsole⟩ := soleAggSigMeMessage_eq_ok.mp (h.commits hsigned)
    rw [hsole]
    rfl

theorem isSome_quoteSignature {leg : Leg sdk} (h : leg.Admitted) (coin : Coin) :
    (quoteSignature sdk genesis (coin, leg)).isSome = leg.signed?.isSome := by
  unfold quoteSignature
  cases hsigned : leg.signed? with
  | none => rfl
  | some signed =>
    obtain ⟨publicKey, hsole⟩ := soleAggSigMeMessage_eq_ok.mp (h.commits hsigned)
    rw [hsole]
    rfl

/-! ## What the extraction yields -/

variable {signer : LocalSigner}

/-- Only an `AGG_SIG_ME`'s requirement is signable. -/
theorem RequiredFor.signable {coin : Coin} {condition : Condition}
    {requirement : SdkRequiredSignature} {signature : RequiredSignature}
    (h : RequiredFor sdk signer.aggSigMeExtraData coin condition requirement)
    (hok : requireAggSigMe signer requirement = .ok signature) :
    isNonMeAggSig condition = false ∧
      [signature] = boundSignatures sdk signer.aggSigMeExtraData coin [condition] := by
  cases h with
  | me sig =>
    have htext : requireAggSigMe signer (.bls sig.publicKey
        (sig.message ++ (sdk.coinId coin).bytes ++ signer.aggSigMeExtraData.bytes)
        (some signer.aggSigMeExtraData)) = .ok ⟨sig.publicKey,
          sig.message ++ (sdk.coinId coin).bytes ++ signer.aggSigMeExtraData.bytes⟩ := by
      simp [requireAggSigMe, meDomain, require, bind, Except.bind]
    rw [htext] at hok
    cases hok
    exact ⟨rfl, rfl⟩
  | other hcondition hdomain =>
    unfold requireAggSigMe meDomain at hok
    simp only [bind_eq_ok, Unique.exists_iff, require_eq_ok, decide_eq_true_eq] at hok
    exact absurd hok.1 hdomain

theorem signatures_of_required {coin : Coin} {conditions : List Condition}
    {requirements : List SdkRequiredSignature} {signatures : List RequiredSignature}
    (h : List.Forall₂ (RequiredFor sdk signer.aggSigMeExtraData coin) conditions requirements)
    (hok : requirements.mapM (requireAggSigMe signer) = .ok signatures) :
    (∀ c ∈ conditions, isNonMeAggSig c = false) ∧
      signatures = boundSignatures sdk signer.aggSigMeExtraData coin conditions := by
  induction h generalizing signatures with
  | nil =>
    cases hok
    exact ⟨by simp, rfl⟩
  | @cons condition requirement conditions requirements hrequired hrest ih =>
    rw [mapM_eq_ok] at hok
    cases hok with
    | cons hsignature hsignatures =>
      obtain ⟨hcondition, hhead⟩ := hrequired.signable hsignature
      obtain ⟨hconditions, htail⟩ := ih (mapM_eq_ok.mpr hsignatures)
      refine ⟨List.forall_mem_cons.mpr ⟨hcondition, hconditions⟩, ?_⟩
      rw [← List.singleton_append (l := conditions), boundSignatures_append, ← hhead, ← htail]
      rfl

/-- One coin spend: its quoted puzzle's message, and those of its TAIL. -/
theorem RequiredOf.signatures_perm (houter : OuterRuns sdk tail) {spend : CoinSpend} {leg : Leg sdk}
    {requirements : List SdkRequiredSignature} {signatures : List RequiredSignature}
    (h : RequiredOf sdk signer.aggSigMeExtraData spend requirements)
    (hleg : legOf sdk spend = some leg) (hadm : leg.Admitted)
    (hok : requirements.mapM (requireAggSigMe signer) = .ok signatures) :
    (∀ c ∈ tailConditions sdk tail spend, isNonMeAggSig c = false) ∧
      signatures.Perm ((quoteSignature sdk signer.aggSigMeExtraData (spend.coin, leg)).toList ++
        boundSignatures sdk signer.aggSigMeExtraData spend.coin (tailConditions sdk tail spend)) := by
  obtain ⟨puzzlePtr, solutionPtr, outer, hpuzzle, hsolution, hrun, hrequired⟩ := h
  obtain ⟨puzzlePtr', solutionPtr', hpuzzle', hsolution', hclass⟩ := legOf_eq_some.mp hleg
  obtain rfl := Except.ok.inj (hpuzzle.symm.trans hpuzzle')
  obtain rfl := Except.ok.inj (hsolution.symm.trans hsolution')
  have hperm := houter.outer_perm hpuzzle hsolution hclass hrun
  obtain ⟨hnonMe, rfl⟩ := signatures_of_required hrequired hok
  constructor
  · intro c hc
    by_cases hagg : isAggSig c = true
    · refine hnonMe c (hperm.symm.subset ?_)
      exact List.mem_filter.mpr ⟨List.mem_append_right _ hc, hagg⟩
    · rw [Bool.not_eq_true, isAggSig, Bool.or_eq_false_iff] at hagg
      exact hagg.2
  · rw [← hadm.boundSignatures_eq, ← boundSignatures_append]
    unfold boundSignatures
    rw [filterMap_asAggSigMe_filter]
    exact boundSignatures_perm spend.coin hperm

/-- The messages the TAILs of a bundle bind. -/
def tailSignatures (sdk : Sdk) (tail : CoinSpend → List Condition) (genesis : Bytes32)
    (coinSpends : List CoinSpend) : List RequiredSignature :=
  coinSpends.flatMap fun spend =>
    boundSignatures sdk genesis spend.coin (tailConditions sdk tail spend)

/-- **The signing list**: each signed coin's quoted puzzle, and what the TAILs bind. -/
theorem requiredSignaturesFrom_perm (houter : OuterRuns sdk tail) {coinSpends : List CoinSpend}
    {authoritative : List RequiredSignature} (hadm : ∀ spend ∈ coinSpends, Admitted sdk spend)
    (h : requiredSignaturesFrom sdk signer coinSpends = .ok authoritative) :
    (∀ spend ∈ coinSpends, ∀ c ∈ tailConditions sdk tail spend, isNonMeAggSig c = false) ∧
      authoritative.Perm
        ((legs sdk coinSpends).filterMap (quoteSignature sdk signer.aggSigMeExtraData) ++
          tailSignatures sdk tail signer.aggSigMeExtraData coinSpends) := by
  unfold requiredSignaturesFrom at h
  obtain ⟨extracted, hextracted, hok⟩ := bind_eq_ok.mp h
  obtain ⟨parts, rfl, hparts⟩ := houter.required (orReject_eq_ok.mp hextracted)
  clear h hextracted
  induction hparts generalizing authoritative with
  | nil =>
    cases hok
    exact ⟨by simp, .refl _⟩
  | @cons spend requirements coinSpends parts hspend hrest ih =>
    rw [List.flatten_cons, List.mapM_append] at hok
    obtain ⟨signatures, hsignatures, hok⟩ := bind_eq_ok.mp hok
    obtain ⟨rest, hrest, hok⟩ := bind_eq_ok.mp hok
    cases hok
    obtain ⟨-, leg, hleg, hadmitted⟩ := hadm spend (by simp)
    obtain ⟨hnonMe, hperm⟩ := hspend.signatures_perm houter hleg hadmitted hsignatures
    obtain ⟨hnonMes, hperms⟩ := ih (fun s hs => hadm s (List.mem_cons_of_mem _ hs)) hrest
    refine ⟨List.forall_mem_cons.mpr ⟨hnonMe, hnonMes⟩, ?_⟩
    have hquote : ((spend.coin, leg) :: legs sdk coinSpends).filterMap
        (quoteSignature sdk signer.aggSigMeExtraData) =
        (quoteSignature sdk signer.aggSigMeExtraData (spend.coin, leg)).toList ++
          (legs sdk coinSpends).filterMap (quoteSignature sdk signer.aggSigMeExtraData) := by
      rw [List.filterMap_cons]
      cases quoteSignature sdk signer.aggSigMeExtraData (spend.coin, leg) <;> rfl
    rw [legs_cons hleg, hquote, tailSignatures, List.flatMap_cons]
    refine (hperm.append hperms).trans ?_
    rw [List.append_assoc, List.append_assoc]
    exact List.Perm.append_left _ (List.perm_append_comm_assoc _ _ _)

/-! ## The judged list -/

/-- The list `analyze` holds to the class's rule: for a singleton, the signed list itself. -/
def Leg.judged : Leg sdk → List Condition
  | nftTransfer _ _ signed _ | melt signed _ => signed.conditions
  | leg => leg.conditions

/-- The judged list is the quoted one, under at most the layer's own `AGG_SIG_ME` over the quote. -/
def Leg.JudgesQuote (leg : Leg sdk) (signed : QuotedConditions sdk) : Prop :=
  ∃ own, (own = [] ∨ ∃ publicKey,
      own = [Condition.aggSigMe ⟨publicKey, (sdk.treeHash signed.puzzle).bytes⟩]) ∧
    leg.judged = own ++ signed.conditions

theorem judgesQuote_of_classifies (hstandard : sdk.StandardLayer) {coin : Coin}
    {puzzlePtr solutionPtr : Node} {leg : Leg sdk} {signed : QuotedConditions sdk}
    (hleg : Classifies sdk coin puzzlePtr solutionPtr leg) (hsigned : leg.signed? = some signed) :
    leg.JudgesQuote signed := by
  cases hleg with
  | catSend _ _ hkey hcommitted hrun | optionTransfer _ _ hkey hcommitted hrun =>
    cases hsigned
    obtain ⟨own, hown, hconditions⟩ := standard_run hstandard hkey hcommitted hrun
    exact ⟨own, hown.imp_right fun h => ⟨_, h⟩, hconditions⟩
  | standardSend _ hkey hcommitted hrun =>
    cases hsigned
    rw [← hstandard.parsed puzzlePtr] at hrun
    obtain ⟨own, hown, hconditions⟩ := standard_run hstandard hkey hcommitted hrun
    exact ⟨own, hown.imp_right fun h => ⟨_, h⟩, hconditions⟩
  | nftTransfer _ _ _ _ _ _ _ _ | melt _ _ _ _ _ _ _ =>
    cases hsigned
    exact ⟨[], .inl rfl, rfl⟩
  | catClaim _ _ _ | launch _ _ _ | eveMint _ _ _ _ _ _ _ | settlementClaim _ _ _ _ =>
    cases hsigned

end Signatures

/-! ## `sign_unsigned` -/

section

variable {sdk : Sdk} {signer : LocalSigner} {unsigned : UnsignedSpend} {bundle : SignedBundle}

theorem signUnsigned_eq_ok : signUnsigned sdk signer unsigned = .ok bundle ↔
    verifyBeforeSigning sdk signer unsigned = .ok () ∧
    ∃ authoritative, requiredSignaturesFrom sdk signer unsigned.coinSpends = .ok authoritative ∧
      (unsigned.requiredSignatures.map signatureKey).Perm (authoritative.map signatureKey) ∧
      ∃ signatures, authoritative.mapM (signRequired sdk signer) = .ok signatures ∧
        bundle = ⟨unsigned.coinSpends, sdk.aggregate signatures⟩ := by
  unfold signUnsigned assertRequiredSignaturesMatch produceSignatures
  simp only [bind_eq_ok, Unique.exists_iff, require_eq_ok, decide_eq_true_eq, sort_eq_iff,
    Except.ok.injEq, eq_comm (a := bundle)]

end

/-- The signer signs one message for each signed coin, the one its judged quote calls for, and none
for another coin; the bundle is a function of the coin spends. -/
structure SignsTheQuotes (sdk : Sdk) (signer : LocalSigner) (unsigned : UnsignedSpend)
    (bundle : SignedBundle) : Prop where
  signed : ∃ authoritative signatures,
    requiredSignaturesFrom sdk signer unsigned.coinSpends = .ok authoritative ∧
    authoritative.mapM (signRequired sdk signer) = .ok signatures ∧
    bundle = ⟨unsigned.coinSpends, sdk.aggregate signatures⟩ ∧
    authoritative.Perm ((legs sdk unsigned.coinSpends).filterMap
      (quoteSignature sdk signer.aggSigMeExtraData))
  one : ∀ p ∈ legs sdk unsigned.coinSpends,
    (quoteSignature sdk signer.aggSigMeExtraData p).isSome = p.2.signed?.isSome
  judged : ∀ p ∈ legs sdk unsigned.coinSpends, ∀ signed, p.2.signed? = some signed →
    p.2.JudgesQuote signed
  same : ∀ unsigned' bundle', unsigned'.coinSpends = unsigned.coinSpends →
    signUnsigned sdk signer unsigned' = .ok bundle' → bundle' = bundle

/-- **What is signed.** -/
theorem quotes_signed_iff (sdk : Sdk) (tail : CoinSpend → List Condition)
    (houter : OuterRuns sdk tail) (hstandard : sdk.StandardLayer) (signer : LocalSigner)
    (unsigned : UnsignedSpend) (bundle : SignedBundle)
    (h : signUnsigned sdk signer unsigned = .ok bundle) :
    SignsTheQuotes sdk signer unsigned bundle ↔
      ∀ spend ∈ unsigned.coinSpends, ∀ c ∈ tailConditions sdk tail spend, isAggSig c = false := by
  obtain ⟨hverify, authoritative, hauthoritative, -, signatures, hsignatures, hbundle⟩ :=
    signUnsigned_eq_ok.mp h
  obtain ⟨effect, heffect, -⟩ := verifyBeforeSigning_eq_ok.mp hverify
  have hadm := ((analyze_eq_ok sdk).mp heffect).admitted
  obtain ⟨hnonMe, hperm⟩ := requiredSignaturesFrom_perm houter hadm hauthoritative
  have hquiet : tailSignatures sdk tail signer.aggSigMeExtraData unsigned.coinSpends = [] ↔
      ∀ spend ∈ unsigned.coinSpends, ∀ c ∈ tailConditions sdk tail spend, isAggSig c = false := by
    unfold tailSignatures boundSignatures
    simp only [List.flatMap_eq_nil_iff, List.map_eq_nil_iff, List.filterMap_eq_nil_iff]
    refine forall₂_congr fun spend hspend => forall₂_congr ?_
    intro c hc
    rw [isAggSig, hnonMe spend hspend c hc, Bool.or_false, Option.isSome_eq_false_iff,
      Option.isNone_iff_eq_none]
  rw [← hquiet]
  constructor
  · rintro ⟨⟨authoritative', -, hauthoritative', -, -, hquotes⟩, -, -, -⟩
    obtain rfl := Except.ok.inj (hauthoritative.symm.trans hauthoritative')
    have hlength := (hquotes.symm.trans hperm).length_eq
    rw [List.length_append] at hlength
    exact List.length_eq_zero_iff.mp (by omega)
  · intro hnil
    rw [hnil, List.append_nil] at hperm
    refine ⟨⟨authoritative, signatures, hauthoritative, hsignatures, hbundle, hperm⟩, ?_, ?_, ?_⟩
    · intro p hp
      exact isSome_quoteSignature (legs_admitted hadm p hp) p.1
    · intro p hp signed hsigned
      obtain ⟨spend, -, -, hleg⟩ := mem_legs.mp hp
      obtain ⟨_, _, -, -, hclass⟩ := legOf_eq_some.mp hleg
      exact judgesQuote_of_classifies hstandard hclass hsigned
    · intro unsigned' bundle' hcoins h'
      obtain ⟨-, authoritative', hauthoritative', -, signatures', hsignatures', hbundle'⟩ :=
        signUnsigned_eq_ok.mp h'
      rw [hcoins] at hauthoritative' hbundle'
      obtain rfl := Except.ok.inj (hauthoritative.symm.trans hauthoritative')
      obtain rfl := Except.ok.inj (hsignatures.symm.trans hsignatures')
      rw [hbundle', hbundle]

section Witness

open Sim

/-- The TAILs of `sim`. -/
def simTail (spend : CoinSpend) : List Condition := (tail spend).toOption.getD []

theorem requiredFor_of_requirement {coin : Coin} {genesis : Bytes32} {condition : Condition}
    {required : SdkRequiredSignature} (h : requirement coin genesis condition = some required) :
    RequiredFor sim genesis coin condition required := by
  cases condition <;> cases h
  case aggSigMe sig => exact .me sig
  all_goals exact .other rfl (by simp)

theorem requirement_isSome (coin : Coin) (genesis : Bytes32) (condition : Condition) :
    (requirement coin genesis condition).isSome = isAggSig condition := by
  cases condition <;> rfl

theorem forall₂_requirements (coin : Coin) (genesis : Bytes32) (conditions : List Condition) :
    List.Forall₂ (RequiredFor sim genesis coin) (conditions.filter isAggSig)
      (conditions.filterMap (requirement coin genesis)) := by
  induction conditions with
  | nil => exact .nil
  | cons condition conditions ih =>
    have hagg := requirement_isSome coin genesis condition
    cases hrequired : requirement coin genesis condition with
    | none =>
      rw [hrequired] at hagg
      rw [List.filterMap_cons_none hrequired, List.filter_cons_of_neg (by simp [← hagg])]
      exact ih
    | some required =>
      rw [hrequired] at hagg
      rw [List.filterMap_cons_some hrequired, List.filter_cons_of_pos hagg.symm]
      exact .cons (requiredFor_of_requirement hrequired) ih

theorem requiredOf_of_requirements {spend : CoinSpend} {genesis : Bytes32}
    {required : List SdkRequiredSignature} (h : requirements genesis spend = .ok required) :
    RequiredOf sim genesis spend required := by
  unfold requirements at h
  simp only [bind_eq_ok, Except.ok.injEq] at h
  obtain ⟨puzzle, hpuzzle, solution, hsolution, output, hrun, conditions, hconditions, rfl⟩ := h
  exact ⟨puzzle, solution, conditions, hpuzzle, hsolution,
    Sdk.conditionsOf_eq_ok.mpr ⟨output, hrun, hconditions⟩, forall₂_requirements _ _ _⟩

theorem outerRuns : OuterRuns sim simTail where
  required := by
    intro coinSpends genesis extracted h
    obtain ⟨parts, hparts, heq⟩ := bind_eq_ok.mp h
    cases heq
    exact ⟨parts, rfl, (mapM_eq_ok.mp hparts).imp fun _ _ => requiredOf_of_requirements⟩
  cat := by
    intro spend puzzlePtr solutionPtr cat inner outer hpuzzle hsolution hcat hinner houter
    obtain ⟨output, hrun, houter⟩ := Sdk.conditionsOf_eq_ok.mp houter
    obtain ⟨innerOutput, hinnerRun, rfl⟩ := run_of_catParse hcat hrun
    obtain ⟨innerOutput', hinnerRun', hinner⟩ := Sdk.conditionsOf_eq_ok.mp hinner
    obtain rfl := Except.ok.inj (hinnerRun.symm.trans hinnerRun')
    obtain ⟨more, hmore, rfl⟩ := conditionsFromClvm_append hinner houter
    have htail : tail spend = .ok more := by
      have hcat : catParse spend.coin (parsePuzzle puzzlePtr) solutionPtr = .ok (some cat) := hcat
      refine bind_eq_ok.mpr ⟨puzzlePtr, hpuzzle, bind_eq_ok.mpr ⟨solutionPtr, hsolution, ?_⟩⟩
      exact bind_eq_ok.mpr ⟨_, hcat, bind_eq_ok.mpr ⟨innerOutput, hinnerRun, hmore⟩⟩
    by_cases hruns : .runCatTail ∈ inner
    · rw [if_pos hruns, simTail, htail]
      rfl
    · rw [tailOutput_eq_nil hinner hruns] at hmore
      cases hmore
      rw [if_neg hruns]
  option := by
    intro coin puzzlePtr solutionPtr innerPuzzle innerSolution inner outer hoption hinner houter
    obtain ⟨output, hrun, houter⟩ := Sdk.conditionsOf_eq_ok.mp houter
    obtain ⟨launcher, proof, amount, asserts, output', hasserts, hrun', rfl⟩ :=
      run_of_optionContractParse hoption hrun
    obtain ⟨output'', hrun'', hinner⟩ := Sdk.conditionsOf_eq_ok.mp hinner
    obtain rfl := Except.ok.inj (hrun'.symm.trans hrun'')
    -- the two assertions of the top layer ask for no signature
    have houter' := conditionsFromClvm_singletonAsserts hasserts hinner
    obtain rfl := Except.ok.inj (houter'.symm.trans houter)
    exact .refl _

/-- A send with the signature it calls for. -/
def signedSend : UnsignedSpend where
  coinSpends := sendBundle
  requiredSignatures := (legs sim sendBundle).filterMap (quoteSignature sim wallet.aggSigMeExtraData)
  summary := reviewedSend.summary

/-- A CAT coin of 100 that goes home; its TAIL emits the given conditions. -/
def tailBundle (emitted : List Node) : List CoinSpend :=
  [spendOf (.rep 1) (catPuzzle (.rep 6) (standardPuzzle walletKey)) 100
    (.pair (signing [createCoin home 100, Sim.list [num 51, nil, num 0x8f, quote emitted]]) nil)]

def tailSend (emitted : List Node) : UnsignedSpend where
  coinSpends := tailBundle emitted
  requiredSignatures :=
    (legs sim (tailBundle emitted)).filterMap (quoteSignature sim wallet.aggSigMeExtraData) ++
      tailSignatures sim simTail wallet.aggSigMeExtraData (tailBundle emitted)
  summary := ⟨[], [], ⟨0⟩, [], []⟩

/-- An `AGG_SIG_ME` of the wallet's key over `8…8`. -/
def tailSignature : Node := Sim.list [num 50, .atom walletKey.bytes, .atom (Bytes32.rep 8).bytes]

set_option maxRecDepth 8000 in
theorem signUnsigned_quietTail : ∃ bundle,
    signUnsigned sim wallet (tailSend [assertConcurrentSpend (.rep 9)]) = .ok bundle := by
  refine ⟨_, signUnsigned_eq_ok.mpr ⟨rfl, _, rfl, ?_, _, rfl, rfl⟩⟩
  decide +kernel

set_option maxRecDepth 8000 in
theorem signUnsigned_tailSend : ∃ bundle,
    signUnsigned sim wallet (tailSend [tailSignature]) = .ok bundle := by
  refine ⟨_, signUnsigned_eq_ok.mpr ⟨rfl, _, rfl, ?_, _, rfl, rfl⟩⟩
  decide +kernel

set_option maxRecDepth 8000 in
/-- A TAIL that asks for no signature leaves the one signature over the quoted puzzle. -/
theorem quotes_signed_iff_quietTail : ∃ bundle,
    SignsTheQuotes sim wallet (tailSend [assertConcurrentSpend (.rep 9)]) bundle := by
  obtain ⟨bundle, hbundle⟩ := signUnsigned_quietTail
  refine ⟨bundle, (quotes_signed_iff sim simTail outerRuns standardLayer wallet _ bundle
    hbundle).mpr ?_⟩
  have hquiet : ∀ spend ∈ tailBundle [assertConcurrentSpend (.rep 9)],
      (tailConditions sim simTail spend).filter isAggSig = [] := by decide +kernel
  intro spend hspend c hc
  by_contra hagg
  have hmem : c ∈ (tailConditions sim simTail spend).filter isAggSig :=
    List.mem_filter.mpr ⟨hc, by simpa using hagg⟩
  rw [hquiet spend hspend] at hmem
  cases hmem

set_option maxRecDepth 8000 in
/-- The signer signs a second message on a CAT coin whose TAIL asks for one. -/
theorem quotes_not_signed : ¬ ∀ (sdk : Sdk) (tail : CoinSpend → List Condition),
    OuterRuns sdk tail → sdk.StandardLayer → ∀ (signer : LocalSigner) (unsigned : UnsignedSpend)
      (bundle : SignedBundle), signUnsigned sdk signer unsigned = .ok bundle →
        SignsTheQuotes sdk signer unsigned bundle := by
  intro hall
  obtain ⟨bundle, hbundle⟩ := signUnsigned_tailSend
  obtain ⟨authoritative, -, hauthoritative, -, -, hquotes⟩ :=
    (hall sim simTail outerRuns standardLayer wallet _ bundle hbundle).signed
  have htwo : ∃ signature signature', requiredSignaturesFrom sim wallet (tailBundle [tailSignature]) =
      .ok [signature, signature'] := ⟨_, _, rfl⟩
  obtain ⟨signature, signature', htwo⟩ := htwo
  obtain rfl := Except.ok.inj (htwo.symm.trans hauthoritative)
  have hone : ((legs sim (tailBundle [tailSignature])).filterMap
      (quoteSignature sim wallet.aggSigMeExtraData)).length = 1 := rfl
  have hlength := hquotes.length_eq
  rw [show (tailSend [tailSignature]).coinSpends = tailBundle [tailSignature] from rfl,
    hone] at hlength
  cases hlength

end Witness

end DigWallet
