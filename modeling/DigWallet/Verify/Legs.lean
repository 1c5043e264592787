import DigWallet.Verify.Tally

/-!
# DigWallet.Verify.Legs — the legs of a bundle

The abstract side of the accounting.

* `Leg`: one coin spend as the class that accounts it, with the condition list the class reads and,
  for a signed class, the quoted list the signature commits to.  `legOf` classifies a coin spend; it
  performs none of the checks.
* `Leg.Admitted`: the checks of each class.  `Leg.tally`: what an admitted leg adds.
* `Classifies`: the classification as a relation, one constructor for each class.
-/

namespace DigWallet

section Legs

variable (sdk : Sdk)

/-- One coin spend as the class that accounts it.  `conditions` is the list the class accounts,
`signed` the quoted list of the delegated puzzle, `quoted` the quoted list of an eve puzzle. -/
inductive Leg
  | catClaim (asset : Bytes32) (conditions : List Condition)
  | catSend (asset : Bytes32) (signed : QuotedConditions sdk) (conditions : List Condition)
  | optionTransfer (signed : QuotedConditions sdk) (conditions : List Condition)
  | launch (conditions : List Condition)
  | eveMint (launcherId owner : Bytes32) (quoted : QuotedConditions sdk)
      (conditions : List Condition)
  | nftTransfer (launcherId destination : Bytes32) (signed : QuotedConditions sdk)
      (conditions : List Condition)
  | melt (signed : QuotedConditions sdk) (conditions : List Condition)
  | standardSend (signed : QuotedConditions sdk) (conditions : List Condition)
  | settlementClaim (conditions : List Condition)

/-- The list a standard-layer solution's delegated puzzle quotes. -/
def signedList (standardSolution : Node) : Option (QuotedConditions sdk) :=
  (committedStandardSpend sdk standardSolution).toOption.map (·.conditions)

def catLeg (cat : ParsedCat) : Option (Leg sdk) := do
  if ← (sdk.settlementParsePuzzle cat.p2Puzzle).toOption then
    return .catClaim cat.assetId (← (runConditions sdk cat.p2Puzzle.ptr cat.p2Solution).toOption)
  else
    match ← (sdk.standardParsePuzzle cat.p2Puzzle).toOption with
    | none => none
    | some _ =>
      let signed ← signedList sdk cat.p2Solution
      return .catSend cat.assetId signed
        (← (runConditions sdk cat.p2Puzzle.ptr cat.p2Solution).toOption)

def optionLeg (innerPuzzle : Puzzle) (innerSolution : Node) : Option (Leg sdk) := do
  match ← (sdk.standardParsePuzzle innerPuzzle).toOption with
  | none => none
  | some _ =>
    let signed ← signedList sdk innerSolution
    return .optionTransfer signed (← (runConditions sdk innerPuzzle.ptr innerSolution).toOption)

def eveLeg (nft : ParsedNft) (puzzlePtr solutionPtr : Node) : Option (Leg sdk) := do
  let quoted ← (QuotedConditions.prove sdk nft.p2Puzzle.ptr
    "an NFT mint's eve inner puzzle").toOption
  let create ← (quoted.conditions.filterMap Condition.asCreateCoin).head?
  return .eveMint nft.launcherId create.puzzleHash quoted
    (← (runConditions sdk puzzlePtr solutionPtr).toOption)

def nftTransferLeg (nft : ParsedNft) (puzzlePtr solutionPtr : Node) : Option (Leg sdk) := do
  match ← (sdk.standardParsePuzzle nft.p2Puzzle).toOption with
  | none => none
  | some _ =>
    let signed ← signedList sdk nft.p2Solution
    let create ← (signed.conditions.filterMap Condition.asCreateCoin).head?
    return .nftTransfer nft.launcherId create.puzzleHash signed
      (← (runConditions sdk puzzlePtr solutionPtr).toOption)

def nftLeg (nft : ParsedNft) (puzzlePtr solutionPtr : Node) : Option (Leg sdk) :=
  match nft.proof with
  | .eve => eveLeg sdk nft puzzlePtr solutionPtr
  | .lineage => nftTransferLeg sdk nft puzzlePtr solutionPtr

def meltLeg (puzzlePtr solutionPtr : Node) : Option (Leg sdk) := do
  let conditions ← (runConditions sdk puzzlePtr solutionPtr).toOption
  let message ← (soleAggSigMeMessage conditions).toOption
  return .melt (← (committedMeltConditions sdk solutionPtr message).toOption) conditions

/-- The class of a coin with a decoded puzzle and solution, by the drivers alone. -/
def legOfNodes (coin : Coin) (puzzlePtr solutionPtr : Node) : Option (Leg sdk) := do
  let puzzle := sdk.parsePuzzle puzzlePtr
  match ← (sdk.catParse coin puzzle solutionPtr).toOption with
  | some cat => catLeg sdk cat
  | none =>
  match ← (sdk.optionContractParse coin puzzle solutionPtr).toOption with
  | some (innerPuzzle, innerSolution) => optionLeg sdk innerPuzzle innerSolution
  | none =>
  if ← (sdk.p2OneOfManyParsePuzzle puzzle).toOption then none
  else if coin.puzzleHash = sdk.singletonLauncherHash then
    return .launch (← (runConditions sdk puzzlePtr solutionPtr).toOption)
  else
  match ← (sdk.nftParse coin puzzle solutionPtr).toOption with
  | some nft => nftLeg sdk nft puzzlePtr solutionPtr
  | none =>
  if isSingletonPuzzle sdk puzzle then meltLeg sdk puzzlePtr solutionPtr
  else
  match ← (sdk.standardParsePuzzle puzzle).toOption with
  | some _ =>
    let signed ← signedList sdk solutionPtr
    return .standardSend signed (← (runConditions sdk puzzlePtr solutionPtr).toOption)
  | none =>
  if ← (sdk.settlementParsePuzzle puzzle).toOption then
    return .settlementClaim (← (runConditions sdk puzzlePtr solutionPtr).toOption)
  else none

def legOf (spend : CoinSpend) : Option (Leg sdk) := do
  let puzzlePtr ← (sdk.nodeFromBytes spend.puzzleReveal).toOption
  let solutionPtr ← (sdk.nodeFromBytes spend.solution).toOption
  legOfNodes sdk spend.coin puzzlePtr solutionPtr

namespace Leg

variable {sdk}

/-- The condition list the class accounts. -/
def conditions : Leg sdk → List Condition
  | catClaim _ cs | catSend _ _ cs | optionTransfer _ cs | launch cs | eveMint _ _ _ cs
  | nftTransfer _ _ _ cs | melt _ cs | standardSend _ cs | settlementClaim cs => cs

/-- The asset the coin is denominated in, `none` for XCH. -/
def asset? : Leg sdk → Option Bytes32
  | catClaim asset _ | catSend asset _ _ => some asset
  | _ => none

/-- The list the coin's signature commits to, for the five signed classes. -/
def signed? : Leg sdk → Option (QuotedConditions sdk)
  | catSend _ signed _ | optionTransfer signed _ | nftTransfer _ _ signed _ | melt signed _
  | standardSend signed _ => some signed
  | _ => none

def creates (leg : Leg sdk) : List CreateCoin := leg.conditions.filterMap Condition.asCreateCoin

/-- The coins the leg creates, as `analyze` reports them. -/
def created (leg : Leg sdk) : List DecodedOutput :=
  leg.creates.map fun create => ⟨create.puzzleHash, create.amount, leg.asset?⟩

/-- The sole `AGG_SIG_ME` names the quoted puzzle. -/
def Commits (signed : QuotedConditions sdk) (conditions : List Condition) : Prop :=
  soleAggSigMeMessage conditions = .ok (sdk.treeHash signed.puzzle)

/-- One `CREATE_COIN`, of an odd amount. -/
def SoleOdd (conditions : List Condition) (create : CreateCoin) : Prop :=
  conditions.filterMap Condition.asCreateCoin = [create] ∧ create.amount % 2 ≠ 0

/-- One `CREATE_COIN`, of an odd amount, to `owner`, which is no structural hash. -/
def Rehomes (sdk : Sdk) (conditions : List Condition) (owner : Bytes32) : Prop :=
  ∃ create, SoleOdd conditions create ∧ create.puzzleHash = owner ∧
    isProtocolSinkHash sdk owner = false

/-- The checks of each class. -/
def Admitted : Leg sdk → Prop
  | catClaim _ conditions | settlementClaim conditions => ∀ c ∈ conditions, isAggSig c = false
  | catSend _ signed conditions | standardSend signed conditions =>
    Commits signed conditions ∧ ∀ c ∈ conditions, isNonMeAggSig c = false
  | optionTransfer signed conditions =>
    Commits signed conditions ∧
    (∀ c ∈ conditions, isNonMeAggSig c = false ∧ rejectNonTransferCondition c = .ok ()) ∧
    ∃ create, SoleOdd conditions create ∧ isProtocolSinkHash sdk create.puzzleHash = false
  | launch conditions =>
    (∀ c ∈ conditions, isAggSig c = false ∧ rejectNonRehomeCondition c .launcher = .ok ()) ∧
    ∃ create, SoleOdd conditions create
  | eveMint _ owner quoted conditions =>
    (∀ c ∈ quoted.conditions, isAggSig c = false ∧ rejectNonRehomeCondition c .nftEve = .ok ()) ∧
    Rehomes sdk quoted.conditions owner ∧
    (∀ c ∈ conditions, isAggSig c = false ∧ rejectNonRehomeCondition c .nftEve = .ok ()) ∧
    ∃ create, SoleOdd conditions create
  | nftTransfer _ destination signed conditions =>
    (∀ c ∈ signed.conditions,
      isNonMeAggSig c = false ∧ rejectNonRehomeCondition c .nftSigned = .ok ()) ∧
    Rehomes sdk signed.conditions destination ∧
    Commits signed conditions ∧
    (∀ c ∈ conditions, isNonMeAggSig c = false ∧ rejectNonRehomeCondition c .nft = .ok ()) ∧
    ∃ create, SoleOdd conditions create
  | melt signed conditions =>
    (∀ c ∈ conditions, isNonMeAggSig c = false ∧ rejectNonMeltCondition c .presented = .ok ()) ∧
    Commits signed conditions ∧
    (∀ c ∈ signed.conditions, isNonMeAggSig c = false ∧ rejectNonMeltCondition c .signed = .ok ()) ∧
    signed.conditions.countP (· = .meltSingleton) = 1

variable (coin : Coin)

/-- What routing one created coin adds. -/
def createTally (sdk : Sdk) (asset? : Option Bytes32) (create : CreateCoin) : Tally :=
  let output : DecodedOutput := ⟨create.puzzleHash, create.amount, asset?⟩
  let sink := isProtocolSinkHash sdk create.puzzleHash
  { outputs := if sink then [] else [output]
    protocolSink := if sink then [output] else []
    xchOut := if asset? = none then create.amount.toNat else 0
    catOut := fun asset => if asset? = some asset then create.amount.toNat else 0 }

/-- What a list of created coins adds. -/
def createsTally (sdk : Sdk) (asset? : Option Bytes32) (creates : List CreateCoin) : Tally :=
  (creates.map (createTally sdk asset?)).sum

/-- What the coin adds by being spent. -/
def enterTally (asset? : Option Bytes32) : Tally where
  xchIn := if asset? = none then coin.amount.toNat else 0
  catIn asset := if asset? = some asset then coin.amount.toNat else 0

/-- What the class adds beside value. -/
def factsTally : Leg sdk → Tally
  | catClaim _ _ | settlementClaim _ | optionTransfer _ _ => 0
  | catSend _ _ conditions => { bindings := [coinBinding sdk coin conditions] }
  | standardSend _ conditions => {
      bindings := [coinBinding sdk coin conditions]
      signedAnnouncementAssertions := conditions.filterMap Condition.asAssertCoinAnnouncement
      fee := ((conditions.filterMap Condition.asReserveFee).map UInt64.toNat).sum }
  | launch conditions => {
      launcherAnnouncements := [(sdk.coinId coin,
        (conditions.filterMap Condition.asCreateCoinAnnouncement).map
          (sdk.announcementId (sdk.coinId coin)))]
      launcherCoinIds := [sdk.coinId coin]
      launcherParents := [coin.parentCoinInfo] }
  | eveMint launcherId owner _ _ => {
      eveParents := [coin.parentCoinInfo]
      nftOperations := [.mint launcherId owner] }
  | nftTransfer launcherId destination _ _ => {
      nftOperations := [.transfer launcherId destination] }
  | melt _ _ => {
      melted := coin.amount.toNat
      meltedSingletons := [sdk.coinId coin] }

/-- What an admitted leg adds beside the spent coin. -/
def restTally (leg : Leg sdk) : Tally :=
  createsTally sdk leg.asset? leg.creates + leg.factsTally coin

/-- What an admitted leg adds to the ledger. -/
def tally (leg : Leg sdk) : Tally := enterTally coin leg.asset? + leg.restTally coin

end Leg

/-- The checks of the coin spend's class hold, and the reveal is the coin's own puzzle. -/
def Admitted (spend : CoinSpend) : Prop :=
  (∃ puzzlePtr, sdk.nodeFromBytes spend.puzzleReveal = .ok puzzlePtr ∧
    sdk.treeHash puzzlePtr = spend.coin.puzzleHash) ∧
  ∃ leg, legOf sdk spend = some leg ∧ leg.Admitted

/-- What the coin spend adds to the ledger. -/
def tallyOf (spend : CoinSpend) : Tally := (legOf sdk spend).elim 0 (·.tally spend.coin)

/-! ## The classification as a relation -/

/-- None of the three layered drivers takes the coin. -/
structure Unlayered (coin : Coin) (puzzlePtr solutionPtr : Node) : Prop where
  cat : sdk.catParse coin (sdk.parsePuzzle puzzlePtr) solutionPtr = .ok none
  option : sdk.optionContractParse coin (sdk.parsePuzzle puzzlePtr) solutionPtr = .ok none
  underlying : sdk.p2OneOfManyParsePuzzle (sdk.parsePuzzle puzzlePtr) = .ok false

/-- The coin is neither a launcher, an NFT nor a singleton either. -/
structure Plain (coin : Coin) (puzzlePtr solutionPtr : Node) : Prop
    extends Unlayered sdk coin puzzlePtr solutionPtr where
  launcher : coin.puzzleHash ≠ sdk.singletonLauncherHash
  nft : sdk.nftParse coin (sdk.parsePuzzle puzzlePtr) solutionPtr = .ok none
  singleton : isSingletonPuzzle sdk (sdk.parsePuzzle puzzlePtr) = false

/-- The drivers give the coin spend this leg. -/
inductive Classifies (coin : Coin) (puzzlePtr solutionPtr : Node) : Leg sdk → Prop
  | catClaim {cat conditions}
      (hcat : sdk.catParse coin (sdk.parsePuzzle puzzlePtr) solutionPtr = .ok (some cat))
      (hclaim : sdk.settlementParsePuzzle cat.p2Puzzle = .ok true)
      (hrun : runConditions sdk cat.p2Puzzle.ptr cat.p2Solution = .ok conditions) :
      Classifies coin puzzlePtr solutionPtr (.catClaim cat.assetId conditions)
  | catSend {cat publicKey committed conditions}
      (hcat : sdk.catParse coin (sdk.parsePuzzle puzzlePtr) solutionPtr = .ok (some cat))
      (hclaim : sdk.settlementParsePuzzle cat.p2Puzzle = .ok false)
      (hstandard : sdk.standardParsePuzzle cat.p2Puzzle = .ok (some publicKey))
      (hsigned : committedStandardSpend sdk cat.p2Solution = .ok committed)
      (hrun : runConditions sdk cat.p2Puzzle.ptr cat.p2Solution = .ok conditions) :
      Classifies coin puzzlePtr solutionPtr (.catSend cat.assetId committed.conditions conditions)
  | optionTransfer {innerPuzzle innerSolution publicKey committed conditions}
      (hcat : sdk.catParse coin (sdk.parsePuzzle puzzlePtr) solutionPtr = .ok none)
      (hoption : sdk.optionContractParse coin (sdk.parsePuzzle puzzlePtr) solutionPtr =
        .ok (some (innerPuzzle, innerSolution)))
      (hstandard : sdk.standardParsePuzzle innerPuzzle = .ok (some publicKey))
      (hsigned : committedStandardSpend sdk innerSolution = .ok committed)
      (hrun : runConditions sdk innerPuzzle.ptr innerSolution = .ok conditions) :
      Classifies coin puzzlePtr solutionPtr (.optionTransfer committed.conditions conditions)
  | launch {conditions} (hplain : Unlayered sdk coin puzzlePtr solutionPtr)
      (hlauncher : coin.puzzleHash = sdk.singletonLauncherHash)
      (hrun : runConditions sdk puzzlePtr solutionPtr = .ok conditions) :
      Classifies coin puzzlePtr solutionPtr (.launch conditions)
  | eveMint {nft quoted create conditions} (hplain : Unlayered sdk coin puzzlePtr solutionPtr)
      (hlauncher : coin.puzzleHash ≠ sdk.singletonLauncherHash)
      (hnft : sdk.nftParse coin (sdk.parsePuzzle puzzlePtr) solutionPtr = .ok (some nft))
      (hproof : nft.proof = .eve)
      (hquoted : QuotedConditions.prove sdk nft.p2Puzzle.ptr "an NFT mint's eve inner puzzle" =
        .ok quoted)
      (hcreate : (quoted.conditions.filterMap Condition.asCreateCoin).head? = some create)
      (hrun : runConditions sdk puzzlePtr solutionPtr = .ok conditions) :
      Classifies coin puzzlePtr solutionPtr
        (.eveMint nft.launcherId create.puzzleHash quoted conditions)
  | nftTransfer {nft publicKey committed create conditions}
      (hplain : Unlayered sdk coin puzzlePtr solutionPtr)
      (hlauncher : coin.puzzleHash ≠ sdk.singletonLauncherHash)
      (hnft : sdk.nftParse coin (sdk.parsePuzzle puzzlePtr) solutionPtr = .ok (some nft))
      (hproof : nft.proof = .lineage)
      (hstandard : sdk.standardParsePuzzle nft.p2Puzzle = .ok (some publicKey))
      (hsigned : committedStandardSpend sdk nft.p2Solution = .ok committed)
      (hcreate : (committed.conditions.conditions.filterMap Condition.asCreateCoin).head? =
        some create)
      (hrun : runConditions sdk puzzlePtr solutionPtr = .ok conditions) :
      Classifies coin puzzlePtr solutionPtr
        (.nftTransfer nft.launcherId create.puzzleHash committed.conditions conditions)
  | melt {message committed conditions} (hplain : Unlayered sdk coin puzzlePtr solutionPtr)
      (hlauncher : coin.puzzleHash ≠ sdk.singletonLauncherHash)
      (hnft : sdk.nftParse coin (sdk.parsePuzzle puzzlePtr) solutionPtr = .ok none)
      (hsingleton : isSingletonPuzzle sdk (sdk.parsePuzzle puzzlePtr) = true)
      (hrun : runConditions sdk puzzlePtr solutionPtr = .ok conditions)
      (hmessage : soleAggSigMeMessage conditions = .ok message)
      (hsigned : committedMeltConditions sdk solutionPtr message = .ok committed) :
      Classifies coin puzzlePtr solutionPtr (.melt committed conditions)
  | standardSend {publicKey committed conditions} (hplain : Plain sdk coin puzzlePtr solutionPtr)
      (hstandard : sdk.standardParsePuzzle (sdk.parsePuzzle puzzlePtr) = .ok (some publicKey))
      (hsigned : committedStandardSpend sdk solutionPtr = .ok committed)
      (hrun : runConditions sdk puzzlePtr solutionPtr = .ok conditions) :
      Classifies coin puzzlePtr solutionPtr (.standardSend committed.conditions conditions)
  | settlementClaim {conditions} (hplain : Plain sdk coin puzzlePtr solutionPtr)
      (hstandard : sdk.standardParsePuzzle (sdk.parsePuzzle puzzlePtr) = .ok none)
      (hclaim : sdk.settlementParsePuzzle (sdk.parsePuzzle puzzlePtr) = .ok true)
      (hrun : runConditions sdk puzzlePtr solutionPtr = .ok conditions) :
      Classifies coin puzzlePtr solutionPtr (.settlementClaim conditions)

end Legs

section Inversion

variable {sdk : Sdk}

theorem signedList_eq_some {solution : Node} {signed : QuotedConditions sdk} :
    signedList sdk solution = some signed ↔
      ∃ committed, committedStandardSpend sdk solution = .ok committed ∧
        committed.conditions = signed := by
  simp [signedList, toOption_eq_some]

section

variable {coin : Coin} {puzzlePtr solutionPtr : Node} {leg : Leg sdk}

theorem catLeg_cases {cat : ParsedCat} (h : catLeg sdk cat = some leg) : ∃ conditions,
    runConditions sdk cat.p2Puzzle.ptr cat.p2Solution = .ok conditions ∧
    ((sdk.settlementParsePuzzle cat.p2Puzzle = .ok true ∧
        leg = .catClaim cat.assetId conditions) ∨
      (sdk.settlementParsePuzzle cat.p2Puzzle = .ok false ∧
        ∃ publicKey committed, sdk.standardParsePuzzle cat.p2Puzzle = .ok (some publicKey) ∧
          committedStandardSpend sdk cat.p2Solution = .ok committed ∧
          leg = .catSend cat.assetId committed.conditions conditions)) := by
  unfold catLeg at h
  simp only [Option.bind_eq_bind, Option.bind_eq_some_iff, toOption_eq_some] at h
  obtain ⟨claim, hclaim, h⟩ := h
  cases claim with
  | true =>
    simp only [if_true, Option.bind_eq_some_iff, toOption_eq_some] at h
    obtain ⟨conditions, hrun, h⟩ := h
    exact ⟨conditions, hrun, .inl ⟨hclaim, (Option.some.inj h).symm⟩⟩
  | false =>
    simp only [Bool.false_eq_true, if_false, Option.bind_eq_some_iff, toOption_eq_some] at h
    obtain ⟨publicKey?, hstandard, h⟩ := h
    cases publicKey? with
    | none => cases h
    | some publicKey =>
    simp only [Option.bind_eq_some_iff, toOption_eq_some, signedList_eq_some] at h
    obtain ⟨_, ⟨committed, hsigned, rfl⟩, conditions, hrun, h⟩ := h
    exact ⟨conditions, hrun, .inr ⟨hclaim, publicKey, committed, hstandard, hsigned,
      (Option.some.inj h).symm⟩⟩

theorem asset_of_catLeg {cat : ParsedCat} (h : catLeg sdk cat = some leg) :
    leg.asset? = some cat.assetId := by
  obtain ⟨conditions, -, ⟨-, rfl⟩ | ⟨-, _, _, -, -, rfl⟩⟩ := catLeg_cases h
  · rfl
  · rfl

theorem classifies_of_catLeg {cat : ParsedCat}
    (hcat : sdk.catParse coin (sdk.parsePuzzle puzzlePtr) solutionPtr = .ok (some cat))
    (h : catLeg sdk cat = some leg) : Classifies sdk coin puzzlePtr solutionPtr leg := by
  obtain ⟨conditions, hrun, ⟨hclaim, rfl⟩ | ⟨hclaim, _, _, hstandard, hsigned, rfl⟩⟩ :=
    catLeg_cases h
  · exact .catClaim hcat hclaim hrun
  · exact .catSend hcat hclaim hstandard hsigned hrun

theorem classifies_of_optionLeg {innerPuzzle : Puzzle} {innerSolution : Node}
    (hcat : sdk.catParse coin (sdk.parsePuzzle puzzlePtr) solutionPtr = .ok none)
    (hoption : sdk.optionContractParse coin (sdk.parsePuzzle puzzlePtr) solutionPtr =
      .ok (some (innerPuzzle, innerSolution)))
    (h : optionLeg sdk innerPuzzle innerSolution = some leg) :
    Classifies sdk coin puzzlePtr solutionPtr leg := by
  unfold optionLeg at h
  simp only [Option.bind_eq_bind, Option.bind_eq_some_iff, toOption_eq_some] at h
  obtain ⟨publicKey?, hstandard, h⟩ := h
  cases publicKey? with
  | none => cases h
  | some publicKey =>
  simp only [Option.bind_eq_some_iff, toOption_eq_some, signedList_eq_some] at h
  obtain ⟨_, ⟨committed, hsigned, rfl⟩, conditions, hrun, h⟩ := h
  obtain rfl := Option.some.inj h
  exact .optionTransfer hcat hoption hstandard hsigned hrun

theorem classifies_of_nftLeg {nft : ParsedNft} (hplain : Unlayered sdk coin puzzlePtr solutionPtr)
    (hlauncher : coin.puzzleHash ≠ sdk.singletonLauncherHash)
    (hnft : sdk.nftParse coin (sdk.parsePuzzle puzzlePtr) solutionPtr = .ok (some nft))
    (h : nftLeg sdk nft puzzlePtr solutionPtr = some leg) :
    Classifies sdk coin puzzlePtr solutionPtr leg := by
  unfold nftLeg at h
  cases hproof : nft.proof with
  | eve =>
    simp only [hproof, eveLeg, Option.bind_eq_bind, Option.bind_eq_some_iff,
      toOption_eq_some] at h
    obtain ⟨quoted, hquoted, create, hcreate, conditions, hrun, h⟩ := h
    obtain rfl := Option.some.inj h
    exact .eveMint hplain hlauncher hnft hproof hquoted hcreate hrun
  | lineage =>
    simp only [hproof, nftTransferLeg, Option.bind_eq_bind, Option.bind_eq_some_iff,
      toOption_eq_some] at h
    obtain ⟨publicKey?, hstandard, h⟩ := h
    cases publicKey? with
    | none => cases h
    | some publicKey =>
    simp only [Option.bind_eq_some_iff, toOption_eq_some, signedList_eq_some] at h
    obtain ⟨_, ⟨committed, hsigned, rfl⟩, create, hcreate, conditions, hrun, h⟩ := h
    obtain rfl := Option.some.inj h
    exact .nftTransfer hplain hlauncher hnft hproof hstandard hsigned hcreate hrun

theorem classifies_of_meltLeg (hplain : Unlayered sdk coin puzzlePtr solutionPtr)
    (hlauncher : coin.puzzleHash ≠ sdk.singletonLauncherHash)
    (hnft : sdk.nftParse coin (sdk.parsePuzzle puzzlePtr) solutionPtr = .ok none)
    (hsingleton : isSingletonPuzzle sdk (sdk.parsePuzzle puzzlePtr) = true)
    (h : meltLeg sdk puzzlePtr solutionPtr = some leg) :
    Classifies sdk coin puzzlePtr solutionPtr leg := by
  unfold meltLeg at h
  simp only [Option.bind_eq_bind, Option.bind_eq_some_iff, toOption_eq_some] at h
  obtain ⟨conditions, hrun, message, hmessage, committed, hsigned, h⟩ := h
  obtain rfl := Option.some.inj h
  exact .melt hplain hlauncher hnft hsingleton hrun hmessage hsigned

end

section

variable {coin : Coin} {puzzlePtr solutionPtr : Node} {leg : Leg sdk}

theorem classifies_of_legOfNodes (h : legOfNodes sdk coin puzzlePtr solutionPtr = some leg) :
    Classifies sdk coin puzzlePtr solutionPtr leg := by
  unfold legOfNodes at h
  simp only [Option.bind_eq_bind, Option.bind_eq_some_iff, toOption_eq_some] at h
  obtain ⟨cat?, hcat, h⟩ := h
  cases cat? with
  | some cat => exact classifies_of_catLeg hcat h
  | none =>
  simp only [Option.bind_eq_some_iff, toOption_eq_some] at h
  obtain ⟨option?, hoption, h⟩ := h
  cases option? with
  | some inner => exact classifies_of_optionLeg hcat hoption h
  | none =>
  simp only [Option.bind_eq_some_iff, toOption_eq_some] at h
  obtain ⟨underlying, hunderlying, h⟩ := h
  cases underlying with
  | true => cases h
  | false =>
  have hplain : Unlayered sdk coin puzzlePtr solutionPtr := ⟨hcat, hoption, hunderlying⟩
  by_cases hlauncher : coin.puzzleHash = sdk.singletonLauncherHash
  · simp only [Bool.false_eq_true, if_false, hlauncher, if_true, Option.bind_eq_some_iff,
      toOption_eq_some] at h
    obtain ⟨conditions, hrun, h⟩ := h
    obtain rfl := Option.some.inj h
    exact .launch hplain hlauncher hrun
  simp only [Bool.false_eq_true, if_false, hlauncher, Option.bind_eq_some_iff,
    toOption_eq_some] at h
  obtain ⟨nft?, hnft, h⟩ := h
  cases nft? with
  | some nft => exact classifies_of_nftLeg hplain hlauncher hnft h
  | none =>
  by_cases hsingleton : isSingletonPuzzle sdk (sdk.parsePuzzle puzzlePtr) = true
  · simp only [hsingleton, if_true] at h
    exact classifies_of_meltLeg hplain hlauncher hnft hsingleton h
  have hplain : Plain sdk coin puzzlePtr solutionPtr :=
    ⟨hplain, hlauncher, hnft, by simpa using hsingleton⟩
  simp only [hsingleton, Bool.false_eq_true, if_false, Option.bind_eq_some_iff,
    toOption_eq_some] at h
  obtain ⟨standard?, hstandard, h⟩ := h
  cases standard? with
  | some publicKey =>
    simp only [Option.bind_eq_some_iff, toOption_eq_some, signedList_eq_some] at h
    obtain ⟨_, ⟨committed, hsigned, rfl⟩, conditions, hrun, h⟩ := h
    obtain rfl := Option.some.inj h
    exact .standardSend hplain hstandard hsigned hrun
  | none =>
  simp only [Option.bind_eq_some_iff, toOption_eq_some] at h
  obtain ⟨claim, hclaim, h⟩ := h
  cases claim with
  | false => cases h
  | true =>
    simp only [if_true, Option.bind_eq_some_iff, toOption_eq_some] at h
    obtain ⟨conditions, hrun, h⟩ := h
    obtain rfl := Option.some.inj h
    exact .settlementClaim hplain hstandard hclaim hrun

theorem legOfNodes_of_classifies (hleg : Classifies sdk coin puzzlePtr solutionPtr leg) :
    legOfNodes sdk coin puzzlePtr solutionPtr = some leg := by
  unfold legOfNodes
  cases hleg with
  | catClaim hcat hclaim hrun => simp [Except.toOption, hcat, catLeg, hclaim, hrun]
  | catSend hcat hclaim hstandard hsigned hrun =>
    simp [Except.toOption, hcat, catLeg, hclaim, hrun, hstandard, signedList, hsigned]
  | optionTransfer hcat hoption hstandard hsigned hrun =>
    simp [Except.toOption, hcat, hoption, optionLeg, hrun, hstandard, signedList, hsigned]
  | launch hplain hlauncher hrun =>
    simp [Except.toOption, hplain.cat, hplain.option, hplain.underlying, hlauncher, hrun]
  | eveMint hplain hlauncher hnft hproof hquoted hcreate hrun =>
    simp [Except.toOption, hplain.cat, hplain.option, hplain.underlying, hlauncher, hnft, nftLeg,
      eveLeg, hproof, hquoted, hcreate, hrun, -List.head?_filterMap]
  | nftTransfer hplain hlauncher hnft hproof hstandard hsigned hcreate hrun =>
    simp [Except.toOption, hplain.cat, hplain.option, hplain.underlying, hlauncher, hnft, nftLeg,
      nftTransferLeg, hproof, hstandard, signedList, hsigned, hcreate, hrun, -List.head?_filterMap]
  | melt hplain hlauncher hnft hsingleton hrun hmessage hsigned =>
    simp [Except.toOption, hplain.cat, hplain.option, hplain.underlying, hlauncher, hnft,
      hsingleton, meltLeg, hrun, hmessage, hsigned]
  | standardSend hplain hstandard hsigned hrun =>
    simp [Except.toOption, hplain.cat, hplain.option, hplain.underlying, hplain.launcher,
      hplain.nft, hplain.singleton, hstandard, signedList, hsigned, hrun]
  | settlementClaim hplain hstandard hclaim hrun =>
    simp [Except.toOption, hplain.cat, hplain.option, hplain.underlying, hplain.launcher,
      hplain.nft, hplain.singleton, hstandard, hclaim, hrun]

/-- **Inversion**: the leg of a coin, by the drivers that gave it. -/
theorem legOfNodes_eq_some : legOfNodes sdk coin puzzlePtr solutionPtr = some leg ↔
    Classifies sdk coin puzzlePtr solutionPtr leg :=
  ⟨classifies_of_legOfNodes, legOfNodes_of_classifies⟩

end

theorem legOf_eq_some {spend : CoinSpend} {leg : Leg sdk} :
    legOf sdk spend = some leg ↔ ∃ puzzlePtr solutionPtr,
      sdk.nodeFromBytes spend.puzzleReveal = .ok puzzlePtr ∧
      sdk.nodeFromBytes spend.solution = .ok solutionPtr ∧
      Classifies sdk spend.coin puzzlePtr solutionPtr leg := by
  unfold legOf
  simp only [Option.bind_eq_bind, Option.bind_eq_some_iff, toOption_eq_some, legOfNodes_eq_some]
  constructor
  · rintro ⟨puzzlePtr, hpuzzle, solutionPtr, hsolution, hleg⟩
    exact ⟨puzzlePtr, solutionPtr, hpuzzle, hsolution, hleg⟩
  · rintro ⟨puzzlePtr, solutionPtr, hpuzzle, hsolution, hleg⟩
    exact ⟨puzzlePtr, hpuzzle, solutionPtr, hsolution, hleg⟩

end Inversion

end DigWallet
