import DigWallet.SimLaws
import DigWallet.Verify.Conservation
import DigWallet.Verify.Signed

/-!
# DigWallet.Verify.Singletons — options, melts and NFTs

`options_denied_iff`: option bundles are default-deny, but for a melt of a coin of amount 0.
`singletons_named`: every other singleton spend is a terminal melt or a named re-home, judged on the
list its commitment fixes.
-/

namespace DigWallet

variable {sdk : Sdk}

/-! ## What the allowlists deny -/

/-- Fees, announcements, messages, owner and metadata updates, TAIL runs and what the decoder does
not know. -/
def isForbiddenAct : Condition → Bool
  | .reserveFee _ | .createCoinAnnouncement _ | .createPuzzleAnnouncement _ | .sendMessage
  | .receiveMessage | .transferNft | .updateNftMetadata | .updateDataStoreMerkleRoot | .runCatTail
  | .remark | .softfork | .other => true
  | _ => false

theorem transferCondition_allows {c : Condition} (h : rejectNonTransferCondition c = .ok ()) :
    isForbiddenAct c = false ∧ c ≠ .meltSingleton := by
  cases c <;> first | (cases h; done) | exact ⟨rfl, nofun⟩

theorem signedMeltCondition_allows {c : Condition} (h : rejectNonMeltCondition c .signed = .ok ()) :
    c.asAggSigMe = none ∧ c.asCreateCoin = none ∧ isForbiddenAct c = false := by
  cases c <;> first | exact ⟨rfl, rfl, rfl⟩ | cases h

theorem rehomeCondition_allows {c : Condition} {cls : RehomeClass} (hcls : cls ≠ .launcher)
    (h : rejectNonRehomeCondition c cls = .ok ()) :
    isForbiddenAct c = false ∧ c ≠ .meltSingleton := by
  cases cls <;> cases c <;> first | (cases h; done) | exact absurd rfl hcls | exact ⟨rfl, nofun⟩

theorem nftSignedCondition_allows {c : Condition}
    (h : rejectNonRehomeCondition c .nftSigned = .ok ()) : c.asAggSigMe = none := by
  cases c <;> first | rfl | cases h

/-! ## The three judged lists -/

variable (sdk) in
/-- One odd `CREATE_COIN` to a non-structural hash, one `AGG_SIG_ME`, and no other act. -/
structure TransferOnly (conditions : List Condition) : Prop where
  rehomes : ∃ owner, Leg.Rehomes sdk conditions owner
  sole : ∃ sig, conditions.filterMap Condition.asAggSigMe = [sig]
  acts : ∀ c ∈ conditions,
    isNonMeAggSig c = false ∧ isForbiddenAct c = false ∧ c ≠ .meltSingleton

/-- One `MELT_SINGLETON` and no other act. -/
structure TerminalMelt (conditions : List Condition) : Prop where
  melts : conditions.countP (· = .meltSingleton) = 1
  acts : ∀ c ∈ conditions, c.asCreateCoin = none ∧ isAggSig c = false ∧ isForbiddenAct c = false

variable (sdk) in
/-- One odd `CREATE_COIN` to `owner`, and no other act. -/
structure RehomeOnly (conditions : List Condition) (owner : Bytes32) : Prop where
  rehomes : Leg.Rehomes sdk conditions owner
  acts : ∀ c ∈ conditions,
    isAggSig c = false ∧ isForbiddenAct c = false ∧ c ≠ .meltSingleton

section Admitted

theorem transferOnly_of_admitted {signed : QuotedConditions sdk} {conditions : List Condition}
    (h : (Leg.optionTransfer signed conditions).Admitted) : TransferOnly sdk conditions := by
  obtain ⟨hcommits, hconditions, create, hsole, hsink⟩ := h
  obtain ⟨publicKey, hsig⟩ := soleAggSigMeMessage_eq_ok.mp hcommits
  refine ⟨⟨create.puzzleHash, create, hsole, rfl, hsink⟩, ⟨_, hsig⟩, fun c hc => ?_⟩
  obtain ⟨hnonMe, hallowed⟩ := hconditions c hc
  exact ⟨hnonMe, transferCondition_allows hallowed⟩

theorem terminalMelt_of_admitted {signed : QuotedConditions sdk} {conditions : List Condition}
    (h : (Leg.melt signed conditions).Admitted) : TerminalMelt signed.conditions := by
  obtain ⟨-, -, hsigned, hmelts⟩ := h
  refine ⟨hmelts, fun c hc => ?_⟩
  obtain ⟨hnonMe, hallowed⟩ := hsigned c hc
  obtain ⟨hme, hcreate, hact⟩ := signedMeltCondition_allows hallowed
  exact ⟨hcreate, by rw [isAggSig, hme, hnonMe]; rfl, hact⟩

theorem rehomeOnly_of_transfer {launcherId destination : Bytes32} {signed : QuotedConditions sdk}
    {conditions : List Condition}
    (h : (Leg.nftTransfer launcherId destination signed conditions).Admitted) :
    RehomeOnly sdk signed.conditions destination := by
  obtain ⟨hsigned, hrehomes, -⟩ := h
  refine ⟨hrehomes, fun c hc => ?_⟩
  obtain ⟨hnonMe, hallowed⟩ := hsigned c hc
  have hme := nftSignedCondition_allows hallowed
  exact ⟨by rw [isAggSig, hme, hnonMe]; rfl, rehomeCondition_allows (by decide) hallowed⟩

theorem rehomeOnly_of_mint {launcherId owner : Bytes32} {quoted : QuotedConditions sdk}
    {conditions : List Condition} (h : (Leg.eveMint launcherId owner quoted conditions).Admitted) :
    RehomeOnly sdk quoted.conditions owner := by
  obtain ⟨hquoted, hrehomes, -⟩ := h
  refine ⟨hrehomes, fun c hc => ?_⟩
  obtain ⟨hnone, hallowed⟩ := hquoted c hc
  exact ⟨hnone, rehomeCondition_allows (by decide) hallowed⟩

end Admitted

/-! ## Classes by their puzzle -/

variable (sdk) in
/-- A singleton top layer that is no option. -/
def isBareSingleton (spend : CoinSpend) : Bool :=
  (match sdk.nodeFromBytes spend.puzzleReveal with
    | .ok puzzlePtr => isSingletonPuzzle sdk (sdk.parsePuzzle puzzlePtr)
    | .error _ => false) && !isOptionCoin sdk spend

def Leg.isOptionTransfer : Leg sdk → Bool
  | optionTransfer _ _ => true
  | _ => false

def Leg.isMelt : Leg sdk → Bool
  | melt _ _ => true
  | _ => false

/-- The NFT act the leg names. -/
def Leg.operation? : Leg sdk → Option NftOperation
  | nftTransfer launcherId destination _ _ => some (.transfer launcherId destination)
  | eveMint launcherId owner _ _ => some (.mint launcherId owner)
  | _ => none

theorem operation?_of_isMelt (leg : Leg sdk) (h : leg.isMelt = true) : leg.operation? = none := by
  cases leg with
  | melt _ _ => rfl
  | _ => cases h

/-- The quoted list a commitment fixes: the signature's, or for an eve its puzzle's. -/
def Leg.committed? : Leg sdk → Option (List Condition)
  | eveMint _ _ quoted _ => some quoted.conditions
  | leg => leg.signed?.map QuotedConditions.conditions

section Classes

variable {spend : CoinSpend} {leg : Leg sdk}

theorem isOptionCoin_of_nodes {puzzlePtr solutionPtr : Node}
    (hreveal : sdk.nodeFromBytes spend.puzzleReveal = .ok puzzlePtr)
    (hsolution : sdk.nodeFromBytes spend.solution = .ok solutionPtr) :
    isOptionCoin sdk spend = true ↔
      (∃ option, sdk.optionContractParse spend.coin (sdk.parsePuzzle puzzlePtr) solutionPtr =
        .ok (some option)) ∨
      sdk.p2OneOfManyParsePuzzle (sdk.parsePuzzle puzzlePtr) = .ok true := by
  unfold isOptionCoin
  rw [hreveal, hsolution]
  simp only [Bool.or_eq_true]
  refine or_congr ?_ ?_
  · split
    · rename_i option heq
      simp [heq]
    · rename_i hne
      simp only [Bool.false_eq_true, false_iff, not_exists]
      exact hne
  · split
    · rename_i heq
      simp [heq]
    · rename_i hne
      simp only [Bool.false_eq_true, false_iff]
      exact hne

variable (hlayers : sdk.LayersDisjoint)
include hlayers

/-- In an accepted bundle the option coins are the option transfers. -/
theorem isOptionCoin_eq (hleg : legOf sdk spend = some leg) :
    isOptionCoin sdk spend = leg.isOptionTransfer := by
  obtain ⟨puzzlePtr, solutionPtr, hreveal, hsolution, hclass⟩ := legOf_eq_some.mp hleg
  have hunlayered : Unlayered sdk spend.coin puzzlePtr solutionPtr →
      isOptionCoin sdk spend = false := by
    intro hplain
    rw [Bool.eq_false_iff, ne_eq, isOptionCoin_of_nodes hreveal hsolution]
    rintro (⟨option, hoption⟩ | hunderlying)
    · rw [hplain.option] at hoption
      cases hoption
    · rw [hplain.underlying] at hunderlying
      cases hunderlying
  have hcat : ∀ {cat}, sdk.catParse spend.coin (sdk.parsePuzzle puzzlePtr) solutionPtr =
      .ok (some cat) → isOptionCoin sdk spend = false := by
    intro cat hcat
    rw [Bool.eq_false_iff, ne_eq, isOptionCoin_of_nodes hreveal hsolution]
    rintro (⟨option, hoption⟩ | hunderlying)
    · exact hlayers.cat_of_option hoption hcat
    · exact hlayers.cat_of_underlying hunderlying hcat
  cases hclass with
  | catClaim h _ _ => exact hcat h
  | catSend h _ _ _ _ => exact hcat h
  | optionTransfer _ h _ _ _ => exact (isOptionCoin_of_nodes hreveal hsolution).mpr (.inl ⟨_, h⟩)
  | launch hplain _ _ => exact hunlayered hplain
  | eveMint hplain _ _ _ _ _ _ => exact hunlayered hplain
  | nftTransfer hplain _ _ _ _ _ _ _ => exact hunlayered hplain
  | melt hplain _ _ _ _ _ _ => exact hunlayered hplain
  | standardSend hplain _ _ _ => exact hunlayered hplain.toUnlayered
  | settlementClaim hplain _ _ _ => exact hunlayered hplain.toUnlayered

/-- A coin with a leg is no option underlying. -/
theorem not_underlying_of_leg (hleg : legOf sdk spend = some leg) {puzzlePtr : Node}
    (hreveal : sdk.nodeFromBytes spend.puzzleReveal = .ok puzzlePtr) :
    sdk.p2OneOfManyParsePuzzle (sdk.parsePuzzle puzzlePtr) ≠ .ok true := by
  intro hunderlying
  obtain ⟨puzzlePtr', solutionPtr, hreveal', hsolution, hclass⟩ := legOf_eq_some.mp hleg
  obtain rfl := Except.ok.inj (hreveal.symm.trans hreveal')
  have hplain : ¬ Unlayered sdk spend.coin puzzlePtr solutionPtr := by
    intro hplain
    rw [hplain.underlying] at hunderlying
    cases hunderlying
  cases hclass with
  | catClaim h _ _ => exact hlayers.cat_of_underlying hunderlying h
  | catSend h _ _ _ _ => exact hlayers.cat_of_underlying hunderlying h
  | optionTransfer _ h _ _ _ => exact hlayers.option_of_underlying hunderlying h
  | launch h _ _ => exact hplain h
  | eveMint h _ _ _ _ _ _ => exact hplain h
  | nftTransfer h _ _ _ _ _ _ _ => exact hplain h
  | melt h _ _ _ _ _ _ => exact hplain h
  | standardSend h _ _ _ => exact hplain h.toUnlayered
  | settlementClaim h _ _ _ => exact hplain h.toUnlayered

/-- In an accepted bundle the bare singletons are the melts and the named NFTs. -/
theorem isBareSingleton_eq (hleg : legOf sdk spend = some leg) {puzzlePtr : Node}
    (hreveal : sdk.nodeFromBytes spend.puzzleReveal = .ok puzzlePtr)
    (hhash : sdk.treeHash puzzlePtr = spend.coin.puzzleHash) :
    isBareSingleton sdk spend = (leg.isMelt || leg.operation?.isSome) := by
  have hoption := isOptionCoin_eq hlayers hleg
  obtain ⟨puzzlePtr', solutionPtr, hreveal', hsolution, hclass⟩ := legOf_eq_some.mp hleg
  obtain rfl := Except.ok.inj (hreveal.symm.trans hreveal')
  have hbare : isBareSingleton sdk spend =
      (isSingletonPuzzle sdk (sdk.parsePuzzle puzzlePtr) && !leg.isOptionTransfer) := by
    unfold isBareSingleton
    rw [hreveal, hoption]
  rw [hbare]
  have hcat : ∀ {cat}, sdk.catParse spend.coin (sdk.parsePuzzle puzzlePtr) solutionPtr =
      .ok (some cat) → isSingletonPuzzle sdk (sdk.parsePuzzle puzzlePtr) = false := by
    intro cat hcat
    rw [Bool.eq_false_iff]
    intro hsingleton
    exact hlayers.cat_of_singleton (of_decide_eq_true hsingleton) hcat
  have hnft : ∀ {nft}, sdk.nftParse spend.coin (sdk.parsePuzzle puzzlePtr) solutionPtr =
      .ok (some nft) → isSingletonPuzzle sdk (sdk.parsePuzzle puzzlePtr) = true :=
    fun hnft => decide_eq_true (hlayers.singleton_of_nft hnft)
  cases hclass with
  | catClaim h _ _ => rw [hcat h]; rfl
  | catSend h _ _ _ _ => rw [hcat h]; rfl
  | optionTransfer _ _ _ _ _ => exact Bool.and_false _
  | launch _ hlauncher _ =>
    have hsingleton : isSingletonPuzzle sdk (sdk.parsePuzzle puzzlePtr) = false := by
      rw [Bool.eq_false_iff]
      intro hsingleton
      exact hlayers.launcher_of_singleton (of_decide_eq_true hsingleton) (hhash.trans hlauncher)
    rw [hsingleton]
    rfl
  | eveMint _ _ h _ _ _ _ => rw [hnft h]; rfl
  | nftTransfer _ _ h _ _ _ _ _ => rw [hnft h]; rfl
  | melt _ _ _ hsingleton _ _ _ => rw [hsingleton]; rfl
  | standardSend hplain _ _ _ => rw [hplain.singleton]; rfl
  | settlementClaim hplain _ _ _ => rw [hplain.singleton]; rfl

end Classes

/-! ## The entries of an accepted bundle -/

section Accepted

variable {coinSpends : List CoinSpend} {effect : SpendEffect}

theorem Accepts.melted_eq (h : Accepts sdk coinSpends effect) : effect.meltedSingletons =
    ((legs sdk coinSpends).filter fun p => p.2.isMelt).map fun p => sdk.coinId p.1 := by
  rw [h.meltedSingletons, bundleTally_facts coinSpends Tally.meltedSingletons rfl
    Tally.add_meltedSingletons (fun _ => rfl) tally_meltedSingletons]
  refine flatMap_eq_map_filter (fun p => ?_) _
  cases p.2 <;> rfl

theorem Accepts.operations_eq (h : Accepts sdk coinSpends effect) : effect.nftOperations =
    (legs sdk coinSpends).filterMap fun p => p.2.operation? := by
  rw [h.nftOperations, bundleTally_facts coinSpends Tally.nftOperations rfl
    Tally.add_nftOperations (fun _ => rfl) tally_nftOperations, List.filterMap_eq_flatMap_toList]
  apply List.flatMap_congr
  intro p _
  cases p.2 <;> rfl

/-- A destroyed total of 0 leaves only melts of amount 0. -/
theorem amount_of_destroyedMojos {legs : List (Coin × Leg sdk)} (h : destroyedMojos legs = 0)
    {p : Coin × Leg sdk} (hp : p ∈ legs) (hmelt : p.2.isMelt = true) : p.1.amount = 0 := by
  have hzero : p.2.destroyed p.1 = 0 :=
    List.sum_eq_zero_iff_forall_eq_nat.mp h _ (List.mem_map.mpr ⟨p, hp, rfl⟩)
  obtain ⟨coin, leg⟩ := p
  cases leg with
  | melt _ _ => exact UInt64.toNat_inj.mp hzero
  | _ => cases hmelt

/-- An accepted option bundle destroys 0 mojos. -/
theorem Accepts.destroyed_of_option (h : Accepts sdk coinSpends effect)
    (hoption : ∃ spend ∈ coinSpends, isOptionCoin sdk spend = true) :
    destroyedMojos (legs sdk coinSpends) = 0 := by
  have hbundle : isOptionBundle sdk coinSpends = true := List.any_eq_true.mpr hoption
  have hmode := h.xch.2
  rw [if_pos hbundle, bundleTally_melted] at hmode
  exact hmode

variable (sdk) in
/-- Option bundles are default-deny. -/
structure OptionsDenied (coinSpends : List CoinSpend) (effect : SpendEffect) : Prop where
  noUnderlying : ∀ spend ∈ coinSpends, ∀ puzzlePtr,
    sdk.nodeFromBytes spend.puzzleReveal = .ok puzzlePtr →
    sdk.p2OneOfManyParsePuzzle (sdk.parsePuzzle puzzlePtr) ≠ .ok true
  transfers : ∀ spend ∈ coinSpends, isOptionCoin sdk spend = true → ∃ signed conditions,
    legOf sdk spend = some (.optionTransfer signed conditions) ∧ TransferOnly sdk conditions
  noMelt : (∃ spend ∈ coinSpends, isOptionCoin sdk spend = true) → effect.meltedSingletons = []

variable (sdk) in
/-- Every other singleton spend is one entry: a terminal melt or a named re-home. -/
structure SingletonsNamed (coinSpends : List CoinSpend) (effect : SpendEffect) : Prop where
  judged : ∀ spend ∈ coinSpends, isBareSingleton sdk spend = true → ∃ leg committed,
    legOf sdk spend = some leg ∧ leg.committed? = some committed ∧
    ((leg.isMelt = true ∧ leg.operation? = none ∧
        sdk.coinId spend.coin ∈ effect.meltedSingletons ∧ TerminalMelt committed) ∨
      (leg.isMelt = false ∧ ∃ operation, leg.operation? = some operation ∧
        operation ∈ effect.nftOperations ∧ RehomeOnly sdk committed operation.owner))
  melted : effect.meltedSingletons =
    ((legs sdk coinSpends).filter fun p => p.2.isMelt).map fun p => sdk.coinId p.1
  operations : effect.nftOperations = (legs sdk coinSpends).filterMap fun p => p.2.operation?
  count : effect.meltedSingletons.length + effect.nftOperations.length =
    coinSpends.countP (isBareSingleton sdk)

theorem Accepts.judged (hlayers : sdk.LayersDisjoint) (h : Accepts sdk coinSpends effect)
    {spend : CoinSpend} (hspend : spend ∈ coinSpends) (hbare : isBareSingleton sdk spend = true) :
    ∃ leg committed, legOf sdk spend = some leg ∧ leg.committed? = some committed ∧
      ((leg.isMelt = true ∧ leg.operation? = none ∧
          sdk.coinId spend.coin ∈ effect.meltedSingletons ∧ TerminalMelt committed) ∨
        (leg.isMelt = false ∧ ∃ operation, leg.operation? = some operation ∧
          operation ∈ effect.nftOperations ∧ RehomeOnly sdk committed operation.owner)) := by
  obtain ⟨⟨puzzlePtr, hreveal, hhash⟩, leg, hleg, hadmitted⟩ := h.admitted spend hspend
  rw [isBareSingleton_eq hlayers hleg hreveal hhash] at hbare
  have hmem : (spend.coin, leg) ∈ legs sdk coinSpends :=
    mem_legs.mpr ⟨spend, hspend, rfl, hleg⟩
  have hnamed : ∀ operation, leg.operation? = some operation →
      operation ∈ effect.nftOperations := by
    intro operation hoperation
    rw [h.operations_eq]
    exact List.mem_filterMap.mpr ⟨_, hmem, hoperation⟩
  cases leg with
  | melt signed conditions =>
    refine ⟨_, signed.conditions, hleg, rfl, .inl ⟨rfl, rfl, ?_, terminalMelt_of_admitted hadmitted⟩⟩
    rw [h.melted_eq]
    exact List.mem_map.mpr ⟨_, List.mem_filter.mpr ⟨hmem, rfl⟩, rfl⟩
  | nftTransfer launcherId destination signed conditions =>
    exact ⟨_, signed.conditions, hleg, rfl,
      .inr ⟨rfl, _, rfl, hnamed _ rfl, rehomeOnly_of_transfer hadmitted⟩⟩
  | eveMint launcherId owner quoted conditions =>
    exact ⟨_, quoted.conditions, hleg, rfl,
      .inr ⟨rfl, _, rfl, hnamed _ rfl, rehomeOnly_of_mint hadmitted⟩⟩
  | _ => cases hbare

theorem countP_isBareSingleton (hlayers : sdk.LayersDisjoint)
    (hadm : ∀ spend ∈ coinSpends, Admitted sdk spend) :
    (legs sdk coinSpends).countP (fun p => p.2.isMelt) +
      (legs sdk coinSpends).countP (fun p => p.2.operation?.isSome) =
      coinSpends.countP (isBareSingleton sdk) := by
  induction coinSpends with
  | nil => rfl
  | cons spend coinSpends ih =>
    obtain ⟨⟨puzzlePtr, hreveal, hhash⟩, leg, hleg, -⟩ := hadm spend (List.mem_cons_self ..)
    have htail := ih fun s hs => hadm s (List.mem_cons_of_mem _ hs)
    have hbare := isBareSingleton_eq hlayers hleg hreveal hhash
    have hone := operation?_of_isMelt leg
    rw [legs_cons hleg, List.countP_cons, List.countP_cons, List.countP_cons, hbare]
    cases hmelt : leg.isMelt with
    | true =>
      simp only [hone hmelt, Option.isSome_none, Bool.or_false, if_true]
      simp only [Bool.false_eq_true, if_false]
      omega
    | false =>
      simp only [Bool.false_or, Bool.false_eq_true, if_false]
      omega

end Accepted

/-! ## Results -/

/-- **Option bundles.** -/
theorem options_denied_iff (sdk : Sdk) (hlayers : sdk.LayersDisjoint) (coinSpends : List CoinSpend)
    (effect : SpendEffect) (h : analyze sdk coinSpends = .ok effect) :
    OptionsDenied sdk coinSpends effect ↔
      ¬ ((∃ spend ∈ coinSpends, isOptionCoin sdk spend = true) ∧
        ∃ p ∈ legs sdk coinSpends, p.2.isMelt = true ∧ p.1.amount = 0) := by
  have haccepts := (analyze_eq_ok sdk).mp h
  constructor
  · rintro hdenied ⟨hoption, p, hp, hmelt, -⟩
    have hnone := hdenied.noMelt hoption
    have hmem : sdk.coinId p.1 ∈ effect.meltedSingletons := by
      rw [haccepts.melted_eq]
      exact List.mem_map.mpr ⟨p, List.mem_filter.mpr ⟨hp, hmelt⟩, rfl⟩
    rw [hnone] at hmem
    cases hmem
  · intro hcondition
    refine ⟨fun spend hspend puzzlePtr hreveal => ?_, fun spend hspend hoption => ?_,
      fun hoption => ?_⟩
    · obtain ⟨-, leg, hleg, -⟩ := haccepts.admitted spend hspend
      exact not_underlying_of_leg hlayers hleg hreveal
    · obtain ⟨-, leg, hleg, hadmitted⟩ := haccepts.admitted spend hspend
      rw [isOptionCoin_eq hlayers hleg] at hoption
      cases leg with
      | optionTransfer signed conditions =>
        exact ⟨signed, conditions, hleg, transferOnly_of_admitted hadmitted⟩
      | _ => cases hoption
    · have hzero := haccepts.destroyed_of_option hoption
      rw [haccepts.melted_eq, List.map_eq_nil_iff, List.filter_eq_nil_iff]
      intro p hp hmelt
      exact hcondition ⟨hoption, p, hp, hmelt, amount_of_destroyedMojos hzero hp hmelt⟩

/-- **Melts and NFTs.** -/
theorem singletons_named (sdk : Sdk) (hlayers : sdk.LayersDisjoint) (coinSpends : List CoinSpend)
    (effect : SpendEffect) (h : analyze sdk coinSpends = .ok effect) :
    SingletonsNamed sdk coinSpends effect := by
  have haccepts := (analyze_eq_ok sdk).mp h
  refine ⟨fun spend hspend hbare => haccepts.judged hlayers hspend hbare, haccepts.melted_eq,
    haccepts.operations_eq, ?_⟩
  rw [haccepts.melted_eq, haccepts.operations_eq, List.length_map, ← List.countP_eq_length_filter,
    List.length_filterMap_eq_countP]
  exact countP_isBareSingleton hlayers haccepts.admitted

section Witness

open Sim

/-- A transfer of an option to `7…7`. -/
def optionSpend : CoinSpend :=
  spendOf (singletonParent (.rep 8)) (optionPuzzle (.rep 8) (standardPuzzle walletKey)) 1
    (Sim.list [lineageProof, num 1, Sim.list [signing [createCoin (.rep 7) 1]]])

/-- A melt of a singleton of `amount`, for which the solution says 1. -/
def meltSpend (amount : UInt64) : CoinSpend :=
  spendOf (singletonParent (.rep 3)) (singletonPuzzle (.rep 3) (standardPuzzle walletKey)) amount
    (Sim.list [lineageProof, num 1, signing [meltMarker]])

/-- A transfer of an NFT to `7…7`. -/
def nftSpend : CoinSpend :=
  spendOf (singletonParent (.rep 5)) (nftPuzzle (.rep 5) (standardPuzzle walletKey)) 1
    (Sim.list [lineageProof, num 1, Sim.list [signing [createCoin (.rep 7) 1]]])

set_option maxRecDepth 8000 in
theorem options_denied_iff_optionSpend : ∃ effect, OptionsDenied sim [optionSpend] effect := by
  refine ⟨⟨[⟨.rep 7, 1, none⟩], [], 0, [], []⟩,
    (options_denied_iff sim layersDisjoint [optionSpend] _ rfl).mpr ?_⟩
  rintro ⟨-, p, hp, hmelt, -⟩
  obtain rfl := List.mem_singleton.mp hp
  cases hmelt

set_option maxRecDepth 8000 in
/-- A melt of a coin of amount 0, of which its solution says 1, rides an option bundle. -/
theorem options_not_denied : ¬ ∀ (sdk : Sdk), sdk.LayersDisjoint →
    ∀ (coinSpends : List CoinSpend) (effect : SpendEffect),
      analyze sdk coinSpends = .ok effect → OptionsDenied sdk coinSpends effect := by
  intro hall
  have hdenied := hall sim layersDisjoint [optionSpend, meltSpend 0]
    ⟨[⟨.rep 7, 1, none⟩], [], 0, [], [coinId (meltSpend 0).coin]⟩ rfl
  have hnone := hdenied.noMelt ⟨optionSpend, List.mem_cons_self .., rfl⟩
  cases hnone

set_option maxRecDepth 8000 in
theorem singletons_named_meltAndTransfer :
    [coinId (meltSpend 1).coin].length + [NftOperation.transfer (.rep 5) (.rep 7)].length =
      [nftSpend, meltSpend 1].countP (isBareSingleton sim) :=
  (singletons_named sim layersDisjoint [nftSpend, meltSpend 1]
    ⟨[⟨.rep 7, 1, none⟩], [], 1, [.transfer (.rep 5) (.rep 7)], [coinId (meltSpend 1).coin]⟩
    rfl).count

end Witness

end DigWallet
