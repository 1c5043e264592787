import DigWallet.Engine.Balances
import DigWallet.Lib.Runs
import DigWallet.SimOptions

/-!
# DigWallet.Engine.OptionCustody — an option from its mint through any transfers

`option_custody`: whatever handles and projections the clients hand in, the option minted is operated
under the terms it was minted with and by its current owner alone, who needs nothing but the handle of
the mint and the parent spend on the chain.
-/

namespace DigWallet

open Faults Totals

/-! ## The option on the chain -/

/-- A transfer one of the wallets was asked for. -/
structure OptionTransfer where
  builder : SdkSpendBuilder
  request : TransferOptionRequest

/-- The unspent option, the spend that created it, and the transfers confirmed so far. -/
structure LiveOption where
  parent : CoinSpend
  option : OptionContract
  confirmed : List OptionTransfer

namespace OptionLibs

variable (libs : OptionLibs)

/-- The child of a spend that is an option. -/
def childOf (spend : CoinSpend) : Option OptionContract :=
  match libs.options.parseChild spend.coin spend.puzzleReveal spend.solution with
  | .ok child => child
  | .error _ => none

/-- A transfer is built and, if it spends the live option, confirmed. -/
def confirmTransfer (live : LiveOption) (transfer : OptionTransfer) : Option LiveOption := do
  let unsigned ← (libs.buildTransferOption transfer.builder transfer.request).toOption
  let parent ← unsigned.coinSpends.find? fun spend => spend.coin = live.option.coin
  let option ← libs.childOf parent
  some ⟨parent, option, live.confirmed ++ [transfer]⟩

/-- No hash of what the transfer operates collides with one of the live option. -/
def Unforged (hashes : OptionHashes) (terms : RehydratedTerms) (underlyingCoin : Coin)
    (live : LiveOption) (transfer : OptionTransfer) : Prop :=
  ∀ created key, libs.rehydrateOption transfer.builder transfer.request.handle
    transfer.request.onChain = .ok (created, key) →
    hashes.Apart libs.sdk created ⟨live.option, underlyingCoin, terms⟩

/-- Where the last transfer went, or `first`. -/
def ownerAfter (first : Bytes32) (confirmed : List OptionTransfer) : Bytes32 :=
  confirmed.foldl (fun owner transfer =>
    ((libs.parsePuzzleHash transfer.request.toPuzzleHash).toOption).getD owner) first

/-- What a client that reads the chain hands in for the live option. -/
def projection (live : LiveOption) (underlyingCoin : Coin) : OptionOnChainState where
  optionParentCoin := ⟨hexEncode live.parent.coin.parentCoinInfo.bytes,
    hexEncode live.parent.coin.puzzleHash.bytes, live.parent.coin.amount⟩
  optionParentPuzzleReveal := hexEncode live.parent.puzzleReveal
  optionParentSolution := hexEncode live.parent.solution
  underlyingCoin := ⟨hexEncode underlyingCoin.parentCoinInfo.bytes,
    hexEncode underlyingCoin.puzzleHash.bytes, underlyingCoin.amount⟩

/-- The handle names this option and these terms. -/
structure Names (handle : OptionHandle) (launcherId : Bytes32) (terms : RehydratedTerms) : Prop where
  launcher : libs.parseBytes32 handle.launcherId "launcher id" = .ok launcherId
  creator : libs.parsePuzzleHash handle.creatorPuzzleHash = .ok terms.creatorPuzzleHash
  expiry : handle.expirySeconds = terms.expirySeconds
  strike : handle.strike = terms.strikeType

/-- `coin` is the least of the coins with `p` that cover `needed`, and the fee is its excess. -/
structure FundedBy (coins : List Coin) (p : Coin → Bool) (needed fee allowed : UInt64) (coin : Coin) :
    Prop where
  listed : coin ∈ coins
  eligible : p coin = true
  exact : coin.amount.toNat = needed.toNat + fee.toNat
  allowed : fee ≤ allowed
  least : ∀ other ∈ coins, p other = true → needed ≤ other.amount → coin.amount ≤ other.amount

/-- The live option is in its owner's custody, under `terms`. -/
structure InCustody (hashes : OptionHashes) (first : Bytes32) (handle : OptionHandle)
    (terms : RehydratedTerms) (underlyingCoin : Coin) (live : LiveOption) : Prop where
  owner : live.option.info.p2PuzzleHash = libs.ownerAfter first live.confirmed
  names : libs.Names handle live.option.info.launcherId terms
  /-- Every transfer was built by a wallet with the key of the owner at that time. -/
  byOwner : ∀ before transfer, before ++ [transfer] <+: live.confirmed →
    (transfer.builder.inputs.syntheticKey (libs.ownerAfter first before)).isSome
  /-- The owner's wallet accepts the handle of the mint and the chain's own projection. -/
  complete : ∀ (builder : SdkSpendBuilder) key,
    builder.inputs.syntheticKey live.option.info.p2PuzzleHash = some key →
    libs.rehydrateOption builder handle (projection live underlyingCoin) =
      .ok (⟨live.option, underlyingCoin, terms⟩, key)
  /-- Any handle and projection a wallet accepts for the live option are those of the mint. -/
  sound : ∀ builder handle' onChain created key,
    libs.rehydrateOption builder handle' onChain = .ok (created, key) →
    created.option.coin = live.option.coin →
    hashes.Apart libs.sdk created ⟨live.option, underlyingCoin, terms⟩ →
    created = ⟨live.option, underlyingCoin, terms⟩ ∧
      builder.inputs.syntheticKey live.option.info.p2PuzzleHash = some key ∧
      libs.Names handle' live.option.info.launcherId terms
  /-- An exercise spends the live option, settles the minted underlying to its owner and the minted
  strike to the minted creator, the latter out of the owner's least coin that covers it. -/
  exercise : ∀ builder request unsigned created key,
    libs.rehydrateOption builder request.handle request.onChain = .ok (created, key) →
    created.option.coin = live.option.coin →
    hashes.Apart libs.sdk created ⟨live.option, underlyingCoin, terms⟩ →
    libs.buildExerciseOption builder request = .ok unsigned →
    ∃ address, libs.encodePuzzleHash terms.creatorPuzzleHash = .ok address ∧
      unsigned.summary.outputs = [⟨address, ⟨strikeAmountMojos terms.strikeType⟩, none⟩] ∧
      ∃ coins coin, builder.inputs.spendableXch request.identity = .ok coins ∧
        FundedBy coins (fun coin => coin.puzzleHash = live.option.info.p2PuzzleHash)
          (strikeAmountMojos terms.strikeType) unsigned.summary.fee.mojos request.fee.mojos coin ∧
        Exercises libs.sdk unsigned.coinSpends ⟨live.option, underlyingCoin, terms⟩ coin
          (strikeAmountMojos terms.strikeType)

/-! ## Reading the projection -/

section Reading

variable {libs} {builder : SdkSpendBuilder} {handle : OptionHandle} {onChain : OptionOnChainState}
  {created : CreatedOption} {key : PublicKey}

theorem orElseFailed_eq_ok {α : Type} {message : String} {o : Option α} {a : α} :
    orElseFailed message o = .ok a ↔ o = some a := by
  cases o <;> simp [orElseFailed]

theorem orFailed_eq_ok {α : Type} {what : String} {r : Except OptionsError α} {a : α} :
    libs.orFailed what r = .ok a ↔ r = .ok a := by
  cases r <;> simp [orFailed]

theorem orOptionsError_eq_ok {α : Type} {r : Except OptionsError α} {a : α} :
    orOptionsError r = .ok a ↔ r = .ok a := by
  cases r with
  | ok b => simp [orOptionsError]
  | error e => cases e <;> simp [orOptionsError]

/-- What a wallet checks of the option it is to operate. -/
theorem rehydrateOption_eq_ok :
    libs.rehydrateOption builder handle onChain = .ok (created, key) ↔
      ∃ parent reveal solution underlying parsed creator,
        libs.decodeWireCoin onChain.optionParentCoin = .ok parent ∧
        libs.decodeProgram onChain.optionParentPuzzleReveal "puzzle reveal" = .ok reveal ∧
        libs.decodeProgram onChain.optionParentSolution "solution" = .ok solution ∧
        libs.decodeWireCoin onChain.underlyingCoin = .ok underlying ∧
        libs.options.parseChild parent reveal solution = .ok (some parsed) ∧
        libs.parseBytes32 handle.launcherId "launcher id" = .ok parsed.info.launcherId ∧
        libs.parsePuzzleHash handle.creatorPuzzleHash = .ok creator ∧
        libs.options.rehydrate parsed ⟨creator, handle.expirySeconds, handle.strike⟩ underlying =
          .ok created ∧
        builder.inputs.syntheticKey parsed.info.p2PuzzleHash = some key := by
  unfold rehydrateOption
  simp only [bind_eq_ok, orFailed_eq_ok, orElseFailed_eq_ok]
  constructor
  · rintro ⟨parent, hparent, reveal, hreveal, solution, hsolution, underlying, hunderlying, child,
      hchild, parsed, rfl, launcher, hlauncher, h⟩
    by_cases hmatch : parsed.info.launcherId ≠ launcher
    · rw [if_pos hmatch] at h
      cases h
    · rw [if_neg hmatch] at h
      obtain rfl := not_not.mp hmatch
      simp only [bind_eq_ok, orFailed_eq_ok, orElseFailed_eq_ok, Except.ok.injEq,
        Prod.mk.injEq] at h
      obtain ⟨creator, hcreator, _, hrehydrate, _, hkey, rfl, rfl⟩ := h
      exact ⟨parent, reveal, solution, underlying, parsed, creator, hparent, hreveal, hsolution,
        hunderlying, hchild, hlauncher, hcreator, hrehydrate, hkey⟩
  · rintro ⟨parent, reveal, solution, underlying, parsed, creator, hparent, hreveal, hsolution,
      hunderlying, hchild, hlauncher, hcreator, hrehydrate, hkey⟩
    refine ⟨parent, hparent, reveal, hreveal, solution, hsolution, underlying, hunderlying, _, hchild,
      parsed, rfl, _, hlauncher, ?_⟩
    rw [if_neg (not_not.mpr rfl)]
    simp only [bind_eq_ok, orFailed_eq_ok, orElseFailed_eq_ok, Except.ok.injEq, Prod.mk.injEq]
    exact ⟨creator, hcreator, created, hrehydrate, key, hkey, rfl, rfl⟩

theorem childOf_eq_some {spend : CoinSpend} {child : OptionContract} :
    libs.childOf spend = some child ↔
      libs.options.parseChild spend.coin spend.puzzleReveal spend.solution = .ok (some child) := by
  unfold childOf
  cases libs.options.parseChild spend.coin spend.puzzleReveal spend.solution with
  | error e => simp
  | ok parsed => simp

variable (hhex : ∀ bytes, libs.hexDecode (hexEncode bytes) = .ok bytes)
include hhex

theorem parseBytes32_hexEncode (hash : Bytes32) (label : String) :
    libs.parseBytes32 (hexEncode hash.bytes) label = .ok hash := by
  unfold parseBytes32
  rw [hhex]
  simp

theorem decodeProgram_hexEncode (bytes : Bytes) (label : String) :
    libs.decodeProgram (hexEncode bytes) label = .ok bytes := by
  unfold decodeProgram
  rw [hhex]

theorem decodeWireCoin_hexEncode (coin : Coin) :
    libs.decodeWireCoin ⟨hexEncode coin.parentCoinInfo.bytes, hexEncode coin.puzzleHash.bytes,
      coin.amount⟩ = .ok coin := by
  unfold decodeWireCoin
  rw [parseBytes32_hexEncode hhex, parseBytes32_hexEncode hhex]
  rfl

end Reading

/-! ## The live option -/

section Live

variable {libs} {hashes : OptionHashes}
  {launcherId : Bytes32} {terms : RehydratedTerms} {underlyingCoin : Coin} {live live' : LiveOption}

/-- The live option is the one minted, whoever owns it. -/
structure Tracked (libs : OptionLibs) (hashes : OptionHashes) (launcherId : Bytes32)
    (terms : RehydratedTerms) (underlyingCoin : Coin) (live : LiveOption) : Prop where
  created : libs.childOf live.parent = some live.option
  launcher : live.option.info.launcherId = launcherId
  bound : hashes.Commits libs.sdk live.option.info terms underlyingCoin

variable (hkeep : libs.options.Keep libs.drivers libs.sdk hashes)
  (htracked : Tracked libs hashes launcherId terms underlyingCoin live)
include hkeep htracked

theorem sound_of_tracked {builder : SdkSpendBuilder} {handle : OptionHandle}
    {onChain : OptionOnChainState} {created : CreatedOption} {key : PublicKey}
    (h : libs.rehydrateOption builder handle onChain = .ok (created, key))
    (hcoin : created.option.coin = live.option.coin)
    (hapart : hashes.Apart libs.sdk created ⟨live.option, underlyingCoin, terms⟩) :
    created = ⟨live.option, underlyingCoin, terms⟩ ∧
      builder.inputs.syntheticKey live.option.info.p2PuzzleHash = some key ∧
      libs.Names handle live.option.info.launcherId terms := by
  obtain ⟨parent, reveal, solution, underlying, parsed, creator, -, -, -, -, hchild, hlauncher,
    hcreator, hrehydrate, hkey⟩ := rehydrateOption_eq_ok.mp h
  obtain ⟨hcommits, rfl⟩ := hkeep.rehydrate.mp hrehydrate
  -- the coin has the puzzle hash of both options, so they are one
  have hlive := hkeep.parseChild (childOf_eq_some.mp htracked.created)
  have hinfo : parsed.info = live.option.info :=
    hapart.option ((hkeep.parseChild hchild).symm.trans ((congrArg Coin.puzzleHash hcoin).trans hlive))
  obtain ⟨parsedCoin, parsedInfo⟩ := parsed
  obtain rfl : parsedCoin = live.option.coin := hcoin
  obtain rfl : parsedInfo = live.option.info := hinfo
  -- then its commitments are those of one underlying coin and of one list of terms
  have hbound := htracked.bound
  obtain rfl : underlying = underlyingCoin :=
    hapart.underlyingCoin (hcommits.coinId.trans hbound.coinId.symm)
  have hterms : (⟨creator, handle.expirySeconds, handle.strike⟩ : RehydratedTerms) = terms :=
    hapart.terms _ _ (hcommits.delegated.trans hbound.delegated.symm)
      (hcommits.path.trans hbound.path.symm)
  subst hterms
  exact ⟨rfl, hkey, hlauncher, hcreator, rfl, rfl⟩

theorem complete_of_tracked (hhex : ∀ bytes, libs.hexDecode (hexEncode bytes) = .ok bytes)
    {handle : OptionHandle} (hnames : libs.Names handle launcherId terms) {builder : SdkSpendBuilder}
    {key : PublicKey} (hkey : builder.inputs.syntheticKey live.option.info.p2PuzzleHash = some key) :
    libs.rehydrateOption builder handle (projection live underlyingCoin) =
      .ok (⟨live.option, underlyingCoin, terms⟩, key) := by
  refine rehydrateOption_eq_ok.mpr ⟨live.parent.coin, live.parent.puzzleReveal, live.parent.solution,
    underlyingCoin, live.option, terms.creatorPuzzleHash, decodeWireCoin_hexEncode hhex _,
    decodeProgram_hexEncode hhex _ _, decodeProgram_hexEncode hhex _ _,
    decodeWireCoin_hexEncode hhex _, childOf_eq_some.mp htracked.created, ?_, hnames.creator, ?_, hkey⟩
  · rw [htracked.launcher]
    exact hnames.launcher
  · rw [hnames.expiry, hnames.strike]
    exact hkeep.rehydrate.mpr ⟨htracked.bound, rfl⟩

end Live

/-! ## Funding -/

section Funding

variable {libs} {builder : SdkSpendBuilder} {coins : List Coin} {p : Coin → Bool}
  {needed ceiling fee allowed : UInt64} {coin : Coin}

/-- The least covering coin, within what is allowed, leaves the fee. -/
theorem fundedBy_of_smallestCovering (hcoin : smallestCovering coins p needed = some coin)
    (hceiling : checkedAdd needed allowed = some ceiling) (hwithin : ¬ ceiling < coin.amount)
    (hfee : subU64 libs.overflowChecks coin.amount needed = some fee) :
    FundedBy coins p needed fee allowed coin := by
  have hmem := List.argmin_mem (Option.mem_def.mpr hcoin)
  obtain ⟨hlisted, hcovers⟩ := List.mem_filter.mp hmem
  obtain ⟨hp, hneeded⟩ := Bool.and_eq_true_iff.mp hcovers
  have hle : needed ≤ coin.amount := of_decide_eq_true hneeded
  have hsub := toNat_of_subU64 hfee hle
  have hsum := toNat_of_checkedAdd hceiling
  have hle' := UInt64.le_iff_toNat_le.mp hle
  have hwithin' := UInt64.le_iff_toNat_le.mp (UInt64.not_lt.mp hwithin)
  refine ⟨hlisted, hp, by omega, UInt64.le_iff_toNat_le.mpr (by omega), ?_⟩
  intro other hother hpother hcover
  have hmem' : other ∈ coins.filter fun coin => p coin && decide (needed ≤ coin.amount) :=
    List.mem_filter.mpr ⟨hother, by rw [hpother, decide_eq_true hcover]; rfl⟩
  have hleast : coin.amount.toNat ≤ other.amount.toNat :=
    List.le_of_mem_argmin (f := fun coin : Coin => coin.amount.toNat) hmem' (Option.mem_def.mpr hcoin)
  exact UInt64.le_iff_toNat_le.mpr hleast

theorem pickFundingCoin_eq_ok {identity : IdentityRef}
    (h : libs.pickFundingCoin builder identity needed ceiling = .ok coin) :
    ∃ coins, builder.inputs.spendableXch identity = .ok coins ∧
      smallestCovering coins (fun _ => true) needed = some coin ∧ ¬ ceiling < coin.amount := by
  unfold pickFundingCoin at h
  simp only [bind_eq_ok, ofResult_eq_ok] at h
  obtain ⟨coins, hcoins, h⟩ := h
  cases hleast : smallestCovering coins (fun _ => true) needed with
  | none =>
    rw [hleast] at h
    obtain ⟨_, -, h⟩ := bind_eq_ok.mp h
    cases h
  | some least =>
    rw [hleast] at h
    simp only [bind_eq_ok, refuseIf_eq_ok, Except.ok.injEq] at h
    obtain ⟨-, hwithin, rfl⟩ := h
    exact ⟨coins, hcoins, hleast, hwithin⟩

theorem pickStrikeCoin_eq_ok {identity : IdentityRef} {p2PuzzleHash : Bytes32}
    (h : pickStrikeCoin builder identity p2PuzzleHash needed ceiling = .ok coin) :
    ∃ coins, builder.inputs.spendableXch identity = .ok coins ∧
      smallestCovering coins (fun coin => coin.puzzleHash = p2PuzzleHash) needed = some coin ∧
      ¬ ceiling < coin.amount := by
  unfold pickStrikeCoin at h
  simp only [bind_eq_ok, ofResult_eq_ok] at h
  obtain ⟨coins, hcoins, h⟩ := h
  cases hleast : smallestCovering coins (fun coin => coin.puzzleHash = p2PuzzleHash) needed with
  | none =>
    rw [hleast] at h
    cases h
  | some least =>
    rw [hleast] at h
    simp only [bind_eq_ok, refuseIf_eq_ok, Except.ok.injEq] at h
    obtain ⟨-, hwithin, rfl⟩ := h
    exact ⟨coins, hcoins, hleast, hwithin⟩

end Funding

/-! ## One transfer -/

section Transfer

variable {libs} {builder : SdkSpendBuilder}

/-- Every spend of the fee leg is a standard one. -/
theorem standard_of_addTransferFee {identity : IdentityRef} {fee : UInt64} {singletonId : Bytes32}
    {feeSpends : List CoinSpend}
    (h : libs.addTransferFee builder [] identity fee singletonId = .ok feeSpends) :
    ∀ spend ∈ feeSpends, ∃ key coin conditions,
      libs.drivers.standardSpend key coin conditions = .ok spend := by
  unfold addTransferFee at h
  by_cases hpos : 0 < fee
  · rw [if_pos hpos] at h
    unfold SdkSpendBuilder.addXchFee at h
    simp only [bind_eq_ok, ofResult_eq_ok, orPanic_eq_ok] at h
    obtain ⟨changePh, -, xch, -, selected, -, total, -, change, -, lead, hlead, ctx, hctx, hlink⟩ := h
    have hemitted := emitted_of_xchSpends (fun _ puzzleHash => puzzleHash) hlead hctx hlink
    intro spend hspend
    obtain ⟨planned, hplanned, hemit⟩ := exists_mem_left hemitted hspend
    cases hemit with
    | standard hkey hstandard => exact ⟨_, _, _, hstandard⟩
    | cat hkey hinner hcat =>
      obtain ⟨supporting, rfl⟩ := List.head?_eq_some_iff.mp hlead
      simp [xchPlan] at hplanned
  · rw [if_neg hpos] at h
    cases h
    intro spend hspend
    cases hspend

/-- What a built transfer is made of. -/
theorem buildTransferOption_eq_ok {request : TransferOptionRequest} {unsigned : UnsignedSpend}
    (h : libs.buildTransferOption builder request = .ok unsigned) :
    ∃ destination created key transferred ctx feeSpends,
      libs.parsePuzzleHash request.toPuzzleHash = .ok destination ∧
      libs.rehydrateOption builder request.handle request.onChain = .ok (created, key) ∧
      libs.options.transfer key created destination = .ok (transferred, ctx) ∧
      libs.addTransferFee builder ctx request.identity request.fee.mojos
        (libs.sdk.coinId created.option.coin) = .ok feeSpends ∧
      unsigned.coinSpends = transferred ++ feeSpends := by
  unfold buildTransferOption at h
  simp only [bind_eq_ok, ofResult_eq_ok, orOptionsError_eq_ok, Except.ok.injEq] at h
  obtain ⟨destination, hdestination, ⟨created, key⟩, hrehydrate, ⟨transferred, ctx⟩, htransfer,
    feeSpends, hfee, required, -, address, -, rfl⟩ := h
  exact ⟨destination, created, key, transferred, ctx, feeSpends, hdestination, hrehydrate, htransfer,
    hfee, rfl⟩

end Transfer

/-! ## Any number of transfers -/

section Custody

variable {libs} {hashes : OptionHashes}
  {launcherId first : Bytes32} {terms : RehydratedTerms} {underlyingCoin : Coin}
  {live live' : LiveOption} {transfer : OptionTransfer}

/-- A confirmed transfer is of the live option, by its owner, to where it was asked to go. -/
theorem confirmed_cases (hkeep : libs.options.Keep libs.drivers libs.sdk hashes)
    (htracked : Tracked libs hashes launcherId terms underlyingCoin live)
    (hunforged : libs.Unforged hashes terms underlyingCoin live transfer)
    (h : libs.confirmTransfer live transfer = some live') :
    ∃ destination key,
      libs.parsePuzzleHash transfer.request.toPuzzleHash = .ok destination ∧
      transfer.builder.inputs.syntheticKey live.option.info.p2PuzzleHash = some key ∧
      live'.option.info = live.option.info.ownedBy destination ∧
      libs.childOf live'.parent = some live'.option ∧
      live'.confirmed = live.confirmed ++ [transfer] := by
  unfold confirmTransfer at h
  simp only [Option.bind_eq_bind, Option.bind_eq_some_iff, Option.some.injEq] at h
  obtain ⟨unsigned, hunsigned, parent, hparent, option, hoption, rfl⟩ := h
  obtain ⟨destination, created, key, transferred, ctx, feeSpends, hdestination, hrehydrate,
    htransfer, hfee, hspends⟩ := buildTransferOption_eq_ok (toOption_eq_some.mp hunsigned)
  obtain ⟨rfl, hchildren⟩ := hkeep.transfer htransfer
  have hcoin : parent.coin = live.option.coin := by simpa using List.find?_some hparent
  have hmem := List.mem_of_find?_eq_some hparent
  have hchild := childOf_eq_some.mp hoption
  rw [hspends] at hmem
  rcases List.mem_append.mp hmem with hmem | hmem
  · obtain ⟨hspent, hinfo⟩ := hchildren parent hmem
    obtain ⟨rfl, hkey, -⟩ := sound_of_tracked hkeep htracked hrehydrate
      (hspent.symm.trans hcoin) (hunforged created key hrehydrate)
    exact ⟨destination, key, hdestination, hkey, hinfo option hchild, hoption, rfl⟩
  · obtain ⟨_, _, _, hstandard⟩ := standard_of_addTransferFee hfee parent hmem
    exact absurd hchild (hkeep.standard hstandard)

/-- The option is tracked, its owner is where it last went, and each transfer was its owner's. -/
structure Owned (libs : OptionLibs) (hashes : OptionHashes) (launcherId first : Bytes32)
    (terms : RehydratedTerms) (underlyingCoin : Coin) (live : LiveOption) : Prop where
  tracked : Tracked libs hashes launcherId terms underlyingCoin live
  owner : live.option.info.p2PuzzleHash = libs.ownerAfter first live.confirmed
  byOwner : ∀ before transfer, before ++ [transfer] <+: live.confirmed →
    (transfer.builder.inputs.syntheticKey (libs.ownerAfter first before)).isSome

theorem owned_step (hkeep : libs.options.Keep libs.drivers libs.sdk hashes)
    (howned : Owned libs hashes launcherId first terms underlyingCoin live)
    (hunforged : libs.Unforged hashes terms underlyingCoin live transfer)
    (h : libs.confirmTransfer live transfer = some live') :
    Owned libs hashes launcherId first terms underlyingCoin live' := by
  obtain ⟨destination, key, hdestination, hkey, hinfo, hchild, hconfirmed⟩ :=
    confirmed_cases hkeep howned.tracked hunforged h
  refine ⟨⟨hchild, ?_, ?_⟩, ?_, ?_⟩
  · rw [hinfo]
    exact howned.tracked.launcher
  · rw [hinfo]
    exact ⟨howned.tracked.bound.coinId, howned.tracked.bound.delegated, howned.tracked.bound.path⟩
  · rw [hinfo, hconfirmed]
    unfold ownerAfter
    rw [List.foldl_concat, hdestination]
    rfl
  · rw [hconfirmed]
    refine forall_prefix_concat.mpr ⟨howned.byOwner, ?_⟩
    rw [← howned.owner, hkey]
    rfl

/-- What an exercise of the live option shows. -/
theorem exercise_of_tracked (hkeep : libs.options.Keep libs.drivers libs.sdk hashes)
    (htracked : Tracked libs hashes launcherId terms underlyingCoin live) {builder : SdkSpendBuilder}
    {request : ExerciseOptionRequest} {unsigned : UnsignedSpend} {created : CreatedOption}
    {key : PublicKey}
    (hrehydrate : libs.rehydrateOption builder request.handle request.onChain = .ok (created, key))
    (hcoin : created.option.coin = live.option.coin)
    (hapart : hashes.Apart libs.sdk created ⟨live.option, underlyingCoin, terms⟩)
    (h : libs.buildExerciseOption builder request = .ok unsigned) :
    ∃ address, libs.encodePuzzleHash terms.creatorPuzzleHash = .ok address ∧
      unsigned.summary.outputs = [⟨address, ⟨strikeAmountMojos terms.strikeType⟩, none⟩] ∧
      ∃ coins coin, builder.inputs.spendableXch request.identity = .ok coins ∧
        FundedBy coins (fun coin => coin.puzzleHash = live.option.info.p2PuzzleHash)
          (strikeAmountMojos terms.strikeType) unsigned.summary.fee.mojos request.fee.mojos coin ∧
        Exercises libs.sdk unsigned.coinSpends ⟨live.option, underlyingCoin, terms⟩ coin
          (strikeAmountMojos terms.strikeType) := by
  obtain ⟨rfl, -, hnames⟩ := sound_of_tracked hkeep htracked hrehydrate hcoin hapart
  unfold buildExerciseOption at h
  simp only [bind_eq_ok, ofResult_eq_ok, orPanic_eq_ok, orOptionsError_eq_ok, Except.ok.injEq,
    hrehydrate, hnames.creator, hnames.strike] at h
  obtain ⟨_, -, _, rfl, ceiling, hceiling, funding, hfunding, fee, hfee, coinSpends, hexercise,
    required, -, _, rfl, address, haddress, rfl⟩ := h
  obtain ⟨coins, hcoins, hleast, hwithin⟩ := pickStrikeCoin_eq_ok hfunding
  refine ⟨address, haddress, rfl, coins, funding, hcoins, ?_, hkeep.exercise hexercise⟩
  refine fundedBy_of_smallestCovering hleast ?_ hwithin hfee
  cases hadd : checkedAdd (strikeAmountMojos terms.strikeType) request.fee.mojos with
  | none =>
    rw [hadd] at hceiling
    cases hceiling
  | some sum =>
    rw [hadd] at hceiling
    exact congrArg some (Except.ok.inj hceiling)

theorem inCustody_of_owned (hkeep : libs.options.Keep libs.drivers libs.sdk hashes)
    (hhex : ∀ bytes, libs.hexDecode (hexEncode bytes) = .ok bytes) {handle : OptionHandle}
    (hnames : libs.Names handle launcherId terms)
    (howned : Owned libs hashes launcherId first terms underlyingCoin live) :
    libs.InCustody hashes first handle terms underlyingCoin live where
  owner := howned.owner
  names := by
    rw [howned.tracked.launcher]
    exact hnames
  byOwner := howned.byOwner
  complete := fun _ _ hkey => complete_of_tracked hkeep howned.tracked hhex hnames hkey
  sound := fun _ _ _ _ _ h hcoin hapart => sound_of_tracked hkeep howned.tracked h hcoin hapart
  exercise := fun _ _ _ _ _ hrehydrate hcoin hapart h =>
    exercise_of_tracked hkeep howned.tracked hrehydrate hcoin hapart h

/-- What a mint returns. -/
theorem buildMintOption_eq_ok {minter : SdkSpendBuilder} {request : MintOptionRequest}
    {minted : MintedOption} (h : libs.buildMintOption minter request = .ok minted) :
    ∃ creatorPh ownerPh key funding created,
      libs.options.create key funding ⟨creatorPh, ownerPh, request.underlyingAmount.mojos,
        request.strike, request.expirySeconds⟩ = .ok (minted.unsigned.coinSpends, some created) ∧
      minted.handle =
        { launcherId := hexEncode created.option.info.launcherId.bytes
          creatorPuzzleHash := ⟨hexEncode creatorPh.bytes⟩
          ownerPuzzleHash := ⟨hexEncode ownerPh.bytes⟩
          underlyingAmount := request.underlyingAmount
          strike := request.strike
          expirySeconds := request.expirySeconds
          underlyingCoinId := hexEncode (libs.sdk.coinId created.underlyingCoin).bytes
          fundingCoinId := hexEncode (libs.sdk.coinId funding).bytes } ∧
      ∃ coins needed, minter.inputs.spendableXch request.identity = .ok coins ∧
        needed.toNat = request.underlyingAmount.mojos.toNat + 1 ∧
        FundedBy coins (fun _ => true) needed minted.unsigned.summary.fee.mojos request.fee.mojos
          funding := by
  unfold buildMintOption at h
  simp only [bind_eq_ok, ofResult_eq_ok, orPanic_eq_ok, orOptionsError_eq_ok, orElseFailed_eq_ok,
    Except.ok.injEq] at h
  obtain ⟨_, -, creatorPh, -, ownerPh, -, needed, hneeded, ceiling, hceiling, funding, hfunding, fee,
    hfee, key, -, ⟨coinSpends, _⟩, hcreate, created, rfl, required, -, address, -, rfl⟩ := h
  obtain ⟨coins, hcoins, hleast, hwithin⟩ := pickFundingCoin_eq_ok hfunding
  refine ⟨creatorPh, ownerPh, key, funding, created, hcreate, rfl, coins, needed, hcoins, ?_, ?_⟩
  · cases hadd : checkedAdd request.underlyingAmount.mojos 1 with
    | none =>
      rw [hadd] at hneeded
      cases hneeded
    | some sum =>
      rw [hadd] at hneeded
      obtain rfl := Except.ok.inj hneeded
      exact toNat_of_checkedAdd hadd
  · refine fundedBy_of_smallestCovering hleast ?_ hwithin hfee
    cases hadd : checkedAdd needed request.fee.mojos with
    | none =>
      rw [hadd] at hceiling
      cases hceiling
    | some sum =>
      rw [hadd] at hceiling
      exact congrArg some (Except.ok.inj hceiling)

end Custody

end OptionLibs

open OptionLibs

/-- **An option stays in custody.**  A mint costs the least coin that covers it and no more than
allowed; from then on, through any confirmed transfers the wallets build, the option keeps its identity
and terms, is operated by its current owner alone, and goes where that owner sends it. -/
theorem option_custody (libs : OptionLibs) (hashes : OptionHashes)
    (hkeep : libs.options.Keep libs.drivers libs.sdk hashes)
    (hhex : ∀ bytes, libs.hexDecode (hexEncode bytes) = .ok bytes) (minter : SdkSpendBuilder)
    (request : MintOptionRequest) (minted : MintedOption)
    (hmint : libs.buildMintOption minter request = .ok minted) :
    ∃ owner terms underlyingCoin,
      libs.parsePuzzleHash minted.handle.ownerPuzzleHash = .ok owner ∧
      hexEncode (libs.sdk.coinId underlyingCoin).bytes = minted.handle.underlyingCoinId ∧
      (∃ coins needed funding, minter.inputs.spendableXch request.identity = .ok coins ∧
        needed.toNat = request.underlyingAmount.mojos.toNat + 1 ∧
        FundedBy coins (fun _ => true) needed minted.unsigned.summary.fee.mojos request.fee.mojos
          funding ∧ hexEncode (libs.sdk.coinId funding).bytes = minted.handle.fundingCoinId) ∧
      ∀ parent ∈ minted.unsigned.coinSpends, ∀ option, libs.childOf parent = some option →
        ∀ live, Run libs.confirmTransfer (libs.Unforged hashes terms underlyingCoin)
          ⟨parent, option, []⟩ live →
          libs.InCustody hashes owner minted.handle terms underlyingCoin live := by
  obtain ⟨creatorPh, ownerPh, key, funding, created, hcreate, hhandle, coins, needed, hcoins, hneeded,
    hfunded⟩ := buildMintOption_eq_ok hmint
  obtain ⟨hbinds, howner, hchildren⟩ := hkeep.create hcreate
  rw [hhandle]
  refine ⟨ownerPh, ⟨creatorPh, request.expirySeconds, request.strike⟩, created.underlyingCoin,
    parseBytes32_hexEncode hhex ownerPh _, rfl,
    ⟨coins, needed, funding, hcoins, hneeded, hfunded, rfl⟩, ?_⟩
  intro parent hparent option hoption live hrun
  obtain rfl := hchildren parent hparent option (childOf_eq_some.mp hoption)
  have hstart : Owned libs hashes created.option.info.launcherId ownerPh
      ⟨creatorPh, request.expirySeconds, request.strike⟩ created.underlyingCoin
      ⟨parent, created.option, []⟩ := by
    refine ⟨⟨hoption, rfl, hbinds⟩, howner, ?_⟩
    intro before transfer hprefix
    simp at hprefix
  have howned := hrun.invariant (fun h hunforged hstep => owned_step hkeep h hunforged hstep) hstart
  refine inCustody_of_owned hkeep hhex ⟨?_, ?_, rfl, rfl⟩ howned
  · exact parseBytes32_hexEncode hhex _ _
  · exact parseBytes32_hexEncode hhex _ _

namespace Sim

/-- An option on 90 mojos against 25, minted from the coin of 100. -/
def mintRequest : MintOptionRequest := ⟨identity, none, none, ⟨90⟩, .xch ⟨25⟩, 3600, ⟨20⟩⟩

def buyer : Bytes32 := Bytes32.rep 0x42

/-- The minted option and the spend that creates it, when its owner can send it to the buyer. -/
def sampleMint : Option (MintedOption × CoinSpend × OptionContract) := do
  let minted ← (optionLibs.buildMintOption oneCoin mintRequest).toOption
  let parent ← minted.unsigned.coinSpends.find? fun spend => (optionLibs.childOf spend).isSome
  let option ← optionLibs.childOf parent
  let (spends, _) ← (transferOption walletKey ⟨option, xchCoin 1 90, ⟨home, 3600, .xch ⟨25⟩⟩⟩
    buyer).toOption
  let _ ← (optionLibs.signaturesOf oneCoin spends).toOption
  let child ← spends.find? fun spend => spend.coin = option.coin
  if (optionLibs.childOf child).isSome ∧ option.info.p2PuzzleHash = home then
    some (minted, parent, option)
  else none

def saleOf (handle : OptionHandle) (onChain : OptionOnChainState) : OptionTransfer :=
  ⟨oneCoin, identity, handle, onChain, ⟨hexEncode buyer.bytes⟩, ⟨0⟩⟩

section Sale

variable {minted : MintedOption} {parent : CoinSpend} {option : OptionContract}
  {handle : OptionHandle} {onChain : OptionOnChainState} {underlyingCoin : Coin}
  {terms : RehydratedTerms}

theorem sampleMint_cases (h : sampleMint = some (minted, parent, option)) :
    optionLibs.buildMintOption oneCoin mintRequest = .ok minted ∧
      parent ∈ minted.unsigned.coinSpends ∧ optionLibs.childOf parent = some option ∧
      option.info.p2PuzzleHash = home ∧
      ∃ spends ctx required child next,
        (∀ underlyingCoin terms, transferOption walletKey ⟨option, underlyingCoin, terms⟩ buyer =
          .ok (spends, ctx)) ∧
        optionLibs.signaturesOf oneCoin spends = .ok required ∧
        spends.find? (fun spend => spend.coin = option.coin) = some child ∧
        optionLibs.childOf child = some next := by
  unfold sampleMint at h
  simp only [Option.bind_eq_bind, Option.bind_eq_some_iff, Option.ite_none_right_eq_some,
    Option.some.injEq, Prod.mk.injEq, toOption_eq_some] at h
  obtain ⟨_, hminted, _, hparent, _, hoption, ⟨spends, ctx⟩, htransfer, required, hrequired, child,
    hchild, ⟨hnext, hhome⟩, rfl, rfl, rfl⟩ := h
  obtain ⟨next, hnext⟩ := Option.isSome_iff_exists.mp hnext
  exact ⟨hminted, List.mem_of_find?_eq_some hparent, hoption, hhome, spends, ctx, required, child,
    next, fun _ _ => htransfer, hrequired, hchild, hnext⟩

/-- The sale of the option its wallet operates is confirmed. -/
theorem sale_confirmed (h : sampleMint = some (minted, parent, option))
    (hrehydrate : optionLibs.rehydrateOption oneCoin handle onChain =
      .ok (⟨option, underlyingCoin, terms⟩, walletKey)) :
    ∃ live, optionLibs.confirmTransfer ⟨parent, option, []⟩ (saleOf handle onChain) = some live ∧
      live.confirmed = [saleOf handle onChain] := by
  obtain ⟨-, -, -, -, spends, ctx, required, child, next, htransfer, hrequired, hchild, hnext⟩ :=
    sampleMint_cases h
  have htransfer : optionLibs.options.transfer walletKey ⟨option, underlyingCoin, terms⟩ buyer =
      .ok (spends, ctx) := htransfer underlyingCoin terms
  have hbuyer : optionLibs.parsePuzzleHash ⟨hexEncode buyer.bytes⟩ = .ok buyer :=
    parseBytes32_hexEncode hexDecode_hexEncode _ _
  have hbuilt : ∃ unsigned, optionLibs.buildTransferOption oneCoin (saleOf handle onChain).request =
      .ok unsigned ∧ unsigned.coinSpends = spends := by
    unfold buildTransferOption
    simp only [bind_eq_ok, Faults.ofResult_eq_ok, orOptionsError_eq_ok, Except.ok.injEq]
    refine ⟨_, ⟨buyer, hbuyer, _, hrehydrate, _, htransfer, [], rfl, required, ?_, _, rfl, rfl⟩,
      List.append_nil _⟩
    rw [List.append_nil]
    exact hrequired
  obtain ⟨unsigned, hunsigned, rfl⟩ := hbuilt
  refine ⟨⟨child, next, [saleOf handle onChain]⟩, ?_, rfl⟩
  unfold confirmTransfer
  simp only [Option.bind_eq_bind, Option.bind_eq_some_iff]
  exact ⟨unsigned, toOption_eq_some.mpr hunsigned, child, hchild, next, hnext, rfl⟩

end Sale

theorem sampleMint_isSome : sampleMint.isSome = true := by decide +kernel

/-- The exercise of the minted option out of a coin of 30. -/
def sampleExercise : Option (List CoinSpend) := do
  let (_, _, option) ← sampleMint
  let terms : RehydratedTerms := ⟨home, 3600, .xch ⟨25⟩⟩
  let underlying : Coin :=
    ⟨coinId (xchCoin 1 100), optionHashes.path option.info.launcherId terms, 90⟩
  let spends ← (exerciseOption walletKey ⟨option, underlying, terms⟩ (xchCoin 2 30)).toOption
  let _ ← (optionLibs.signaturesOf oneCoin spends).toOption
  some spends

-- five spends: the option, the underlying and its claim, the strike coin and its claim
example : sampleExercise.map List.length = some 5 := by decide +kernel

end Sim

open Sim in
/-- An option is minted and sold. -/
theorem option_custody_sale : ∃ minted owner terms underlyingCoin start live,
    optionLibs.buildMintOption oneCoin mintRequest = .ok minted ∧
      start.parent ∈ minted.unsigned.coinSpends ∧
      Run optionLibs.confirmTransfer (optionLibs.Unforged optionHashes terms underlyingCoin)
        start live ∧
      live.confirmed.length = 1 ∧
      optionLibs.InCustody optionHashes owner minted.handle terms underlyingCoin live := by
  obtain ⟨⟨minted, parent, option⟩, hsample⟩ := Option.isSome_iff_exists.mp sampleMint_isSome
  obtain ⟨hminted, hparent, hoption, hhome, -⟩ := sampleMint_cases hsample
  obtain ⟨owner, terms, underlyingCoin, -, -, -, hcustody⟩ := option_custody optionLibs optionHashes
    optionDrivers_keep hexDecode_hexEncode oneCoin mintRequest minted hminted
  have hcustody := hcustody parent hparent option hoption
  have hkey : oneCoin.inputs.syntheticKey option.info.p2PuzzleHash = some walletKey := if_pos hhome
  have hown := (hcustody _ (.refl _)).complete oneCoin walletKey hkey
  obtain ⟨live, hlive, hconfirmed⟩ := sale_confirmed hsample hown
  have hrun : Run optionLibs.confirmTransfer
      (optionLibs.Unforged optionHashes terms underlyingCoin) ⟨parent, option, []⟩ live := by
    refine .snoc (.refl _) ?_ hlive
    intro created key hrehydrate
    cases hown.symm.trans hrehydrate
    exact ⟨fun _ => rfl, fun _ => rfl, fun _ _ _ _ => rfl⟩
  refine ⟨minted, owner, terms, underlyingCoin, _, live, hminted, hparent, hrun, ?_,
    hcustody live hrun⟩
  rw [hconfirmed]
  rfl

end DigWallet
