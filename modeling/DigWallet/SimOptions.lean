import DigWallet.Engine.BuildOptions
import DigWallet.SimBuild
import DigWallet.Verify.Signed

/-!
# DigWallet.SimOptions — the option drivers of the executable SDK

A toy option is a singleton over the option layer whose solution, like that of its launcher, repeats
what its child commits to.  Its lineage proof is the one of `lineageProof`.
-/

namespace DigWallet.Sim

/-! ## Hex -/

/-- The value of a lower-case hex digit. -/
def hexValue (c : Char) : ℕ :=
  if c.toNat < 'a'.toNat then c.toNat - '0'.toNat else c.toNat - 'a'.toNat + 10

def hexPairs : List Char → Except String Bytes
  | [] => .ok []
  | [_] => .error "Odd number of digits"
  | high :: low :: chars => do
    let bytes ← hexPairs chars
    .ok (UInt8.ofNat (16 * hexValue high + hexValue low) :: bytes)

def hexDecode (text : String) : Except String Bytes := hexPairs text.toList

theorem hexValue_hexDigit {n : ℕ} (hn : n < 16) : hexValue (hexDigit n) = n := by
  have hall : ∀ i : Fin 16, hexValue (hexDigit i) = i := by decide
  exact hall ⟨n, hn⟩

theorem hexPairs_hexChars (bytes : Bytes) : hexPairs (hexChars bytes) = .ok bytes := by
  induction bytes with
  | nil => rfl
  | cons b bytes ih =>
    have hb := b.toNat_lt
    have hsplit : 16 * (b.toNat / 16) + b.toNat % 16 = b.toNat := by omega
    rw [hexChars, hexPairs, ih, hexValue_hexDigit (by omega), hexValue_hexDigit (by omega), hsplit,
      UInt8.ofNat_toNat]
    rfl

theorem hexDecode_hexEncode (bytes : Bytes) : hexDecode (hexEncode bytes) = .ok bytes := by
  rw [hexDecode, hexEncode, String.toList_ofList, hexPairs_hexChars]

/-! ## What an option commits to -/

def strikeNode : OptionStrike → Node
  | .xch amount => amountAtom amount.mojos

def termsNode (launcherId : Bytes32) (terms : RehydratedTerms) : Node :=
  list [.atom launcherId.bytes, .atom terms.creatorPuzzleHash.bytes, amountAtom terms.expirySeconds,
    strikeNode terms.strikeType]

def infoNode (info : OptionInfo) : Node :=
  list [.atom info.launcherId.bytes, .atom info.underlyingCoinId.bytes,
    .atom info.underlyingDelegatedPuzzleHash.bytes, .atom info.p2PuzzleHash.bytes]

def optionInfo? : Node → Option OptionInfo
  | .pair launcherId (.pair coinId (.pair delegated (.pair p2 (.atom [])))) => do
    some ⟨← hash? launcherId, ← hash? coinId, ← hash? delegated, ← hash? p2⟩
  | _ => none

theorem optionInfo?_infoNode (info : OptionInfo) : optionInfo? (infoNode info) = some info := by
  simp only [infoNode, list, nil, optionInfo?, hash?_atom]
  rfl

def optionHashes : OptionHashes where
  puzzleHash info := hashOf 5 (digest (infoNode info))
  delegated launcherId terms amount :=
    hashOf 6 (digest (.pair (amountAtom amount) (termsNode launcherId terms)))
  path launcherId terms := hashOf 8 (digest (termsNode launcherId terms))

/-! ## The drivers -/

def childOption (parent : Coin) (info : OptionInfo) : OptionContract :=
  ⟨⟨coinId parent, optionHashes.puzzleHash info, 1⟩, info⟩

/-- The launcher's key values, or what follows the inner solution in a singleton's. -/
def childInfo (puzzle solution : Node) : Option OptionInfo :=
  match puzzle, solution with
  | .atom [7], .pair _ (.pair _ (.pair info _)) => optionInfo? info
  | .pair (.atom [5]) _, .pair _ (.pair _ (.pair _ info)) => optionInfo? info
  | _, _ => none

def parseOption (coin : Coin) (puzzleReveal solution : Bytes) :
    Except OptionsError (Option OptionContract) :=
  match nodeFromBytes puzzleReveal, nodeFromBytes solution with
  | .ok puzzle, .ok solution => .ok ((childInfo puzzle solution).map (childOption coin))
  | _, _ => .error (.other "bad encoding")

/-- A driver's error, displayed. -/
def orOther {α : Type} : Except String α → Except OptionsError α
  | .ok a => .ok a
  | .error e => .error (.other e)

/-- `conditions` signed by the key and the layers of the option around them. -/
def spendOption (key : PublicKey) (option : OptionContract) (info : OptionInfo)
    (conditions : List Condition) : Except String CoinSpend := do
  let inner ← standardInner key conditions
  insert option.coin
    ⟨optionPuzzle option.info.launcherId inner.puzzle,
      .pair lineageProof (.pair (amountAtom option.coin.amount)
        (.pair (list [inner.solution]) (infoNode info)))⟩

def createOption (key : PublicKey) (funding : Coin) (terms : OptionTerms) :
    Except OptionsError (List CoinSpend × Option CreatedOption) := do
  let launcher : Coin := ⟨coinId funding, treeHash launcherPuzzle, 1⟩
  let rehydrated : RehydratedTerms := ⟨terms.creatorPuzzleHash, terms.expirySeconds, terms.strikeType⟩
  let underlying : Coin :=
    ⟨coinId funding, optionHashes.path (coinId launcher) rehydrated, terms.underlyingAmount⟩
  let info : OptionInfo := ⟨coinId launcher, coinId underlying,
    optionHashes.delegated (coinId launcher) rehydrated terms.underlyingAmount, terms.ownerPuzzleHash⟩
  let fundingSpend ← orOther (standardSpend key funding
    [.createCoin ⟨launcher.puzzleHash, 1, none⟩,
      .createCoin ⟨underlying.puzzleHash, underlying.amount, none⟩])
  let launcherSpend ← orOther (insert launcher
    ⟨launcherPuzzle, list [.atom (optionHashes.puzzleHash info).bytes, amountAtom 1, infoNode info]⟩)
  .ok ([fundingSpend, launcherSpend], some ⟨childOption launcher info, underlying, rehydrated⟩)

def rehydrateCreated (option : OptionContract) (terms : RehydratedTerms) (underlyingCoin : Coin) :
    Except OptionsError CreatedOption :=
  if coinId underlyingCoin = option.info.underlyingCoinId ∧
      optionHashes.delegated option.info.launcherId terms underlyingCoin.amount =
        option.info.underlyingDelegatedPuzzleHash ∧
      optionHashes.path option.info.launcherId terms = underlyingCoin.puzzleHash then
    .ok ⟨option, underlyingCoin, terms⟩
  else .error (.invalidInput "commitment mismatch")

def transferOption (key : PublicKey) (created : CreatedOption) (owner : Bytes32) :
    Except OptionsError (List CoinSpend × List CoinSpend) := do
  let info := created.option.info.ownedBy owner
  let spend ← orOther (spendOption key created.option info
    [.createCoin ⟨optionHashes.puzzleHash info, created.option.coin.amount, none⟩])
  .ok ([spend], [])

/-- The spend of `coin` that pays `amount` to `puzzleHash`, when it runs to that. -/
def payOut (coin : Coin) (spend : Spend) (puzzleHash : Bytes32) (amount : UInt64) :
    Except String CoinSpend :=
  match sim.conditionsOf spend.puzzle spend.solution with
  | .ok conditions =>
    if (conditions.filterMap Condition.asCreateCoin).map (fun create =>
        (create.puzzleHash, create.amount)) = [(puzzleHash, amount)] then
      insert coin spend
    else .error "bad payout"
  | .error e => .error e

/-- The claim of the settlement coin that `coin` offers. -/
def claim (coin : Coin) (puzzleHash : Bytes32) (amount : UInt64) : Except String CoinSpend :=
  payOut ⟨coinId coin, sim.settlementPaymentHash, amount⟩
    ⟨settlementPuzzle, list [list [.atom puzzleHash.bytes, amountAtom amount]]⟩ puzzleHash amount

/-- The option is spent, the underlying settled to its owner, and the strike to the creator. -/
def exerciseOption (key : PublicKey) (created : CreatedOption) (funding : Coin) :
    Except OptionsError (List CoinSpend) := do
  let settlement := sim.settlementPaymentHash
  let amount := created.underlyingCoin.amount
  let strike := OptionLibs.strikeAmountMojos created.terms.strikeType
  let option ← orOther (spendOption key created.option created.option.info [])
  let released ← orOther (payOut created.underlyingCoin
    ⟨quote [list [num 51, .atom settlement.bytes, amountAtom amount]], nil⟩ settlement amount)
  let claimed ← orOther (claim created.underlyingCoin created.option.info.p2PuzzleHash amount)
  let inner ← orOther (standardInner key [.createCoin ⟨settlement, strike, none⟩])
  let funded ← orOther (payOut funding inner settlement strike)
  let paid ← orOther (claim funding created.terms.creatorPuzzleHash strike)
  .ok [option, released, claimed, funded, paid]

def optionDrivers : OptionDrivers where
  display
    | .invalidInput message => message
    | .other display => display
  create := createOption
  parseChild := parseOption
  rehydrate := rehydrateCreated
  transfer := transferOption
  exercise := exerciseOption

def optionLibs : OptionLibs := ⟨sim, spendDrivers, optionDrivers, hexDecode, true⟩

/-! ## The documented behaviour -/

theorem orOther_eq_ok {α : Type} {r : Except String α} {a : α} : orOther r = .ok a ↔ r = .ok a := by
  cases r <;> simp [orOther]

/-- The child of an inserted spend is read off its trees. -/
theorem parseOption_insert {coin : Coin} {spend : Spend} {coinSpend : CoinSpend}
    (h : insert coin spend = .ok coinSpend) :
    parseOption coinSpend.coin coinSpend.puzzleReveal coinSpend.solution =
      .ok ((childInfo spend.puzzle spend.solution).map (childOption coin)) := by
  obtain ⟨hcoin, hpuzzle, hsolution⟩ := insert_eq_ok h
  rw [parseOption, hcoin, hpuzzle, hsolution]

theorem parseOption_standardSpend {key : PublicKey} {coin : Coin} {conditions : List Condition}
    {spend : CoinSpend} (h : standardSpend key coin conditions = .ok spend) :
    parseOption spend.coin spend.puzzleReveal spend.solution = .ok none := by
  obtain ⟨inner, hinner, hinsert⟩ := bind_eq_ok.mp h
  obtain ⟨nodes, -, rfl⟩ := conditions_of_standardInner hinner
  rw [parseOption_insert hinsert]
  rfl

theorem paysOut_of_payOut {coin : Coin} {spend : Spend} {puzzleHash : Bytes32} {amount : UInt64}
    {coinSpend : CoinSpend} {spends : List CoinSpend}
    (h : payOut coin spend puzzleHash amount = .ok coinSpend) (hmem : coinSpend ∈ spends) : PaysOut sim spends coin puzzleHash amount := by
  unfold payOut at h
  split at h
  · rename_i conditions hrun
    split_ifs at h with hcreates
    obtain ⟨hcoin, hpuzzle, hsolution⟩ := insert_eq_ok h
    obtain ⟨create, hsole, hpair⟩ := List.map_eq_singleton_iff.mp hcreates
    cases hpair
    exact ⟨coinSpend, hmem, hcoin, _, _, conditions, create, hpuzzle, hsolution, hrun, hsole, rfl, rfl⟩
  · cases h

theorem exercises_of_exerciseOption {key : PublicKey} {created : CreatedOption} {funding : Coin}
    {spends : List CoinSpend} (h : exerciseOption key created funding = .ok spends) :
    Exercises sim spends created funding
      (OptionLibs.strikeAmountMojos created.terms.strikeType) := by
  unfold exerciseOption at h
  simp only [bind_eq_ok, orOther_eq_ok, Except.ok.injEq] at h
  obtain ⟨option, hoption, released, hreleased, claimed, hclaimed, inner, -, funded, hfunded, paid,
    hpaid, rfl⟩ := h
  obtain ⟨_, -, hinsert⟩ := bind_eq_ok.mp hoption
  refine ⟨⟨option, by simp, (insert_eq_ok hinsert).1⟩, ⟨?_, ?_⟩, ⟨?_, ?_⟩⟩
  · exact paysOut_of_payOut hreleased (by simp)
  · exact paysOut_of_payOut hclaimed (by simp)
  · exact paysOut_of_payOut hfunded (by simp)
  · exact paysOut_of_payOut hpaid (by simp)

theorem rehydrateCreated_eq_ok {option : OptionContract} {terms : RehydratedTerms} {coin : Coin}
    {created : CreatedOption} : rehydrateCreated option terms coin = .ok created ↔
      optionHashes.Commits sim option.info terms coin ∧ created = ⟨option, coin, terms⟩ := by
  unfold rehydrateCreated
  constructor
  · intro h
    split_ifs at h with hcommits
    cases h
    exact ⟨⟨hcommits.1, hcommits.2.1, hcommits.2.2⟩, rfl⟩
  · rintro ⟨hcommits, rfl⟩
    rw [if_pos ⟨hcommits.coinId, hcommits.delegated, hcommits.path⟩]

theorem optionDrivers_keep : optionDrivers.Keep spendDrivers sim optionHashes where
  rehydrate := rehydrateCreated_eq_ok
  parseChild := by
    intro coin reveal solution option h
    have h : parseOption coin reveal solution = .ok (some option) := h
    unfold parseOption at h
    split at h
    · obtain ⟨info, -, rfl⟩ := Option.map_eq_some_iff.mp (Except.ok.inj h)
      rfl
    · cases h
  create := by
    intro key funding terms spends created h
    obtain ⟨fundingSpend, hfunding, h⟩ := bind_eq_ok.mp h
    obtain ⟨launcherSpend, hlauncher, h⟩ := bind_eq_ok.mp h
    cases h
    refine ⟨⟨rfl, rfl, rfl⟩, rfl, ?_⟩
    intro spend hspend option hchild
    rcases List.mem_cons.mp hspend with rfl | hspend
    · -- the funding spend creates no option
      have hnone := parseOption_standardSpend (orOther_eq_ok.mp hfunding)
      cases hnone.symm.trans hchild
    · -- the launcher's child is the option of its info
      obtain rfl := List.mem_singleton.mp hspend
      have hparsed := parseOption_insert (orOther_eq_ok.mp hlauncher)
      rw [launcherPuzzle, num, list, list, list, childInfo, optionInfo?_infoNode] at hparsed
      cases hparsed.symm.trans hchild
      rfl
  transfer := by
    intro key created owner spends ctx h
    obtain ⟨spend, hspend, h⟩ := bind_eq_ok.mp h
    cases h
    refine ⟨rfl, ?_⟩
    intro spend hmem
    obtain rfl := List.mem_singleton.mp hmem
    obtain ⟨inner, -, hinsert⟩ := bind_eq_ok.mp (orOther_eq_ok.mp hspend)
    refine ⟨(insert_eq_ok hinsert).1, ?_⟩
    intro child hchild
    have hparsed := parseOption_insert hinsert
    rw [optionPuzzle, singletonPuzzle, num, childInfo, optionInfo?_infoNode] at hparsed
    cases hparsed.symm.trans hchild
    rfl
  exercise := exercises_of_exerciseOption
  standard := by
    intro key coin conditions spend option h hchild
    cases (parseOption_standardSpend h).symm.trans hchild

end DigWallet.Sim
