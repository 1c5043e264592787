import DigWallet.Engine.PlanLegs
import DigWallet.SimLaws

/-!
# DigWallet.SimBuild — the spend drivers of the executable SDK

The drivers encode the conditions the builders use and refuse what they could not read back, so they
have the documented behaviour by construction.
-/

namespace DigWallet.Sim

/-! ## Emission -/

/-- Big-endian bytes of an amount. -/
def amountAtom (amount : UInt64) : Node :=
  .atom ((List.range 8).reverse.map fun i => UInt8.ofNat (amount.toNat / 256 ^ i))

def encode : Condition → Option Node
  | .createCoin create => some (.pair (num 51) (.pair (.atom create.puzzleHash.bytes)
      (.pair (amountAtom create.amount) (create.memos.getD nil))))
  | .reserveFee amount => some (list [num 52, amountAtom amount])
  | .assertConcurrentSpend id => some (assertConcurrentSpend id)
  | _ => none

/-- A standard inner spend of `conditions`, when they decode to themselves. -/
def standardInner (key : PublicKey) (conditions : List Condition) : Except String Spend :=
  match conditions.mapM encode with
  | none => .error "no encoding"
  | some nodes =>
    if (conditionsFromClvm (list nodes)).toOption = some conditions then
      .ok ⟨standardPuzzle key, signing nodes⟩
    else .error "bad conditions"

/-- `SpendContext::spend`: the coin spend of `coin`, when its bytes decode to the spend. -/
def insert (coin : Coin) (spend : Spend) : Except String CoinSpend :=
  let puzzleReveal := serialize spend.puzzle
  let solution := serialize spend.solution
  if (nodeFromBytes puzzleReveal).toOption = some spend.puzzle ∧
      (nodeFromBytes solution).toOption = some spend.solution then
    .ok ⟨coin, puzzleReveal, solution⟩
  else .error "bad spend"

def standardSpend (key : PublicKey) (coin : Coin) (conditions : List Condition) :
    Except String CoinSpend := do
  insert coin (← standardInner key conditions)

def catPuzzleHash (info : CatInfo) : Bytes32 := catHash info.assetId info.p2PuzzleHash

def ringSpend (catSpend : CatSpend) : Except String CoinSpend :=
  let puzzle := catPuzzle catSpend.cat.info.assetId catSpend.spend.puzzle
  if treeHash puzzle =
      catPuzzleHash { catSpend.cat.info with p2PuzzleHash := treeHash catSpend.spend.puzzle } then
    insert catSpend.cat.coin ⟨puzzle, .pair catSpend.spend.solution nil⟩
  else .error "bad CAT"

def spendDrivers : SpendDrivers where
  hint hash := .ok (list [list [.atom hash.bytes]])
  standardSpend := standardSpend
  standardInner := standardInner
  catSpendAll ring := ring.mapM ringSpend
  catPuzzleHash := catPuzzleHash
  chiaL1MainnetAggSigMe := Bytes32.rep 0x99
  chiaL1Testnet11AggSigMe := Bytes32.rep 0x37

/-! ## A provider -/

def xchCoin (parent : UInt8) (amount : UInt64) : Coin := ⟨Bytes32.rep parent, home, amount⟩

def asset : Bytes32 := Bytes32.rep 0xca

def catInfo : CatInfo := ⟨asset, none, home⟩

/-- A CAT of the wallet. -/
def catCoin (parent : UInt8) (amount : UInt64) : Cat :=
  ⟨⟨Bytes32.rep parent, catPuzzleHash catInfo, amount⟩, none, catInfo⟩

/-- The public inputs of the wallet with the given coins, all at its one address. -/
def inputs (xch : List Coin) (cats : List Cat) : SpendInputs where
  spendableXch _ := .ok xch
  spendableCat _ assetId := if normalizeAsset assetId = hexEncode asset.bytes then .ok cats else .ok []
  syntheticKey puzzleHash := if puzzleHash = home then some walletKey else none
  changePuzzleHash _ := .ok home

def builder (xch : List Coin) (cats : List Cat) : SdkSpendBuilder := ⟨inputs xch cats, .mainnet, 500⟩

/-- A wallet with one coin of 100 mojos. -/
def oneCoin : SdkSpendBuilder := builder [xchCoin 1 100] []

/-- The address of a puzzle hash. -/
def addressOf (hash : Bytes32) : Address := ⟨encodeAddress hash "xch"⟩

def identity : IdentityRef := .new ⟨1⟩

/-! ## The documented behaviour -/

/-- The inner puzzle hash of a child is its own: the CAT layer of `sim` wraps nothing. -/
def wrap (_ : CatInfo) (puzzleHash : Bytes32) : Bytes32 := puzzleHash

theorem conditions_of_standardInner {key : PublicKey} {conditions : List Condition} {inner : Spend}
    (h : standardInner key conditions = .ok inner) : ∃ nodes,
      conditionsFromClvm (list nodes) = .ok conditions ∧
      inner = ⟨standardPuzzle key, signing nodes⟩ := by
  unfold standardInner at h
  split at h
  · cases h
  · rename_i nodes _
    split_ifs at h with hdecode
    cases h
    exact ⟨nodes, toOption_eq_some.mp hdecode, rfl⟩

theorem emitsInner {key : PublicKey} {conditions : List Condition} {inner : Spend}
    (h : standardInner key conditions = .ok inner) : EmitsInner sim key conditions inner := by
  obtain ⟨nodes, hnodes, rfl⟩ := conditions_of_standardInner h
  refine ⟨rfl, rfl, rfl, rfl, ⟨none, quote nodes, .pair nil nil⟩, rfl,
    ⟨num 1, list nodes, rfl, rfl, hnodes⟩, ?_⟩
  have hbody : sim.conditionsFromClvm (list nodes) = .ok conditions := hnodes
  refine Sdk.conditionsOf_eq_ok.mpr ⟨_, rfl, ?_⟩
  refine conditionsFromClvm_pair_eq_ok.mpr ⟨conditions, hbody, ?_⟩
  rfl

theorem insert_eq_ok {coin : Coin} {spend : Spend} {coinSpend : CoinSpend}
    (h : insert coin spend = .ok coinSpend) : coinSpend.coin = coin ∧
      nodeFromBytes coinSpend.puzzleReveal = .ok spend.puzzle ∧
      nodeFromBytes coinSpend.solution = .ok spend.solution := by
  unfold insert at h
  dsimp only at h
  split_ifs at h with hdecode
  cases h
  exact ⟨rfl, toOption_eq_some.mp hdecode.1, toOption_eq_some.mp hdecode.2⟩

theorem append_nil {node : Node} {conditions : List Condition}
    (h : conditionsFromClvm node = .ok conditions) : append node nil = node := by
  induction node generalizing conditions with
  | atom bytes =>
    cases bytes with
    | nil => rfl
    | cons b bytes => cases h
  | pair first rest _ ih =>
    obtain ⟨conditions, hrest, -⟩ := conditionsFromClvm_pair_eq_ok.mp h
    rw [append, ih hrest]

theorem ringSpend_eq_ok {catSpend : CatSpend} {spend : CoinSpend} (h : ringSpend catSpend = .ok spend) :
    spend.coin = catSpend.cat.coin ∧
      nodeFromBytes spend.puzzleReveal =
        .ok (catPuzzle catSpend.cat.info.assetId catSpend.spend.puzzle) ∧
      nodeFromBytes spend.solution = .ok (.pair catSpend.spend.solution nil) ∧
      treeHash (catPuzzle catSpend.cat.info.assetId catSpend.spend.puzzle) =
        catPuzzleHash { catSpend.cat.info with p2PuzzleHash := treeHash catSpend.spend.puzzle } := by
  unfold ringSpend at h
  dsimp only at h
  split_ifs at h with hhash
  obtain ⟨hcoin, hpuzzle, hsolution⟩ := insert_eq_ok h
  exact ⟨hcoin, hpuzzle, hsolution, hhash⟩

theorem hash?_atom (hash : Bytes32) : hash? (.atom hash.bytes) = some hash := by
  rw [hash?, dif_pos hash.size]

theorem catParse_catPuzzle (coin : Coin) (asset : Bytes32) (inner solution : Node) :
    catParse coin (parsePuzzle (catPuzzle asset inner)) (.pair solution nil) =
      .ok (some ⟨asset, parsePuzzle inner, solution⟩) := by
  simp only [catParse, parsePuzzle, catPuzzle, num, hash?_atom]

/-- Without `RUN_CAT_TAIL` the CAT layer outputs what its inner puzzle does. -/
theorem run_catPuzzle (asset : Bytes32) {inner solution output : Node} {conditions : List Condition}
    (hrun : run solution inner = .ok output) (hdecode : conditionsFromClvm output = .ok conditions)
    (hnot : .runCatTail ∉ conditions) :
    run (.pair solution nil) (catPuzzle asset inner) = .ok output := by
  show (run solution inner >>= fun output => .ok (append output (tailOutput output))) = _
  refine bind_eq_ok.mpr ⟨output, hrun, ?_⟩
  rw [tailOutput_eq_nil hdecode hnot, append_nil hdecode]

theorem emitsCat {catSpend : CatSpend} {spend : CoinSpend} (h : ringSpend catSpend = .ok spend) :
    EmitsCat sim spendDrivers wrap catSpend spend := by
  obtain ⟨hcoin, hpuzzle, hsolution, hhash⟩ := ringSpend_eq_ok h
  refine ⟨hcoin, _, _, hpuzzle, hsolution, hhash, catParse_catPuzzle spend.coin _ _ _, ?_⟩
  intro conditions outer hconditions hnot hrunOuter
  obtain ⟨output, hrun, hdecode⟩ := Sdk.conditionsOf_eq_ok.mp hconditions
  have hsame : sim.conditionsOf (catPuzzle catSpend.cat.info.assetId catSpend.spend.puzzle)
      (.pair catSpend.spend.solution nil) = .ok conditions :=
    Sdk.conditionsOf_eq_ok.mpr ⟨output, run_catPuzzle catSpend.cat.info.assetId hrun hdecode hnot, hdecode⟩
  obtain rfl := Except.ok.inj (hsame.symm.trans hrunOuter)
  exact (List.map_id _).symm

theorem spendDrivers_emit : spendDrivers.Emit sim wrap where
  inner h := emitsInner h
  standard := by
    intro key coin conditions spend h
    obtain ⟨inner, hinner, hinsert⟩ := bind_eq_ok.mp h
    obtain ⟨hcoin, hpuzzle, hsolution⟩ := insert_eq_ok hinsert
    refine ⟨inner, hinner, ?_⟩
    obtain ⟨nodes, -, rfl⟩ := conditions_of_standardInner hinner
    have hne : ∀ tag : UInt8, tag ≠ 2 → (some (Bytes32.rep 2) : Option Bytes32) ≠ some (.rep tag) :=
      fun tag htag heq => htag (rep_injective (Option.some.inj heq)).symm
    refine ⟨hcoin, hpuzzle, hsolution, rfl, rfl, ?_, rfl, hne 5 (by decide)⟩
    exact congrArg Except.ok (decide_eq_false (hne 9 (by decide)))
  cat h := (mapM_eq_ok.mp h).imp fun _ _ => emitsCat
  extracts := by
    intro coinSpends genesis required h spend hspend
    obtain ⟨parts, hparts, -⟩ := bind_eq_ok.mp h
    obtain ⟨part, -, hpart⟩ := exists_mem_right (mapM_eq_ok.mp hparts) hspend
    unfold requirements at hpart
    simp only [bind_eq_ok] at hpart
    obtain ⟨puzzle, hpuzzle, solution, hsolution, output, hrun, conditions, hconditions, -⟩ := hpart
    exact ⟨puzzle, solution, conditions, hpuzzle, hsolution,
      Sdk.conditionsOf_eq_ok.mpr ⟨output, hrun, hconditions⟩⟩

theorem standardUnstructural : sim.StandardUnstructural := by
  intro key
  have hpair : ∀ hash : Bytes32, hash.bytes.head? = some 1 →
      sim.standardCurryTreeHash key ≠ hash := by
    rintro hash htag rfl
    cases htag
  rw [isProtocolSinkHash, Bool.or_eq_false_iff]
  exact ⟨decide_eq_false (hpair _ rfl), decide_eq_false (hpair _ rfl)⟩

theorem decodeAddress_empty (hash : Bytes32) : sim.decodeAddress "" ≠ .ok hash := by
  intro h
  cases h

theorem wallet_owns_home : wallet.ownsPuzzleHash sim home = true := by
  simp [LocalSigner.ownsPuzzleHash, wallet, home, walletKey, sim]

/-- The provider keeps its promises when its CATs are the wallet's. -/
theorem inputs_honest {xch : List Coin} {cats : List Cat}
    (h : ∀ cat ∈ cats, cat.info = catInfo ∧ cat.coin.puzzleHash = catPuzzleHash catInfo) :
    (inputs xch cats).Honest sim spendDrivers where
  key := by
    intro puzzleHash key hkey
    simp only [inputs] at hkey
    split_ifs at hkey with hhome
    cases hkey
    exact hhome.symm
  catHash := by
    intro identity assetId found hfound cat hcat
    simp only [inputs] at hfound
    split_ifs at hfound
    · cases hfound
      obtain ⟨hinfo, hhash⟩ := h cat hcat
      rw [hhash, hinfo]
      rfl
    · cases hfound
      cases hcat
  catAsset := by
    intro identity assetId found hfound cat hcat
    simp only [inputs] at hfound
    split_ifs at hfound with hasset
    · cases hfound
      rw [hasset, (h cat hcat).1]
      rfl
    · cases hfound
      cases hcat

end DigWallet.Sim
