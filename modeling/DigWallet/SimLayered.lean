import DigWallet.SimBuild

/-!
# DigWallet.SimLayered — a CAT layer that wraps

`layered` is `sim` with a CAT layer that creates its coins at the hashes of CATs, where `sim` leaves the
hashes as the inner puzzle has them.  Its drivers spend CATs of the standard puzzle.
-/

namespace DigWallet.Sim

/-! ## The layer -/

/-- The puzzle hash of a CAT of the asset, for that of its inner puzzle. -/
def wrapHash (asset : Bytes32) (puzzleHash : Node) : Node :=
  match hash? puzzleHash with
  | some hash => .atom (catHash asset hash).bytes
  | none => puzzleHash

def wrapCondition (asset : Bytes32) : Node → Node
  | .pair (.atom [51]) (.pair puzzleHash args) =>
    .pair (num 51) (.pair (wrapHash asset puzzleHash) args)
  | condition => condition

def wrapConditions (asset : Bytes32) : Node → Node
  | .pair condition rest => .pair (wrapCondition asset condition) (wrapConditions asset rest)
  | .atom bytes => .atom bytes

/-- The CAT layer, with the coins it creates at the hashes of CATs. -/
def runLayered (puzzle solution : Node) : Except String Node := do
  let output ← run solution puzzle
  match puzzle with
  | .pair (.atom [3]) (.pair asset _) =>
    .ok (((hash? asset).map fun asset => wrapConditions asset output).getD output)
  | _ => .ok output

/-- `sim`, with the CAT layer that wraps. -/
def layered : Sdk := { sim with runPuzzle := runLayered }

def wrapLayered (info : CatInfo) : Bytes32 → Bytes32 := catHash info.assetId

/-! ## Its drivers -/

/-- The ring of coins of standard puzzles. -/
def layeredRing (catSpend : CatSpend) : Except String CoinSpend :=
  match catSpend.spend.puzzle with
  | .pair (.atom [2]) (.atom _) => ringSpend catSpend
  | _ => .error "not a standard puzzle"

/-- The drivers of `layered`, where a memo list is what follows the amount. -/
def layeredDrivers : SpendDrivers :=
  { spendDrivers with
    hint := fun hash => .ok (list [.atom hash.bytes])
    catSpendAll := fun ring => ring.mapM layeredRing }

/-! ## What it creates -/

theorem asCreateCoin_decodeCreate (asset : Bytes32) (puzzleHash amount rest : Node) :
    (decodeCreate (wrapHash asset puzzleHash) amount rest).asCreateCoin =
      (decodeCreate puzzleHash amount rest).asCreateCoin.map
        (CreateCoin.rehashed (catHash asset)) := by
  unfold wrapHash
  cases hhash : hash? puzzleHash with
  | none =>
    -- neither a magic condition nor a bad one creates a coin
    unfold decodeCreate
    simp only [hhash]
    split_ifs <;> rfl
  | some hash =>
    have hne : ∀ hash : Bytes32, Node.atom hash.bytes ≠ nil := by
      intro hash heq
      have hsize := hash.size
      rw [Node.atom.inj heq] at hsize
      cases hsize
    have hpuzzle : puzzleHash ≠ nil := by
      rintro rfl
      cases hhash
    unfold decodeCreate
    simp only [hne, hpuzzle, false_and, if_false, hash?_atom, hhash]
    cases amount? amount with
    | none => rfl
    | some amount => rfl

theorem asCreateCoin_decodeAggSig {aggSig : AggSig → Condition}
    (h : ∀ sig, (aggSig sig).asCreateCoin = none) (args : Node) :
    (decodeAggSig aggSig args).asCreateCoin = none := by
  unfold decodeAggSig
  split
  · exact h _
  · rfl

theorem asCreateCoin_decodeHash {condition : Bytes32 → Condition}
    (h : ∀ hash, (condition hash).asCreateCoin = none) (args : Node) :
    (decodeHash condition args).asCreateCoin = none := by
  unfold decodeHash
  split
  · rename_i id
    cases hash? id with
    | none => rfl
    | some hash => exact h hash
  · rfl

theorem asCreateCoin_decodeMessage {condition : Bytes → Condition}
    (h : ∀ message, (condition message).asCreateCoin = none) (args : Node) :
    (decodeMessage condition args).asCreateCoin = none := by
  unfold decodeMessage
  split
  · exact h _
  · rfl

theorem asCreateCoin_wrapCondition (asset : Bytes32) (condition : Node) :
    (decodeCondition (wrapCondition asset condition)).asCreateCoin =
      (decodeCondition condition).asCreateCoin.map (CreateCoin.rehashed (catHash asset)) := by
  unfold wrapCondition
  split
  · rename_i puzzleHash args
    cases args with
    | atom bytes => rfl
    | pair amount rest => exact asCreateCoin_decodeCreate asset puzzleHash amount rest
  · rename_i hne
    have hnone : (decodeCondition condition).asCreateCoin = none := by
      unfold decodeCondition
      split
      case h_1 => exact absurd rfl (hne _ _)
      case h_2 args => exact asCreateCoin_decodeAggSig (fun _ => rfl) args
      case h_3 args => exact asCreateCoin_decodeAggSig (fun _ => rfl) args
      case h_4 args => exact asCreateCoin_decodeAggSig (fun _ => rfl) args
      case h_5 fee => cases amount? fee <;> rfl
      case h_6 args => exact asCreateCoin_decodeMessage (fun _ => rfl) args
      case h_7 args => exact asCreateCoin_decodeHash (fun _ => rfl) args
      case h_8 args => exact asCreateCoin_decodeMessage (fun _ => rfl) args
      case h_9 args => exact asCreateCoin_decodeHash (fun _ => rfl) args
      case h_10 args => exact asCreateCoin_decodeHash (fun _ => rfl) args
      case h_11 args => exact asCreateCoin_decodeHash (fun _ => rfl) args
      all_goals rfl
    rw [hnone]
    rfl

theorem asCreateCoins_wrapConditions (asset : Bytes32) {output : Node} {conditions : List Condition}
    (h : conditionsFromClvm output = .ok conditions) : ∃ outer,
      conditionsFromClvm (wrapConditions asset output) = .ok outer ∧
      outer.filterMap Condition.asCreateCoin =
        (conditions.filterMap Condition.asCreateCoin).map (CreateCoin.rehashed (catHash asset)) := by
  induction output generalizing conditions with
  | atom bytes =>
    cases bytes with
    | nil =>
      cases h
      exact ⟨[], rfl, rfl⟩
    | cons b bytes => cases h
  | pair condition rest _ ih =>
    obtain ⟨tail, htail, rfl⟩ := conditionsFromClvm_pair_eq_ok.mp h
    obtain ⟨outer, houter, hcreates⟩ := ih htail
    refine ⟨decodeCondition (wrapCondition asset condition) :: outer, ?_, ?_⟩
    · exact conditionsFromClvm_pair_eq_ok.mpr ⟨outer, houter, rfl⟩
    · have hhead := asCreateCoin_wrapCondition asset condition
      cases hcreate : (decodeCondition condition).asCreateCoin with
      | none =>
        rw [hcreate] at hhead
        rw [List.filterMap_cons_none hhead, List.filterMap_cons_none hcreate, hcreates]
      | some create =>
        rw [hcreate] at hhead
        rw [List.filterMap_cons_some hhead, List.filterMap_cons_some hcreate, hcreates,
          List.map_cons]

/-- Wrapping refuses nothing. -/
theorem exists_runLayered {puzzle solution output : Node} {conditions : List Condition}
    (hrun : run solution puzzle = .ok output) (h : conditionsFromClvm output = .ok conditions) :
    ∃ conditions, layered.conditionsOf puzzle solution = .ok conditions := by
  have hlayered : ∃ wrapped conditions, runLayered puzzle solution = .ok wrapped ∧
      conditionsFromClvm wrapped = .ok conditions := by
    unfold runLayered
    rw [hrun]
    dsimp only [bind, Except.bind]
    split
    · rename_i asset _
      cases hasset : hash? asset with
      | none => exact ⟨output, conditions, rfl, h⟩
      | some asset =>
        obtain ⟨outer, houter, -⟩ := asCreateCoins_wrapConditions asset h
        exact ⟨_, outer, rfl, houter⟩
    · exact ⟨output, conditions, rfl, h⟩
  obtain ⟨wrapped, conditions, hwrapped, hdecode⟩ := hlayered
  exact ⟨conditions, Sdk.conditionsOf_eq_ok.mpr ⟨wrapped, hwrapped, hdecode⟩⟩

/-! ## The documented behaviour -/

/-- A standard puzzle is no CAT. -/
theorem layered_conditionsOf_standard (key : PublicKey) (solution : Node) :
    layered.conditionsOf (standardPuzzle key) solution =
      sim.conditionsOf (standardPuzzle key) solution := by
  have hrun : runLayered (standardPuzzle key) solution = run solution (standardPuzzle key) := by
    unfold runLayered
    cases run solution (standardPuzzle key) <;> rfl
  show (runLayered (standardPuzzle key) solution >>= conditionsFromClvm) = _
  rw [hrun]
  rfl

theorem layered_emitsInner {key : PublicKey} {conditions : List Condition} {inner : Spend}
    (h : standardInner key conditions = .ok inner) : EmitsInner layered key conditions inner := by
  obtain ⟨hhash, hptr, hstandard, hsettlement, layer, hlayer, hquotes, hrun⟩ := emitsInner h
  obtain ⟨nodes, -, rfl⟩ := conditions_of_standardInner h
  refine ⟨hhash, hptr, hstandard, hsettlement, layer, hlayer, hquotes, ?_⟩
  rwa [layered_conditionsOf_standard]

theorem layered_emitsCat {catSpend : CatSpend} {spend : CoinSpend}
    (h : layeredRing catSpend = .ok spend) :
    EmitsCat layered layeredDrivers wrapLayered catSpend spend := by
  unfold layeredRing at h
  split at h
  · rename_i key hpuzzle
    obtain ⟨hcoin, hreveal, hsolution, hhash⟩ := ringSpend_eq_ok h
    refine ⟨hcoin, _, _, hreveal, hsolution, hhash, catParse_catPuzzle spend.coin _ _ _, ?_⟩
    intro conditions outer hconditions hnot hrunOuter
    rw [hpuzzle] at hconditions hrunOuter
    rw [show Node.pair (.atom [2]) (.atom key) = standardPuzzle ⟨key⟩ from rfl,
      layered_conditionsOf_standard] at hconditions
    obtain ⟨output, hrun, hdecode⟩ := Sdk.conditionsOf_eq_ok.mp hconditions
    obtain ⟨outer', houter, hcreates⟩ :=
      asCreateCoins_wrapConditions catSpend.cat.info.assetId hdecode
    have hlayered : layered.conditionsOf
        (catPuzzle catSpend.cat.info.assetId (standardPuzzle ⟨key⟩))
        (.pair catSpend.spend.solution nil) = .ok outer' := by
      refine Sdk.conditionsOf_eq_ok.mpr ⟨_, ?_, houter⟩
      show runLayered _ _ = _
      unfold runLayered
      rw [run_catPuzzle catSpend.cat.info.assetId hrun hdecode hnot]
      simp only [bind, Except.bind, catPuzzle, num, hash?_atom, Option.map_some, Option.getD_some]
    obtain rfl := Except.ok.inj (hlayered.symm.trans hrunOuter)
    exact hcreates
  · cases h

theorem layeredDrivers_emit : layeredDrivers.Emit layered wrapLayered where
  inner h := layered_emitsInner h
  standard h := by
    obtain ⟨inner, hinner, hemits⟩ := spendDrivers_emit.standard h
    exact ⟨inner, hinner, ⟨hemits.coin_eq, hemits.reveal, hemits.solution, hemits.cat, hemits.option,
      hemits.underlying, hemits.nft, hemits.singleton⟩⟩
  cat h := (mapM_eq_ok.mp h).imp fun _ _ => layered_emitsCat
  extracts := by
    intro coinSpends genesis required h spend hspend
    obtain ⟨puzzle, solution, conditions, hpuzzle, hsolution, hrun⟩ :=
      spendDrivers_emit.extracts h spend hspend
    obtain ⟨output, houtput, hdecode⟩ := Sdk.conditionsOf_eq_ok.mp hrun
    obtain ⟨conditions, hlayered⟩ := exists_runLayered houtput hdecode
    exact ⟨puzzle, solution, conditions, hpuzzle, hsolution, hlayered⟩

end DigWallet.Sim
