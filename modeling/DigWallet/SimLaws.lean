import DigWallet.Sim

/-!
# DigWallet.SimLaws — `sim` has the documented behaviour
-/

namespace DigWallet.Sim

/-! ## Addresses -/

/-- The character that holds a byte. -/
def charOf (b : UInt8) : Char := Char.ofNat (b.toNat + 64)

theorem toNat_charOf (b : UInt8) : (charOf b).toNat = b.toNat + 64 := by
  have hb := b.toNat_lt
  have hvalid : (b.toNat + 64).isValidChar := .inl (by omega)
  rw [charOf, Char.ofNat, dif_pos hvalid]
  rfl

theorem map_charOf (bytes : Bytes) :
    (bytes.map charOf).map (fun c => UInt8.ofNat (c.toNat - 64)) = bytes := by
  rw [List.map_map]
  refine (List.map_congr_left fun b _ => ?_).trans (List.map_id bytes)
  show UInt8.ofNat ((charOf b).toNat - 64) = b
  rw [toNat_charOf, Nat.add_sub_cancel]
  exact UInt8.ofNat_toNat

theorem hashOfChars?_map_charOf (hash : Bytes32) :
    hashOfChars? (hash.bytes.map charOf) = some hash := by
  unfold hashOfChars?
  simp only [map_charOf]
  rw [dif_pos hash.size]

theorem addressesRoundTrip : sim.AddressesRoundTrip where
  encodes hash hrp _ := ⟨encodeAddress hash hrp, rfl⟩
  nonempty := by
    rintro hash text ⟨⟩ h
    have hlist := congrArg String.toList h
    simp [encodeAddress] at hlist
  decodes := by
    rintro hash text ⟨⟩
    have hdrop : (encodeAddress hash "xch").toList.drop 3 = hash.bytes.map charOf := by
      rw [encodeAddress, String.toList_ofList]
      rfl
    show decodeAddress _ = _
    rw [decodeAddress, hdrop, hashOfChars?_map_charOf]

theorem toList_encodeAddress (hash : Bytes32) (hrp : String) :
    (encodeAddress hash hrp).toList = hrp.toList ++ hash.bytes.map charOf := by
  rw [encodeAddress, String.toList_ofList]
  rfl

theorem addressText : sim.AddressText where
  injective := by
    rintro hash hash' hrp text ⟨⟩ h
    have hlist := congrArg String.toList (Except.ok.inj h)
    rw [toList_encodeAddress, toList_encodeAddress, List.append_cancel_left_eq] at hlist
    apply Bytes32.ext
    rw [← map_charOf hash.bytes, ← hlist, map_charOf]
  nonempty := by
    rintro hash hrp text ⟨⟩ h
    have hlist := congrArg (fun text => text.toList.length) h
    have hsize := hash.size
    simp only [toList_encodeAddress, List.length_append, List.length_map, hsize,
      String.toList_empty, List.length_nil] at hlist
    omega
  unspaced := by
    rintro hash hrp text hhrp ⟨⟩
    rw [toList_encodeAddress, List.mem_append]
    rintro (h | h)
    · exact hhrp h
    · obtain ⟨b, -, hb⟩ := List.mem_map.mp h
      have hcode := congrArg Char.toNat hb
      rw [toNat_charOf] at hcode
      have hblank : (' ' : Char).toNat = 32 := rfl
      omega

/-! ## Layers -/

theorem smallNumber_eq_one {op : Node} (h : smallNumber op = some 1) : op = num 1 := by
  match op, h with
  | .atom [b], h =>
    have h : (if b < 0x80 then some b.toNat else none) = some 1 := h
    split_ifs at h
    have hb : b.toNat = 1 := Option.some.inj h
    have hone : b = 1 := UInt8.toNat_inj.mp hb
    rw [hone]
    rfl
  | .atom (_ :: _ :: _), h => cases h
  | .pair _ _, h => cases h

theorem standardParsePuzzle_eq {puzzle : Puzzle} {publicKey : PublicKey}
    (h : standardParsePuzzle puzzle = .ok (some publicKey)) :
    puzzle.ptr = standardPuzzle publicKey := by
  unfold standardParsePuzzle at h
  split at h
  · rename_i bytes hptr
    cases h
    exact hptr
  · cases h

/-- The delegated puzzle's run, with the key's `AGG_SIG_ME` when no original key is revealed. -/
theorem run_standardPuzzle {publicKey : PublicKey} {solution output : Node} {layer : StandardSolution}
    (hsolution : standardParseSolution solution = .ok layer)
    (hrun : run solution (standardPuzzle publicKey) = .ok output) :
    ∃ rest, run layer.solution layer.delegatedPuzzle = .ok rest ∧
      output = if layer.originalPublicKey = none then
        .pair (list [num 50, .atom publicKey.bytes, .atom (treeHash layer.delegatedPuzzle).bytes])
          rest
      else rest := by
  match solution, hsolution with
  | .pair (.atom []) (.pair delegated inner), rfl =>
    have hrun : (run inner delegated >>= fun rest => .ok (.pair
        (list [num 50, .atom publicKey.bytes, .atom (treeHash delegated).bytes]) rest)) =
        .ok output := hrun
    obtain ⟨rest, hrest, heq⟩ := bind_eq_ok.mp hrun
    cases heq
    exact ⟨rest, hrest, rfl⟩
  | .pair (.atom (_ :: _)) (.pair delegated inner), rfl =>
    exact ⟨output, hrun, by simp⟩

theorem conditionsFromClvm_pair_eq_ok {first rest : Node} {conditions : List Condition} :
    conditionsFromClvm (.pair first rest) = .ok conditions ↔
      ∃ tail, conditionsFromClvm rest = .ok tail ∧ conditions = decodeCondition first :: tail := by
  rw [conditionsFromClvm, bind_eq_ok]
  simp only [Except.ok.injEq, eq_comm (b := conditions)]

theorem standardLayer : sim.StandardLayer where
  parsed _ := rfl
  quote := by
    intro op body solution h
    obtain rfl := smallNumber_eq_one h
    show run solution _ = _
    unfold run
    rfl
  run := by
    intro puzzle publicKey solution layer conditions hpuzzle hsolution hrun
    rw [standardParsePuzzle_eq hpuzzle] at hrun
    obtain ⟨output, hrun, hdecode⟩ := Sdk.conditionsOf_eq_ok.mp hrun
    obtain ⟨rest, hrest, rfl⟩ := run_standardPuzzle hsolution hrun
    by_cases hkey : layer.originalPublicKey = none
    · rw [if_pos hkey] at hdecode ⊢
      obtain ⟨conditions, htail, rfl⟩ := conditionsFromClvm_pair_eq_ok.mp hdecode
      exact ⟨conditions, Sdk.conditionsOf_eq_ok.mpr ⟨rest, hrest, htail⟩, rfl⟩
    · rw [if_neg hkey] at hdecode ⊢
      exact ⟨conditions, Sdk.conditionsOf_eq_ok.mpr ⟨rest, hrest, hdecode⟩, rfl⟩

/-! ## Drivers -/

def assetOf : Node → Option Bytes32
  | .pair (.atom [3]) (.pair asset _) => hash? asset
  | _ => none

def isOption : Node → Bool
  | .pair (.atom [5]) (.pair _ (.pair (.atom [4]) _)) => true
  | _ => false

/-- The curried launcher id and the p2 puzzle. -/
def nftOf : Node → Option (Bytes32 × Puzzle)
  | .pair (.atom [5]) (.pair launcher (.pair (.atom [6]) p2)) =>
    (hash? launcher).map fun launcherId => (launcherId, parsePuzzle p2)
  | _ => none

section Drivers

variable {coin : Coin} {puzzle : Puzzle} {solution : Node}

theorem catParse_assetOf {parsed : Option ParsedCat}
    (h : sim.catParse coin puzzle solution = .ok parsed) :
    parsed.map ParsedCat.assetId = assetOf puzzle.ptr := by
  rw [show sim.catParse = catParse from rfl, catParse] at h
  split at h
  · rename_i asset inner hptr
    rw [hptr]
    split at h
    · rename_i hasset
      cases h
      exact hasset.symm
    · cases h
  · rename_i hptr
    cases h
    unfold assetOf
    split
    · rename_i asset inner heq
      exact absurd heq (hptr asset inner)
    · rfl

theorem optionContractParse_isOption {parsed : Option (Puzzle × Node)}
    (h : sim.optionContractParse coin puzzle solution = .ok parsed) :
    parsed.isSome = isOption puzzle.ptr := by
  rw [show sim.optionContractParse = optionContractParse from rfl, optionContractParse] at h
  split at h
  · rename_i launcher p2 hptr
    rw [hptr]
    split at h
    · cases h
      rfl
    · cases h
  · rename_i hptr
    cases h
    unfold isOption
    split
    · rename_i launcher p2 heq
      exact absurd heq (hptr launcher p2)
    · rfl

theorem nftParse_nftOf {parsed : Option ParsedNft} (h : sim.nftParse coin puzzle solution = .ok parsed) :
    parsed.map (fun nft => (nft.launcherId, nft.p2Puzzle)) = nftOf puzzle.ptr := by
  rw [show sim.nftParse = nftParse from rfl, nftParse] at h
  split at h
  · rename_i launcher p2 hptr
    rw [hptr]
    split at h
    · rename_i hlauncher
      split at h
      · cases h
        show _ = (hash? launcher).map _
        rw [hlauncher]
        rfl
      · cases h
    · cases h
  · rename_i hptr
    cases h
    unfold nftOf
    split
    · rename_i launcher p2 heq
      exact absurd heq (hptr launcher p2)
    · rfl

end Drivers

theorem driversReadPuzzle : sim.DriversReadPuzzle where
  cat := ⟨fun puzzle => assetOf puzzle.ptr, catParse_assetOf⟩
  option := ⟨fun puzzle => isOption puzzle.ptr, optionContractParse_isOption⟩
  nft := by
    refine ⟨fun puzzle => (nftOf puzzle.ptr).map Prod.fst, fun {coin puzzle solution parsed} h => ?_⟩
    show _ = (nftOf puzzle.ptr).map Prod.fst
    rw [← nftParse_nftOf h, Option.map_map]
    rfl

/-! ## CAT runs -/

theorem conditionsFromClvm_append {node rest : Node} {conditions conditions' : List Condition}
    (hnode : conditionsFromClvm node = .ok conditions)
    (h : conditionsFromClvm (append node rest) = .ok conditions') :
    ∃ more, conditionsFromClvm rest = .ok more ∧ conditions' = conditions ++ more := by
  induction node generalizing conditions conditions' with
  | atom bytes =>
    cases bytes with
    | nil =>
      cases hnode
      exact ⟨conditions', h, rfl⟩
    | cons b bytes => cases hnode
  | pair first tail _ ih =>
    obtain ⟨conditions, htail, rfl⟩ := conditionsFromClvm_pair_eq_ok.mp hnode
    obtain ⟨conditions', htail', rfl⟩ := conditionsFromClvm_pair_eq_ok.mp h
    obtain ⟨more, hmore, rfl⟩ := ih htail htail'
    exact ⟨more, hmore, rfl⟩

/-- Without `RUN_CAT_TAIL` no TAIL runs. -/
theorem tailOutput_eq_nil {node : Node} {conditions : List Condition}
    (h : conditionsFromClvm node = .ok conditions) (hnot : .runCatTail ∉ conditions) :
    tailOutput node = nil := by
  induction node generalizing conditions with
  | atom bytes => rfl
  | pair first rest _ ih =>
    obtain ⟨conditions, hrest, rfl⟩ := conditionsFromClvm_pair_eq_ok.mp h
    rw [List.mem_cons, not_or] at hnot
    unfold tailOutput
    split
    · rename_i heq
      cases heq
      exact absurd rfl hnot.1
    · rename_i heq
      cases heq
      exact ih hrest hnot.2
    · rename_i heq
      cases heq

/-- A CAT runs its inner puzzle, then its TAIL. -/
theorem run_of_catParse {coin : Coin} {puzzle : Puzzle} {solution output : Node} {cat : ParsedCat}
    (h : sim.catParse coin puzzle solution = .ok (some cat))
    (hrun : run solution puzzle.ptr = .ok output) :
    ∃ inner, run cat.p2Solution cat.p2Puzzle.ptr = .ok inner ∧
      output = append inner (tailOutput inner) := by
  rw [show sim.catParse = catParse from rfl, catParse] at h
  split at h
  · rename_i asset innerPuzzle hptr
    rw [hptr] at hrun
    split at h
    · rename_i inner _ _
      cases h
      have hrun : (run inner innerPuzzle >>= fun output =>
          .ok (append output (tailOutput output))) = .ok output := hrun
      obtain ⟨innerOutput, hinner, heq⟩ := bind_eq_ok.mp hrun
      cases heq
      exact ⟨innerOutput, hinner, rfl⟩
    · cases h
  · cases h

/-- The two assertions of the top layer decode to assertions. -/
theorem conditionsFromClvm_singletonAsserts {launcher proof amount rest : Node} {asserts : List Node}
    {conditions : List Condition} (h : singletonAsserts launcher proof amount = .ok asserts)
    (hrest : conditionsFromClvm rest = .ok conditions) :
    conditionsFromClvm (append (list asserts) rest) =
      .ok (.assertMyAmount :: .assertMyParentId :: conditions) := by
  unfold singletonAsserts at h
  split at h
  · split_ifs at h
    cases h
    refine conditionsFromClvm_pair_eq_ok.mpr ⟨_, ?_, rfl⟩
    exact conditionsFromClvm_pair_eq_ok.mpr ⟨_, hrest, rfl⟩
  · cases h

/-- An option asserts its amount and its parent, then runs its p2 puzzle. -/
theorem run_of_optionContractParse {coin : Coin} {puzzle : Puzzle} {solution output : Node}
    {option : Puzzle × Node}
    (h : sim.optionContractParse coin puzzle solution = .ok (some option))
    (hrun : run solution puzzle.ptr = .ok output) :
    ∃ launcher proof amount asserts inner, singletonAsserts launcher proof amount = .ok asserts ∧
      run option.2 option.1.ptr = .ok inner ∧ output = append (list asserts) inner := by
  rw [show sim.optionContractParse = optionContractParse from rfl, optionContractParse] at h
  split at h
  · rename_i launcher p2 hptr
    rw [hptr] at hrun
    split at h
    · rename_i proof amount inner _ _
      cases h
      have hrun : (singletonAsserts launcher proof amount >>= fun asserts =>
          run inner p2 >>= fun output => .ok (append (list asserts) output)) = .ok output := hrun
      obtain ⟨asserts, hasserts, hrun⟩ := bind_eq_ok.mp hrun
      obtain ⟨output, hinner, heq⟩ := bind_eq_ok.mp hrun
      cases heq
      exact ⟨launcher, proof, amount, asserts, output, hasserts, hinner, rfl⟩
    · cases h
  · cases h

/-! ## Mints -/

theorem rep_injective {b b' : UInt8} (h : Bytes32.rep b = Bytes32.rep b') : b = b' := by
  have hbytes : List.replicate 32 b = List.replicate 32 b' := congrArg Bytes32.bytes h
  exact (List.cons.inj hbytes).1

section Tags

variable {node : Node}

theorem tag_of_curriedModHash {tag : UInt8}
    (h : (parsePuzzle node).curriedModHash = some (Bytes32.rep tag)) :
    ∃ rest, node = .pair (num tag) rest := by
  unfold parsePuzzle at h
  dsimp only at h
  split at h
  · rename_i tag' rest
    split_ifs at h
    exact ⟨rest, by rw [rep_injective (Option.some.inj h)]; rfl⟩
  · cases h

variable {coin : Coin} {solution : Node}

theorem tag_of_catParse {cat : ParsedCat}
    (h : sim.catParse coin (sim.parsePuzzle node) solution = .ok (some cat)) :
    ∃ rest, node = .pair (num 3) rest := by
  rw [show sim.catParse = catParse from rfl, catParse] at h
  split at h
  · rename_i hptr
    exact ⟨_, hptr⟩
  · cases h

theorem tag_of_optionContractParse {option : Puzzle × Node}
    (h : sim.optionContractParse coin (sim.parsePuzzle node) solution = .ok (some option)) :
    ∃ rest, node = .pair (num 5) rest := by
  rw [show sim.optionContractParse = optionContractParse from rfl, optionContractParse] at h
  split at h
  · rename_i hptr
    exact ⟨_, hptr⟩
  · cases h

theorem tag_of_nftParse {nft : ParsedNft}
    (h : sim.nftParse coin (sim.parsePuzzle node) solution = .ok (some nft)) :
    ∃ rest, node = .pair (num 5) rest := by
  rw [show sim.nftParse = nftParse from rfl, nftParse] at h
  split at h
  · rename_i hptr
    exact ⟨_, hptr⟩
  · cases h

theorem tag_unique {tag tag' : UInt8} (hne : tag ≠ tag') (h : ∃ rest, node = .pair (num tag) rest)
    (h' : ∃ rest, node = .pair (num tag') rest) : False := by
  obtain ⟨rest, rfl⟩ := h
  obtain ⟨rest', heq⟩ := h'
  cases heq
  exact hne rfl

end Tags

theorem layersDisjoint : sim.LayersDisjoint where
  cat_of_underlying h hcat := by
    have hhash := of_decide_eq_true (Except.ok.inj h)
    exact tag_unique (by decide) (tag_of_catParse hcat) (tag_of_curriedModHash hhash)
  option_of_underlying h hoption := by
    have hhash := of_decide_eq_true (Except.ok.inj h)
    exact tag_unique (by decide) (tag_of_optionContractParse hoption) (tag_of_curriedModHash hhash)
  cat_of_option hoption hcat :=
    tag_unique (by decide) (tag_of_catParse hcat) (tag_of_optionContractParse hoption)
  cat_of_singleton hhash hcat :=
    tag_unique (by decide) (tag_of_catParse hcat) (tag_of_curriedModHash hhash)
  singleton_of_nft h := by
    obtain ⟨rest, rfl⟩ := tag_of_nftParse h
    rfl
  launcher_of_singleton hhash := by
    obtain ⟨rest, rfl⟩ := tag_of_curriedModHash hhash
    intro h
    have hhead := congrArg (fun hash => hash.bytes.head?) h
    cases hhead

end DigWallet.Sim
