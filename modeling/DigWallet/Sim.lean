import DigWallet.Signer.Keys

/-!
# DigWallet.Sim — a small executable SDK

`sim` is an instance of `Sdk` with a toy CLVM: the puzzles are tagged trees, the layers run their
inner puzzle and pass its output on, conditions are lists with Chia's opcodes.  The singleton layer
refuses what the real one refuses of its solution: an even amount, and an eve whose launcher is not the
curried one.  The hash is a polynomial hash with a tag byte; it is no cryptographic hash.

The tags: `1` quote, `2` standard layer, `3` CAT, `4` option, `5` singleton, `6` NFT state layer,
`7` launcher, `8` settlement, `9` one-of-many.
-/

namespace DigWallet.Sim

/-! ## Hashes -/

def modulus : ℕ := 2 ^ 248

def digest : Node → ℕ
  | .atom bytes => bytes.foldl (fun acc b => (acc * 257 + b.toNat + 1) % modulus) 1
  | .pair first rest => (digest first * 1000003 + digest rest * 998244353 + 7) % modulus

/-- A tag byte and the 31 low bytes of `n`. -/
def hashOf (tag : UInt8) (n : ℕ) : Bytes32 where
  bytes := tag :: (List.range 31).map fun i => UInt8.ofNat (n / 256 ^ i)
  size := by simp

def treeHash (node : Node) : Bytes32 :=
  match node with
  | .atom _ => hashOf 1 (digest node)
  | .pair _ _ => hashOf 2 (digest node)

/-! ## Trees -/

def num (b : UInt8) : Node := .atom [b]

def nil : Node := .atom []

def list : List Node → Node
  | [] => nil
  | node :: nodes => .pair node (list nodes)

/-- Concatenation of CLVM lists. -/
def append : Node → Node → Node
  | .atom _, tail => tail
  | .pair first rest, tail => .pair first (append rest tail)

def natOf (bytes : Bytes) : ℕ := bytes.foldl (fun acc b => acc * 256 + b.toNat) 0

/-! ## Serialization -/

def parse : ℕ → Bytes → Option (Node × Bytes)
  | 0, _ => none
  | _ + 1, [] => none
  | fuel + 1, b :: bytes =>
    if b = 0xff then do
      let (first, bytes) ← parse fuel bytes
      let (rest, bytes) ← parse fuel bytes
      return (.pair first rest, bytes)
    else if b < 0x80 then some (num b, bytes)
    else some (.atom (bytes.take (b.toNat - 0x80)), bytes.drop (b.toNat - 0x80))

def nodeFromBytes (bytes : Bytes) : Except String Node :=
  match parse bytes.length bytes with
  | some (node, []) => .ok node
  | _ => .error "bad encoding"

def serialize : Node → Bytes
  | .atom [b] => if b < 0x80 then [b] else [0x81, b]
  | .atom bytes => UInt8.ofNat (0x80 + bytes.length) :: bytes
  | .pair first rest => 0xff :: serialize first ++ serialize rest

/-! ## Conditions -/

def hash? : Node → Option Bytes32
  | .atom bytes => if h : bytes.length = 32 then some ⟨bytes, h⟩ else none
  | .pair _ _ => none

def amount? : Node → Option UInt64
  | .atom bytes => if natOf bytes < UInt64.size then some (UInt64.ofNat (natOf bytes)) else none
  | .pair _ _ => none

/-- `CREATE_COIN`, or one of the two magic conditions with its opcode. -/
def decodeCreate (puzzleHash amount rest : Node) : Condition :=
  if puzzleHash = nil ∧ amount = num 0x8f then
    if rest = nil then .meltSingleton else .runCatTail
  else
    match hash? puzzleHash, amount? amount with
    | some puzzleHash, some amount =>
      .createCoin ⟨puzzleHash, amount, if rest = nil then none else some rest⟩
    | _, _ => .other

def decodeAggSig (aggSig : AggSig → Condition) : Node → Condition
  | .pair (.atom publicKey) (.pair (.atom message) (.atom [])) => aggSig ⟨⟨publicKey⟩, message⟩
  | _ => .other

def decodeHash (condition : Bytes32 → Condition) : Node → Condition
  | .pair id (.atom []) => ((hash? id).map condition).getD .other
  | _ => .other

def decodeMessage (condition : Bytes → Condition) : Node → Condition
  | .pair (.atom message) (.atom []) => condition message
  | _ => .other

def decodeCondition : Node → Condition
  | .pair (.atom [51]) (.pair puzzleHash (.pair amount rest)) => decodeCreate puzzleHash amount rest
  | .pair (.atom [50]) args => decodeAggSig .aggSigMe args
  | .pair (.atom [49]) args => decodeAggSig .aggSigUnsafe args
  | .pair (.atom [43]) args => decodeAggSig .aggSigParent args
  | .pair (.atom [52]) (.pair fee (.atom [])) => ((amount? fee).map .reserveFee).getD .other
  | .pair (.atom [60]) args => decodeMessage .createCoinAnnouncement args
  | .pair (.atom [61]) args => decodeHash .assertCoinAnnouncement args
  | .pair (.atom [62]) args => decodeMessage .createPuzzleAnnouncement args
  | .pair (.atom [63]) args => decodeHash .assertPuzzleAnnouncement args
  | .pair (.atom [64]) args => decodeHash .assertConcurrentSpend args
  | .pair (.atom [65]) args => decodeHash .assertConcurrentPuzzle args
  | .pair (.atom [66]) _ => .sendMessage
  | .pair (.atom [67]) _ => .receiveMessage
  | .pair (.atom [71]) _ => .assertMyParentId
  | .pair (.atom [73]) _ => .assertMyAmount
  | _ => .other

def conditionsFromClvm : Node → Except String (List Condition)
  | .atom [] => .ok []
  | .atom (_ :: _) => .error "not a list"
  | .pair condition rest => do .ok (decodeCondition condition :: (← conditionsFromClvm rest))

/-! ## Puzzles -/

def quote (conditions : List Node) : Node := .pair (num 1) (list conditions)

def standardPuzzle (publicKey : PublicKey) : Node := .pair (num 2) (.atom publicKey.bytes)

def catPuzzle (asset : Bytes32) (inner : Node) : Node :=
  .pair (num 3) (.pair (.atom asset.bytes) inner)

def singletonPuzzle (launcherId : Bytes32) (inner : Node) : Node :=
  .pair (num 5) (.pair (.atom launcherId.bytes) inner)

def optionPuzzle (launcherId : Bytes32) (p2 : Node) : Node :=
  singletonPuzzle launcherId (.pair (num 4) p2)

def nftPuzzle (launcherId : Bytes32) (p2 : Node) : Node := singletonPuzzle launcherId (.pair (num 6) p2)

def launcherPuzzle : Node := num 7

def settlementPuzzle : Node := num 8

/-- The conditions of the first `RUN_CAT_TAIL` whose TAIL quotes them. -/
def tailOutput : Node → Node
  | .pair (.pair (.atom [51]) (.pair (.atom []) (.pair (.atom [0x8f])
      (.pair (.pair (.atom [1]) body) _)))) _ => body
  | .pair _ rest => tailOutput rest
  | .atom _ => nil

/-- One `CREATE_COIN` for each notarized payment. -/
def payments : Node → Node
  | .pair payment rest => .pair (.pair (num 51) payment) (payments rest)
  | .atom _ => nil

/-- What the launcher emits on its solution `(eve_puzzle_hash amount key_values)`. -/
def launch (solution : Node) : Except String Node :=
  match solution with
  | .pair puzzleHash (.pair amount (.pair keyValues _)) =>
    .ok (list [list [num 51, puzzleHash, amount],
      list [num 60, .atom (treeHash (list [puzzleHash, amount, keyValues])).bytes]])
  | _ => .error "bad launcher solution"

/-! ## The CAT and singleton layers -/

/-- The eight low bytes of an amount. -/
def amountBytes (amount : UInt64) : Bytes :=
  (List.range 8).map fun i => UInt8.ofNat (amount.toNat / 256 ^ i)

def coinId (coin : Coin) : Bytes32 :=
  hashOf 3 (digest (.pair (.atom coin.parentCoinInfo.bytes) (.pair (.atom coin.puzzleHash.bytes)
    (.atom (amountBytes coin.amount)))))

/-- The digest a hash carries. -/
def digestOf (hash : Bytes32) : ℕ := hash.bytes.tail.foldr (fun b acc => b.toNat + 256 * acc) 0

/-- The hash of `singletonPuzzle launcherId inner`, from the hash of `inner`. -/
def singletonHash (launcherId inner : Bytes32) : Bytes32 :=
  let body := (digest (.atom launcherId.bytes) * 1000003 + digestOf inner * 998244353 + 7) % modulus
  hashOf 2 ((digest (num 5) * 1000003 + body * 998244353 + 7) % modulus)

/-- The hash of `catPuzzle asset inner`, from the hash of `inner`. -/
def catHash (asset inner : Bytes32) : Bytes32 :=
  let body := (digest (.atom asset.bytes) * 1000003 + digestOf inner * 998244353 + 7) % modulus
  hashOf 2 ((digest (num 3) * 1000003 + body * 998244353 + 7) % modulus)

/-- Two items prove descent from the launcher, three from an earlier coin. -/
def proofOf : Node → Option Proof
  | .pair _ (.pair _ (.atom [])) => some .eve
  | .pair _ (.pair _ (.pair _ (.atom []))) => some .lineage
  | _ => none

/-- The parent a lineage proof shows; that of an eve must be the curried launcher. -/
def parentId (launcherId : Bytes32) : Node → Option Bytes32
  | .pair parent (.pair amount (.atom [])) => do
    let id := coinId ⟨← hash? parent, treeHash launcherPuzzle, ← amount? amount⟩
    if id = launcherId then some id else none
  | .pair parent (.pair inner (.pair amount (.atom []))) => do
    some (coinId ⟨← hash? parent, singletonHash launcherId (← hash? inner), ← amount? amount⟩)
  | _ => none

/-- What the top layer asserts of its coin: the amount, which is odd, and the parent. -/
def singletonAsserts (launcher proof amount : Node) : Except String (List Node) :=
  match (hash? launcher).bind fun launcherId => parentId launcherId proof, amount? amount with
  | some parent, some myAmount =>
    if myAmount % 2 = 1 then .ok [list [num 73, amount], list [num 71, .atom parent.bytes]]
    else .error "even singleton amount"
  | _, _ => .error "bad lineage proof"

/-! ## Runs -/

/-- Run `puzzle` on the solution. -/
def run (solution puzzle : Node) : Except String Node :=
  match puzzle with
  | .pair (.atom [1]) body => .ok body
  | .pair (.atom [2]) (.atom publicKey) =>
    match solution with
    | .pair (.atom []) (.pair delegated inner) => do
      .ok (.pair (list [num 50, .atom publicKey, .atom (treeHash delegated).bytes])
        (← run inner delegated))
    | .pair (.atom (_ :: _)) (.pair delegated inner) => run inner delegated
    | _ => .error "bad standard solution"
  | .pair (.atom [3]) (.pair _ innerPuzzle) =>
    match solution with
    | .pair inner _ => do
      let output ← run inner innerPuzzle
      .ok (append output (tailOutput output))
    | _ => .error "bad CAT solution"
  | .pair (.atom [4]) innerPuzzle =>
    match solution with
    | .pair inner _ => run inner innerPuzzle
    | _ => .error "bad option solution"
  | .pair (.atom [5]) (.pair launcher innerPuzzle) =>
    match solution with
    | .pair proof (.pair amount (.pair inner _)) => do
      let asserts ← singletonAsserts launcher proof amount
      .ok (append (list asserts) (← run inner innerPuzzle))
    | _ => .error "bad singleton solution"
  | .pair (.atom [6]) innerPuzzle =>
    match solution with
    | .pair inner _ => run inner innerPuzzle
    | _ => .error "bad state layer solution"
  | .atom [7] => launch solution
  | .atom [8] => .ok (payments solution)
  | _ => .error "unknown puzzle"

/-! ## Drivers -/

/-- The module hash of a curried puzzle repeats its tag. -/
def parsePuzzle (node : Node) : Puzzle where
  ptr := node
  curriedModHash :=
    match node with
    | .pair (.atom [tag]) _ => if tag = 1 then none else some (Bytes32.rep tag)
    | _ => none

def catParse (_ : Coin) (puzzle : Puzzle) (solution : Node) : Except String (Option ParsedCat) :=
  match puzzle.ptr with
  | .pair (.atom [3]) (.pair asset innerPuzzle) =>
    match hash? asset, solution with
    | some assetId, .pair inner _ => .ok (some ⟨assetId, parsePuzzle innerPuzzle, inner⟩)
    | _, _ => .error "bad CAT"
  | _ => .ok none

def optionContractParse (_ : Coin) (puzzle : Puzzle) (solution : Node) :
    Except String (Option (Puzzle × Node)) :=
  match puzzle.ptr with
  | .pair (.atom [5]) (.pair _ (.pair (.atom [4]) p2)) =>
    match solution with
    | .pair _ (.pair _ (.pair (.pair inner _) _)) => .ok (some (parsePuzzle p2, inner))
    | _ => .error "bad option"
  | _ => .ok none

def nftParse (_ : Coin) (puzzle : Puzzle) (solution : Node) : Except String (Option ParsedNft) :=
  match puzzle.ptr with
  | .pair (.atom [5]) (.pair launcher (.pair (.atom [6]) p2)) =>
    match hash? launcher, solution with
    | some launcherId, .pair proof (.pair _ (.pair (.pair inner _) _)) =>
      match proofOf proof with
      | some proof => .ok (some ⟨launcherId, proof, parsePuzzle p2, inner⟩)
      | none => .error "bad lineage proof"
    | _, _ => .error "bad NFT"
  | _ => .ok none

def standardParsePuzzle (puzzle : Puzzle) : Except String (Option PublicKey) :=
  match puzzle.ptr with
  | .pair (.atom [2]) (.atom publicKey) => .ok (some ⟨publicKey⟩)
  | _ => .ok none

def standardParseSolution : Node → Except String StandardSolution
  | .pair (.atom []) (.pair delegated inner) => .ok ⟨none, delegated, inner⟩
  | .pair (.atom (b :: bytes)) (.pair delegated inner) => .ok ⟨some ⟨b :: bytes⟩, delegated, inner⟩
  | _ => .error "bad standard solution"

def smallNumber : Node → Option ℕ
  | .atom [] => some 0
  | .atom [b] => if b < 0x80 then some b.toNat else none
  | _ => none

/-- What the TAIL of a CAT spend emits. -/
def tail (spend : CoinSpend) : Except String (List Condition) := do
  let puzzle ← nodeFromBytes spend.puzzleReveal
  let solution ← nodeFromBytes spend.solution
  match ← catParse spend.coin (parsePuzzle puzzle) solution with
  | some cat => conditionsFromClvm (tailOutput (← run cat.p2Solution cat.p2Puzzle.ptr))
  | none => .ok []

/-! ## Signatures -/

/-- The requirement one condition of a coin makes. -/
def requirement (coin : Coin) (genesis : Bytes32) : Condition → Option SdkRequiredSignature
  | .aggSigMe sig =>
    some (.bls sig.publicKey (sig.message ++ (coinId coin).bytes ++ genesis.bytes) (some genesis))
  | .aggSigUnsafe sig | .aggSigParent sig | .aggSigPuzzle sig | .aggSigAmount sig
  | .aggSigPuzzleAmount sig | .aggSigParentAmount sig | .aggSigParentPuzzle sig =>
    some (.bls sig.publicKey sig.message none)
  | _ => none

def requirements (genesis : Bytes32) (spend : CoinSpend) :
    Except String (List SdkRequiredSignature) := do
  let puzzle ← nodeFromBytes spend.puzzleReveal
  let solution ← nodeFromBytes spend.solution
  let conditions ← conditionsFromClvm (← run solution puzzle)
  .ok (conditions.filterMap (requirement spend.coin genesis))

/-! ## The instance -/

/-- The hash whose bytes the characters hold. -/
def hashOfChars? (text : List Char) : Option Bytes32 :=
  let bytes := text.map fun c => UInt8.ofNat (c.toNat - 64)
  if h : bytes.length = 32 then some ⟨bytes, h⟩ else none

/-- Three letters and the bytes as characters. -/
def encodeAddress (hash : Bytes32) (hrp : String) : String :=
  String.ofList (hrp.toList ++ hash.bytes.map fun b => Char.ofNat (b.toNat + 64))

def decodeAddress (text : String) : Except String Bytes32 :=
  match hashOfChars? (text.toList.drop 3) with
  | some hash => .ok hash
  | none => .error "bad address"

def sim : Sdk where
  coinId := coinId
  nodeFromBytes := nodeFromBytes
  smallNumber := smallNumber
  treeHash := treeHash
  settlementPaymentHash := treeHash settlementPuzzle
  singletonLauncherHash := treeHash launcherPuzzle
  singletonTopLayerHash := Bytes32.rep 5
  parsePuzzle := parsePuzzle
  catParse := catParse
  optionContractParse := optionContractParse
  p2OneOfManyParsePuzzle puzzle := .ok (puzzle.curriedModHash = some (Bytes32.rep 9))
  nftParse := nftParse
  standardParsePuzzle := standardParsePuzzle
  standardParseSolution := standardParseSolution
  settlementParsePuzzle puzzle := .ok (puzzle.ptr = settlementPuzzle)
  runPuzzle puzzle solution := run solution puzzle
  conditionsFromClvm := conditionsFromClvm
  announcementId coinId message :=
    hashOf 4 (digest (.pair (.atom coinId.bytes) (.atom message)))
  encodeAddress hash hrp := .ok (encodeAddress hash hrp)
  decodeAddress := decodeAddress
  fromCoinSpends coinSpends genesis := do
    .ok (← coinSpends.mapM (requirements genesis)).flatten
  fromSeed seed := ⟨seed⟩
  deriveHardened key n := ⟨key.bytes ++ [0, UInt8.ofNat n]⟩
  deriveUnhardened key n := ⟨key.bytes ++ [1, UInt8.ofNat n]⟩
  masterToWalletUnhardened key n := ⟨key.bytes ++ [2, UInt8.ofNat n]⟩
  deriveSynthetic key := ⟨key.bytes ++ [3]⟩
  publicKey key := ⟨4 :: key.bytes⟩
  standardCurryTreeHash publicKey := treeHash (standardPuzzle publicKey)
  blsSign key message := ⟨key.bytes ++ message⟩
  aggregate signatures := ⟨signatures.flatMap Signature.bytes⟩

/-! ## A wallet and its coins -/

/-- A wallet with one address. -/
def wallet : LocalSigner where
  profileIx := 0
  master := ⟨[1]⟩
  aggSigMeExtraData := Bytes32.rep 0x99
  addressGap := 1
  scheme := .canonicalWallet

def walletKey : PublicKey := wallet.syntheticPublicKey sim 0

/-- The wallet's own puzzle hash. -/
def home : Bytes32 := treeHash (standardPuzzle walletKey)

/-- The coin `puzzle` locks, spent with `solution`. -/
def spendOf (parent : Bytes32) (puzzle : Node) (amount : UInt64) (solution : Node) : CoinSpend where
  coin := ⟨parent, treeHash puzzle, amount⟩
  puzzleReveal := serialize puzzle
  solution := serialize solution

/-- A standard-layer solution whose delegated puzzle quotes `conditions`. -/
def signing (conditions : List Node) : Node := list [nil, quote conditions, nil]

def createCoin (puzzleHash : Bytes32) (amount : UInt8) : Node :=
  list [num 51, .atom puzzleHash.bytes, num amount]

def reserveFee (amount : UInt8) : Node := list [num 52, num amount]

def assertCoinAnnouncement (id : Bytes32) : Node := list [num 61, .atom id.bytes]

def assertConcurrentSpend (id : Bytes32) : Node := list [num 64, .atom id.bytes]

/-- A lineage proof, and the parent it shows under a launcher id. -/
def lineageProof : Node := list [.atom (Bytes32.rep 1).bytes, .atom (Bytes32.rep 2).bytes, num 1]

def singletonParent (launcherId : Bytes32) : Bytes32 :=
  coinId ⟨.rep 1, singletonHash launcherId (.rep 2), 1⟩

/-- `CREATE_COIN` with the melt amount. -/
def meltMarker : Node := list [num 51, nil, num 0x8f]

/-- A payment for the settlement puzzle to make. -/
def payment (puzzleHash : Bytes32) (amount : UInt8) : Node :=
  list [.atom puzzleHash.bytes, num amount]

end DigWallet.Sim
