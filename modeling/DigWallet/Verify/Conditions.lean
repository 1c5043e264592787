import DigWallet.Hex
import DigWallet.Sdk

/-!
# DigWallet.Verify.Conditions — the guards `client::verify` holds a condition list to

The signature guards, the three default-deny allowlists, the sole `AGG_SIG_ME` rule and the quote
form, as `verify.rs` computes them.
-/

namespace DigWallet

/-- The fail-closed verdict of `verify`. -/
def reject (message : String) : WalletError := ⟨.spendValidationFailed, message⟩

/-- `Result::map_err` into `reject`. -/
def orReject {α : Type} (what : String) : Except String α → WalletResult α
  | .ok a => .ok a
  | .error e => .error (reject (what ++ e))

/-- Refuse with `message` unless `b`. -/
def require (b : Bool) (message : String) : WalletResult Unit :=
  if b then .ok () else .error (reject message)

/-- The refusal of a total past `u64::MAX`. -/
def cannotTotal (what : String) : WalletError :=
  reject (what ++ " exceeds u64::MAX and so cannot be totalled; refusing to sign a spend whose " ++
    "value conservation cannot be decided")

def accumulate (total amount : UInt64) (what : String) : WalletResult UInt64 :=
  if total.toNat + amount.toNat < UInt64.size then .ok (total + amount)
  else .error (cannotTotal what)

/-! ## Signature guards -/

/-- The seven signature conditions other than `AGG_SIG_ME`. -/
def isNonMeAggSig : Condition → Bool
  | .aggSigUnsafe _ | .aggSigParent _ | .aggSigPuzzle _ | .aggSigAmount _ | .aggSigPuzzleAmount _
  | .aggSigParentAmount _ | .aggSigParentPuzzle _ => true
  | _ => false

/-- Any of the eight signature conditions. -/
def isAggSig (condition : Condition) : Bool :=
  condition.asAggSigMe.isSome || isNonMeAggSig condition

def rejectAnyAggSig (conditions : List Condition) : WalletResult Unit :=
  require (!conditions.any isAggSig)
    "a claimed settlement coin carries an AGG_SIG condition; refusing to sign"

def rejectAnyAggSigIn (conditions : List Condition) (what : String) : WalletResult Unit :=
  require (!conditions.any isAggSig)
    (what ++ " carries an AGG_SIG condition, but consensus authorizes it through the singleton " ++
      "lineage and never through a key; refusing to sign")

def rejectUnexpectedAggSig (condition : Condition) : WalletResult Unit :=
  require (!isNonMeAggSig condition)
    "unexpected non-AGG_SIG_ME signature condition in a send spend (refusing to sign)"

/-! ## Allowlists -/

/-- The timelock, announcement, concurrency and self assertions every allowlist admits. -/
def isBenignAssertion : Condition → Bool
  | .assertSecondsAbsolute | .assertSecondsRelative | .assertHeightAbsolute
  | .assertHeightRelative | .assertBeforeSecondsAbsolute | .assertBeforeSecondsRelative
  | .assertBeforeHeightAbsolute | .assertBeforeHeightRelative
  | .assertCoinAnnouncement _ | .assertPuzzleAnnouncement _
  | .assertConcurrentSpend _ | .assertConcurrentPuzzle _
  | .assertMyCoinId | .assertMyParentId | .assertMyPuzzleHash | .assertMyAmount
  | .assertMyBirthSeconds | .assertMyBirthHeight | .assertEphemeral => true
  | _ => false

/-- Which singleton re-home class `rejectNonRehomeCondition` is judging. -/
inductive RehomeClass
  | nft
  | nftSigned
  | nftEve
  | launcher
deriving DecidableEq

def rejectNonRehomeCondition (condition : Condition) (cls : RehomeClass) : WalletResult Unit :=
  match condition with
  | .aggSigMe _ =>
    match cls with
    | .nft => .ok ()
    | .nftSigned => .error (reject ("an NFT transfer's SIGNED delegated puzzle carries its own " ++
        "AGG_SIG_ME, which no honest transfer does (the standard layer emits that condition " ++
        "outside the delegated puzzle); it would authorize a second delegated puzzle on this " ++
        "coin; refusing to sign"))
    | .nftEve | .launcher => .error (reject
        "an unsigned NFT mint leg carries an AGG_SIG_ME; refusing to sign")
  | .createCoinAnnouncement _ =>
    match cls with
    | .launcher => .ok ()
    | .nft | .nftSigned | .nftEve => .error (reject ("an NFT spend creates a coin announcement, " ++
        "which no transfer or eve settle does; refusing to sign"))
  | .createCoin _ => .ok ()
  | condition => require (isBenignAssertion condition)
      ("an NFT spend emits a condition outside the re-home allowlist (an owner assignment, a " ++
        "metadata update, a melt, a message, a reserved fee, or an unknown opcode); only a " ++
        "TRANSFER and a MINT are signable; refusing to sign")

/-- Which of a melt's two condition lists is being judged. -/
inductive MeltConditionList
  | presented
  | signed
deriving DecidableEq

def rejectNonMeltCondition (condition : Condition) (list : MeltConditionList) :
    WalletResult Unit :=
  match condition with
  | .aggSigMe _ =>
    match list with
    | .presented => .ok ()
    | .signed => .error (reject ("the singleton melt's SIGNED delegated puzzle carries its own " ++
        "AGG_SIG_ME, which no honest melt does (the standard layer emits that condition outside " ++
        "the delegated puzzle); it would authorize a second delegated puzzle on this coin; " ++
        "refusing to sign"))
  | .meltSingleton => .ok ()
  | condition => require (isBenignAssertion condition)
      ("singleton melt emits a condition outside the melt allowlist (an output, a reserved fee, " ++
        "an announcement, or an unknown opcode); only a TERMINAL singleton spend is signable; " ++
        "refusing to sign")

def rejectNonTransferCondition : Condition → WalletResult Unit
  | .createCoin _ | .aggSigMe _ => .ok ()
  | condition => require (isBenignAssertion condition)
      ("option transfer delegated puzzle emits a condition outside the transfer allowlist " ++
        "(exercise message, melt, announcement, or an unknown opcode); refusing to sign")

/-! ## The sole `AGG_SIG_ME` -/

/-- `try_into::<[u8; 32]>`. -/
def Bytes32.ofBytes? (bytes : Bytes) : Option Bytes32 :=
  if h : bytes.length = 32 then some ⟨bytes, h⟩ else none

def soleAggSigMeMessage (conditions : List Condition) : WalletResult Bytes32 :=
  match conditions.filterMap Condition.asAggSigMe with
  | [] => .error (reject
      "no AGG_SIG_ME condition — nothing binds a signature to this coin (refusing to sign)")
  | [sole] =>
    match Bytes32.ofBytes? sole.message with
    | some message => .ok message
    | none => .error (reject ("AGG_SIG_ME message is not a 32-byte delegated-puzzle hash, so it " ++
        "cannot commit to any condition list (refusing to sign)"))
  | _ :: _ :: _ => .error (reject
      "more than one AGG_SIG_ME condition in a send spend (possible blank-check laundering)")

def enforceSoleAggSigMe (conditions : List Condition) (expectedMessage : Bytes32) :
    WalletResult Unit := do
  let message ← soleAggSigMeMessage conditions
  require (message = expectedMessage)
    ("AGG_SIG_ME does not commit to the delegated-puzzle hash the outputs derive from " ++
      "(refusing to sign)")

/-! ## The quote form -/

section Quote

variable (sdk : Sdk)

/-- The condition list a quoted puzzle commits to, for every solution. -/
structure QuotedConditions where
  puzzle : Node
  conditions : List Condition
  quotes : sdk.Quotes puzzle conditions

def QuotedConditions.prove (puzzle : Node) (what : String) : WalletResult (QuotedConditions sdk) :=
  match puzzle with
  | .atom _ => .error (reject (what ++ " is not quote-form (not a pair), so its conditions come " ++
      "from a solution nothing commits to; refusing to sign"))
  | .pair op body =>
    if hop : sdk.smallNumber op = some 1 then
      match hbody : sdk.conditionsFromClvm body with
      | .ok conditions => .ok ⟨.pair op body, conditions, op, body, rfl, hop, hbody⟩
      | .error e => .error (reject ("undecodable quoted conditions in " ++ what ++ ": " ++ e))
    else .error (reject (what ++ " is not the canonical quote form, so its conditions come from a " ++
      "solution nothing commits to; refusing to sign"))

/-- The delegated puzzle a standard-layer solution commits to. -/
structure CommittedStandardSpend where
  message : Bytes32
  conditions : QuotedConditions sdk
  commits : message = sdk.treeHash conditions.puzzle

def committedStandardSpend (standardSolution : Node) : WalletResult (CommittedStandardSpend sdk) := do
  let solution ← orReject "malformed standard-layer solution: "
    (sdk.standardParseSolution standardSolution)
  let conditions ← QuotedConditions.prove sdk solution.delegatedPuzzle "the delegated puzzle"
  .ok ⟨sdk.treeHash conditions.puzzle, conditions, rfl⟩

def committedDelegatedPuzzleMessage (standardSolution : Node) : WalletResult Bytes32 := do
  .ok (← committedStandardSpend sdk standardSolution).message

/-- The deepest solution nesting the melt arm searches. -/
def maxSolutionSearchDepth : ℕ := 256

def findSubtreeByTreeHash (target : Bytes32) : Node → ℕ → Option Node
  | node, depth =>
    if sdk.treeHash node = target then some node
    else if maxSolutionSearchDepth ≤ depth then none
    else match node with
      | .atom _ => none
      | .pair first rest =>
        (findSubtreeByTreeHash target first (depth + 1)).or
          (findSubtreeByTreeHash target rest (depth + 1))

def committedMeltConditions (solution : Node) (committedMessage : Bytes32) :
    WalletResult (QuotedConditions sdk) :=
  match findSubtreeByTreeHash sdk committedMessage solution 0 with
  | none => .error (reject ("the singleton melt's AGG_SIG_ME commits to a hash that appears " ++
      "nowhere in the coin's solution, so the conditions it authorizes cannot be recovered or " ++
      "checked; refusing to sign"))
  | some (.atom _) => .error (reject ("the singleton melt's signed delegated puzzle is not " ++
      "quote-form (not a pair), so the signature would authorize different outputs under a " ++
      "different solution; refusing to sign"))
  | some (.pair op body) =>
    if hop : sdk.smallNumber op = some 1 then
      match hbody : sdk.conditionsFromClvm body with
      | .ok conditions => .ok ⟨.pair op body, conditions, op, body, rfl, hop, hbody⟩
      | .error e => .error (reject ("undecodable signed melt conditions: " ++ e))
    else .error (reject ("the singleton melt's signed delegated puzzle is not the canonical quote " ++
      "form, so the signature would authorize different outputs under a different solution; " ++
      "refusing to sign"))

def runConditions (puzzle solution : Node) : WalletResult (List Condition) := do
  let output ← orReject "puzzle failed to run: " (sdk.runPuzzle puzzle solution)
  orReject "undecodable conditions: " (sdk.conditionsFromClvm output)

end Quote

end DigWallet
