import DigWallet.Verify.Posting

/-!
# DigWallet.Verify.Arms — what each arm of `accountCoin` adds

The loops first, then the nine arms, then the dispatch: `accountCoin_posts` says that a coin spend
is accounted exactly when its leg is admitted and the sums fit, and then adds the leg's tally.
-/

namespace DigWallet

open Checked

variable (sdk : Sdk)

/-! ## Sums over created coins -/

@[simp] theorem createsTally_nil (asset? : Option Bytes32) :
    Leg.createsTally sdk asset? [] = 0 := rfl

@[simp] theorem createsTally_cons (asset? : Option Bytes32) (create : CreateCoin)
    (creates : List CreateCoin) : Leg.createsTally sdk asset? (create :: creates) =
      Leg.createTally sdk asset? create + Leg.createsTally sdk asset? creates := by
  simp [Leg.createsTally]

theorem createsTally_append (asset? : Option Bytes32) (creates creates' : List CreateCoin) :
    Leg.createsTally sdk asset? (creates ++ creates') =
      Leg.createsTally sdk asset? creates + Leg.createsTally sdk asset? creates' := by
  simp [Leg.createsTally]

/-- Created coins touch the output lists and one output total. -/
theorem createsTally_eq (asset? : Option Bytes32) (creates : List CreateCoin) :
    Leg.createsTally sdk asset? creates =
      { outputs := (creates.map fun create =>
            (⟨create.puzzleHash, create.amount, asset?⟩ : DecodedOutput)).filter
          fun output => !isProtocolSinkHash sdk output.puzzleHash
        protocolSink := (creates.map fun create =>
            (⟨create.puzzleHash, create.amount, asset?⟩ : DecodedOutput)).filter
          fun output => isProtocolSinkHash sdk output.puzzleHash
        xchOut := if asset? = none then (creates.map (·.amount.toNat)).sum else 0
        catOut := fun asset =>
          if asset? = some asset then (creates.map (·.amount.toNat)).sum else 0 } := by
  induction creates with
  | nil =>
    have hzero : (0 : Tally) = {} := rfl
    ext1 <;> simp [hzero, funext_iff]
  | cons create creates ih =>
    rw [createsTally_cons, ih]
    ext1
    case xchOut => by_cases h : asset? = none <;> simp [Leg.createTally, h]
    case catOut =>
      funext asset
      by_cases h : asset? = some asset <;> simp [Leg.createTally, h]
    all_goals
      cases hsink : isProtocolSinkHash sdk create.puzzleHash <;> simp [Leg.createTally, hsink]

theorem filterMap_cons_toList {α β : Type} (f : α → Option β) (a : α) (l : List α) :
    (a :: l).filterMap f = (f a).toList ++ l.filterMap f := by
  cases hf : f a <;> simp [hf]

/-- A sum over the conditions that create a coin, as the sum over the created coins. -/
theorem sum_map_asCreateCoin (f : CreateCoin → Tally) (conditions : List Condition) :
    (conditions.map fun c => c.asCreateCoin.elim 0 f).sum =
      ((conditions.filterMap Condition.asCreateCoin).map f).sum := by
  induction conditions with
  | nil => rfl
  | cons c conditions ih =>
    cases hc : c.asCreateCoin with
    | none => simp [hc, ih]
    | some create => simp [hc, ih]

/-! ## Loops that route every created coin -/

theorem foldlM_route_posts {route : SpendLedger → CreateCoin → WalletResult SpendLedger}
    {asset? : Option Bytes32}
    (hroute : ∀ create, LedgerPosts (route · create) (· = Leg.createTally sdk asset? create))
    (creates : List CreateCoin) :
    LedgerPosts (fun l => creates.foldlM route l) (· = Leg.createsTally sdk asset? creates) := by
  have hone : ∀ create ∈ creates, LedgerPosts (route · create)
      fun d => True ∧ d = Leg.createTally sdk asset? create :=
    fun create _ => (hroute create).congr fun d => by simp
  refine (Posts.foldlM_map (fun _ _ => Tally.Fits.left) creates hone).congr fun d => ?_
  simp [Leg.createsTally]

theorem catSendCondition_posts (asset : Bytes32) (c : Condition) :
    LedgerPosts (catSendCondition sdk asset · c) fun d =>
      isNonMeAggSig c = false ∧ d = c.asCreateCoin.elim 0 (Leg.createTally sdk (some asset)) := by
  refine Posts.guard (refuses_rejectUnexpectedAggSig c) rejectUnexpectedAggSig_eq_ok fun _ => ?_
  cases c.asCreateCoin with
  | none => exact Posts.ok
  | some create => exact routeCatCreate_posts sdk asset create

theorem catSend_loop_posts (asset : Bytes32) (conditions : List Condition) :
    LedgerPosts (fun l => conditions.foldlM (catSendCondition sdk asset) l) fun d =>
      (∀ c ∈ conditions, isNonMeAggSig c = false) ∧
      d = Leg.createsTally sdk (some asset) (conditions.filterMap Condition.asCreateCoin) := by
  have h := Posts.foldlM_map (fun _ _ => Tally.Fits.left) conditions fun c _ =>
    catSendCondition_posts sdk asset c
  rw [sum_map_asCreateCoin] at h
  exact h

/-- What a standard send adds beside created coins: announcement assertions and reserved fees. -/
def sendFacts (ids : List Bytes32) (fee : ℕ) : Tally := { signedAnnouncementAssertions := ids, fee }

theorem sendFacts_add (ids ids' : List Bytes32) (fee fee' : ℕ) :
    sendFacts ids fee + sendFacts ids' fee' = sendFacts (ids ++ ids') (fee + fee') := by
  ext1 <;> simp [sendFacts]

theorem sendFacts_comm (ids : List Bytes32) (fee : ℕ) (creates : List CreateCoin) :
    sendFacts ids fee + Leg.createsTally sdk none creates =
      Leg.createsTally sdk none creates + sendFacts ids fee := by
  rw [createsTally_eq]
  ext1 <;> simp [sendFacts]

/-- What one condition of a standard send adds. -/
def sendConditionTally (c : Condition) : Tally :=
  sendFacts c.asAssertCoinAnnouncement.toList (c.asReserveFee.map UInt64.toNat).toList.sum +
    Leg.createsTally sdk none c.asCreateCoin.toList

/-- The value part of a standard send's condition. -/
theorem sendValue_posts (c : Condition) :
    LedgerPosts
      (fun l => match c.asReserveFee with
        | some amount =>
          accumulate l.fee amount "reserved fee total" >>= fun fee => .ok { l with fee }
        | none =>
          match c.asCreateCoin with
          | some create => routeXchCreate sdk l create
          | none => .ok l)
      (· = sendFacts [] (c.asReserveFee.map UInt64.toNat).toList.sum +
        Leg.createsTally sdk none c.asCreateCoin.toList) := by
  cases hfee : c.asReserveFee with
  | some amount =>
    have hcreate : c.asCreateCoin = none := by
      cases c <;> first | rfl | cases hfee
    rw [hcreate]
    exact (reserveFee_posts amount).congr fun d => by simp [sendFacts]
  | none =>
    have hzero : sendFacts [] 0 = 0 := rfl
    cases c.asCreateCoin with
    | some create => exact (routeXchCreate_posts sdk create).congr fun d => by simp [hzero]
    | none => exact Posts.ok.congr fun d => by simp [hzero]

theorem standardSendCondition_posts (c : Condition) :
    LedgerPosts (standardSendCondition sdk · c) fun d =>
      isNonMeAggSig c = false ∧ d = sendConditionTally sdk c := by
  refine Posts.guard (refuses_rejectUnexpectedAggSig c) rejectUnexpectedAggSig_eq_ok ?_
  intro _
  cases hid : c.asAssertCoinAnnouncement with
  | none =>
    refine (sendValue_posts sdk c).congr fun d => ?_
    simp [sendConditionTally, hid]
  | some id =>
    have hafter := Posts.after
      (fun l : SpendLedger =>
        { l with signedAnnouncementAssertions := l.signedAnnouncementAssertions ++ [id] })
      (sendFacts [id] 0) (fun l => by ext1 <;> simp [SpendLedger.toTally, sendFacts])
      (fun l hl => ⟨hl.fee, hl.melted, hl.xchIn, hl.xchOut, hl.catIn, hl.catOut⟩)
      (sendValue_posts sdk c)
    refine hafter.congr fun d => ?_
    simp only [exists_eq_left, sendConditionTally, hid, ← add_assoc, sendFacts_add]
    simp

theorem sum_sendConditionTally (conditions : List Condition) :
    (conditions.map (sendConditionTally sdk)).sum =
      Leg.createsTally sdk none (conditions.filterMap Condition.asCreateCoin) +
        sendFacts (conditions.filterMap Condition.asAssertCoinAnnouncement)
          ((conditions.filterMap Condition.asReserveFee).map UInt64.toNat).sum := by
  induction conditions with
  | nil => rfl
  | cons c conditions ih =>
    rw [List.map_cons, List.sum_cons, ih, filterMap_cons_toList, filterMap_cons_toList,
      filterMap_cons_toList, createsTally_append, List.map_append, List.sum_append,
      ← sendFacts_add, sendConditionTally, sendFacts_comm]
    have hmap : ∀ o : Option UInt64, o.toList.map UInt64.toNat = (o.map UInt64.toNat).toList := by
      intro o
      cases o <;> rfl
    rw [hmap, add_assoc, ← add_assoc (sendFacts _ _), sendFacts_comm]
    simp only [add_assoc]

theorem standardSend_loop_posts (conditions : List Condition) :
    LedgerPosts (fun l => conditions.foldlM (standardSendCondition sdk) l) fun d =>
      (∀ c ∈ conditions, isNonMeAggSig c = false) ∧
      d = Leg.createsTally sdk none (conditions.filterMap Condition.asCreateCoin) +
        sendFacts (conditions.filterMap Condition.asAssertCoinAnnouncement)
          ((conditions.filterMap Condition.asReserveFee).map UInt64.toNat).sum := by
  have h := Posts.foldlM_map (fun _ _ => Tally.Fits.left) conditions fun c _ =>
    standardSendCondition_posts sdk c
  rw [sum_sendConditionTally] at h
  exact h

/-! ## Loops that count their created coins -/

section SoleOutput

variable {check : Condition → WalletResult Unit} {good : CreateCoin → Bool}
  {step : SpendLedger × ℕ → Condition → WalletResult (SpendLedger × ℕ)} {second bad : String}

/-- A step that checks a condition and admits one good created coin. -/
def IsSoleOutputStep (check : Condition → WalletResult Unit) (good : CreateCoin → Bool)
    (second bad : String)
    (step : SpendLedger × ℕ → Condition → WalletResult (SpendLedger × ℕ)) : Prop :=
  ∀ state c, step state c = check c >>= fun _ =>
    match c.asCreateCoin with
    | none => .ok state
    | some create => require (state.2 + 1 ≤ 1) second >>= fun _ => require (good create) bad >>=
        fun _ => routeXchCreate sdk state.1 create >>= fun ledger => .ok (ledger, state.2 + 1)

theorem soleOutputStep_posts (hstep : IsSoleOutputStep sdk check good second bad step)
    (hcheck : ∀ c, Refuses (check c)) (c : Condition) :
    Posts (fun p : SpendLedger × ℕ => (p.1.toTally, p.2)) (fun m => m.1.Fits ∧ m.2 ≤ 1) IsRefusal
      (step · c)
      fun d => (check c = .ok () ∧ ∀ create ∈ c.asCreateCoin, good create = true) ∧
        d = (Leg.createsTally sdk none c.asCreateCoin.toList, c.asCreateCoin.toList.length) := by
  simp only [hstep _ c]
  suffices hcreate : Posts (fun p : SpendLedger × ℕ => (p.1.toTally, p.2))
      (fun m => m.1.Fits ∧ m.2 ≤ 1) IsRefusal
      (fun state => match c.asCreateCoin with
        | none => .ok state
        | some create => require (state.2 + 1 ≤ 1) second >>= fun _ => require (good create) bad >>=
            fun _ => routeXchCreate sdk state.1 create >>= fun ledger => .ok (ledger, state.2 + 1))
      (fun d => (∀ create ∈ c.asCreateCoin, good create = true) ∧
        d = (Leg.createsTally sdk none c.asCreateCoin.toList, c.asCreateCoin.toList.length)) from
    (Posts.guard (hcheck c) Iff.rfl fun _ => hcreate).congr fun d => and_assoc.symm
  cases c.asCreateCoin with
  | none => exact Posts.ok.congr fun d => by simp [← Prod.mk_zero_zero]
  | some create =>
    have hroute := Posts.guard (refuses_require (good create) bad) require_eq_ok
      fun _ => routeXchCreate_posts sdk create
    have hrefusal : IsRefusal (reject second) := rfl
    have htick := Posts.tick 1 hrefusal hroute
    have hfun : (fun p : SpendLedger × ℕ =>
        if p.2 + 1 ≤ 1 then
          (require (good create) bad >>= fun _ => routeXchCreate sdk p.1 create) >>=
            fun ledger => .ok (ledger, p.2 + 1)
        else .error (reject second)) =
        fun p => require (p.2 + 1 ≤ 1) second >>= fun _ => require (good create) bad >>=
          fun _ => routeXchCreate sdk p.1 create >>= fun ledger => .ok (ledger, p.2 + 1) := by
      funext p
      by_cases hp : p.2 + 1 ≤ 1
      · simp only [hp, require, decide_true, if_true, bind_assoc]
        rfl
      · simp only [hp, require, decide_false, if_false]
        rfl
    rw [hfun] at htick
    apply htick.congr
    intro d
    simp [Prod.ext_iff, and_assoc]

/-- A run of the step over a condition list, with its final count tested. -/
theorem soleOutput_loop_posts (hstep : IsSoleOutputStep sdk check good second bad step)
    (hcheck : ∀ c, Refuses (check c)) (test : ℕ → Bool) (missing : String)
    (conditions : List Condition) :
    LedgerPosts
      (fun l => conditions.foldlM step (l, 0) >>= fun p =>
        if test p.2 then .ok p.1 else .error (reject missing))
      fun d => (∀ c ∈ conditions, check c = .ok ()) ∧
        (∀ create ∈ conditions.filterMap Condition.asCreateCoin, good create = true) ∧
        (conditions.filterMap Condition.asCreateCoin).length ≤ 1 ∧
        test (conditions.filterMap Condition.asCreateCoin).length = true ∧
        d = Leg.createsTally sdk none (conditions.filterMap Condition.asCreateCoin) := by
  have hmono : ∀ a b : Tally × ℕ, (a + b).1.Fits ∧ (a + b).2 ≤ 1 → a.1.Fits ∧ a.2 ≤ 1 :=
    fun a b h => ⟨h.1.left, Nat.le_trans (Nat.le_add_right _ _) h.2⟩
  have hloop := Posts.foldlM_map hmono conditions fun c _ => soleOutputStep_posts sdk hstep hcheck c
  have hsum : (conditions.map fun c =>
      (Leg.createsTally sdk none c.asCreateCoin.toList, c.asCreateCoin.toList.length)).sum =
      (Leg.createsTally sdk none (conditions.filterMap Condition.asCreateCoin),
        (conditions.filterMap Condition.asCreateCoin).length) := by
    induction conditions with
    | nil => rfl
    | cons c conditions ih =>
      rw [List.map_cons, List.sum_cons, ih (Posts.foldlM_map hmono conditions fun c _ =>
        soleOutputStep_posts sdk hstep hcheck c), filterMap_cons_toList, createsTally_append,
        List.length_append, Prod.mk_add_mk]
  rw [hsum] at hloop
  have hrefusal : IsRefusal (reject missing) := rfl
  refine (Posts.counted test hrefusal hloop).congr ?_
  intro d
  constructor
  · rintro ⟨n, ⟨hall, hd⟩, hn, ht⟩
    obtain ⟨rfl, rfl⟩ := Prod.mk.inj hd
    refine ⟨fun c hc => (hall c hc).1, fun create hcreate => ?_, hn, ht, rfl⟩
    obtain ⟨c, hc, hcc⟩ := List.mem_filterMap.mp hcreate
    exact (hall c hc).2 create hcc
  · rintro ⟨hall, hgood, hn, ht, rfl⟩
    exact ⟨_, ⟨fun c hc => ⟨hall c hc, fun create hcreate =>
      hgood create (List.mem_filterMap.mpr ⟨c, hc, hcreate⟩)⟩, rfl⟩, hn, ht⟩

end SoleOutput

/-! ## Arms -/

/-- `f` accounts the leg `leg?`: it accepts iff there is one and it is admitted, and adds `δ` of it. -/
def Accounts (δ : Leg sdk → Tally) (leg? : Option (Leg sdk))
    (f : SpendLedger → WalletResult SpendLedger) : Prop :=
  LedgerPosts f fun d => ∃ leg, leg? = some leg ∧ leg.Admitted ∧ d = δ leg

section Accounts

variable {sdk} {δ : Leg sdk → Tally} {α : Type}

theorem Accounts.reject (message : String) :
    Accounts sdk δ none fun _ => .error (reject message) := by
  have hrefusal : IsRefusal (DigWallet.reject message) := rfl
  exact (Posts.error hrefusal).congr fun d => by simp

theorem Accounts.read {c : Except String α} {what : String}
    {f : α → SpendLedger → WalletResult SpendLedger} {leg? : α → Option (Leg sdk)}
    (hf : ∀ x, c = .ok x → Accounts sdk δ (leg? x) (f x)) :
    Accounts sdk δ (c.toOption >>= leg?) fun l => orReject what c >>= fun x => f x l := by
  cases c with
  | error e => exact Accounts.reject _
  | ok x => exact hf x rfl

end Accounts

theorem accountCatSettlementClaim_posts (coin : Coin) (asset : Bytes32) (innerPuzzle : Puzzle)
    (innerSolution : Node) :
    Accounts sdk (·.restTally coin)
      (do return .catClaim asset (← (runConditions sdk innerPuzzle.ptr innerSolution).toOption))
      (accountCatSettlementClaim sdk · asset innerPuzzle innerSolution) := by
  have harm := Posts.read (refuses_runConditions sdk innerPuzzle.ptr innerSolution)
    fun conditions _ => Posts.guard (refuses_rejectAnyAggSig conditions) rejectAnyAggSig_eq_ok
      fun _ => foldlM_route_posts sdk (routeCatCreate_posts sdk asset)
        (conditions.filterMap Condition.asCreateCoin)
  apply harm.congr
  intro d
  simp only [Option.bind_eq_bind, Option.bind_eq_some_iff, toOption_eq_some, Option.pure_def,
    Option.some.injEq]
  constructor
  · rintro ⟨conditions, hrun, hsig, rfl⟩
    exact ⟨_, ⟨conditions, hrun, rfl⟩, hsig, (add_zero _).symm⟩
  · rintro ⟨_, ⟨conditions, hrun, rfl⟩, hsig, rfl⟩
    exact ⟨conditions, hrun, hsig, add_zero _⟩

theorem committedDelegatedPuzzleMessage_eq_ok {solution : Node} {message : Bytes32} :
    committedDelegatedPuzzleMessage sdk solution = .ok message ↔
      ∃ committed, committedStandardSpend sdk solution = .ok committed ∧
        message = sdk.treeHash committed.conditions.puzzle := by
  unfold committedDelegatedPuzzleMessage
  rw [bind_eq_ok]
  refine exists_congr fun committed => and_congr_right ?_
  intro _
  rw [← committed.commits, Except.ok.injEq, eq_comm]

theorem refuses_committedDelegatedPuzzleMessage (solution : Node) :
    Refuses (committedDelegatedPuzzleMessage sdk solution) :=
  (refuses_committedStandardSpend sdk solution).bind fun _ => refuses_ok _

/-- Recording the offer-binding facts of a signed coin. -/
theorem Posts.recordBinding {f : SpendLedger → WalletResult SpendLedger} {R : Tally → Prop}
    (binding : CoinBinding) (hf : LedgerPosts f R) :
    LedgerPosts (fun l => f { l with bindings := l.bindings ++ [binding] })
      fun d => ∃ b, R b ∧ d = { bindings := [binding] } + b := by
  refine Posts.after _ _ (fun l => ?_) (fun l hl => ?_) hf
  · ext1 <;> simp [SpendLedger.toTally]
  · exact ⟨hl.fee, hl.melted, hl.xchIn, hl.xchOut, hl.catIn, hl.catOut⟩

theorem bindings_comm (binding : CoinBinding) (asset? : Option Bytes32)
    (creates : List CreateCoin) (facts : Tally) :
    ({ bindings := [binding] } : Tally) + (Leg.createsTally sdk asset? creates + facts) =
      Leg.createsTally sdk asset? creates + ({ bindings := [binding] } + facts) := by
  rw [createsTally_eq]
  ext1 <;> simp

theorem accountCatSend_posts (spend : CoinSpend) (asset : Bytes32) (innerPuzzle : Puzzle)
    (innerSolution : Node) :
    Accounts sdk (·.restTally spend.coin)
      (do
        let signed ← signedList sdk innerSolution
        return .catSend asset signed (← (runConditions sdk innerPuzzle.ptr innerSolution).toOption))
      (accountCatSend sdk · spend asset innerPuzzle innerSolution) := by
  have harm := Posts.read (refuses_committedDelegatedPuzzleMessage sdk innerSolution) fun m _ =>
    Posts.read (refuses_runConditions sdk innerPuzzle.ptr innerSolution) fun conditions _ =>
      Posts.guard (refuses_enforceSoleAggSigMe conditions m) enforceSoleAggSigMe_eq_ok fun _ =>
        Posts.recordBinding (coinBinding sdk spend.coin conditions)
          (catSend_loop_posts sdk asset conditions)
  have hcomm : ∀ conditions, ({ bindings := [coinBinding sdk spend.coin conditions] } : Tally) +
      Leg.createsTally sdk (some asset) (conditions.filterMap Condition.asCreateCoin) =
      Leg.createsTally sdk (some asset) (conditions.filterMap Condition.asCreateCoin) +
        { bindings := [coinBinding sdk spend.coin conditions] } := fun conditions => by
    simpa using bindings_comm sdk (coinBinding sdk spend.coin conditions) (some asset)
      (conditions.filterMap Condition.asCreateCoin) 0
  apply harm.congr
  intro d
  simp only [Option.bind_eq_bind, Option.bind_eq_some_iff, toOption_eq_some, signedList_eq_some,
    Option.pure_def, Option.some.injEq]
  constructor
  · rintro ⟨m, hm, conditions, hrun, hsole, b, ⟨hsig, rfl⟩, rfl⟩
    obtain ⟨committed, hcommitted, rfl⟩ := (committedDelegatedPuzzleMessage_eq_ok sdk).mp hm
    exact ⟨_, ⟨_, ⟨committed, hcommitted, rfl⟩, conditions, hrun, rfl⟩, ⟨hsole, hsig⟩,
      hcomm conditions⟩
  · rintro ⟨_, ⟨_, ⟨committed, hcommitted, rfl⟩, conditions, hrun, rfl⟩, ⟨hsole, hsig⟩, rfl⟩
    exact ⟨_, (committedDelegatedPuzzleMessage_eq_ok sdk).mpr ⟨committed, hcommitted, rfl⟩,
      conditions, hrun, hsole, _, ⟨hsig, rfl⟩, (hcomm conditions).symm⟩

/-- The spent coin is counted, then the leg. -/
theorem Accounts.enter {coin : Coin} {asset? : Option Bytes32} {leg? : Option (Leg sdk)}
    {α : Type} {c : SpendLedger → WalletResult α} {u : SpendLedger → α → SpendLedger}
    {f : SpendLedger → WalletResult SpendLedger}
    (henter : LedgerPosts (fun l => c l >>= fun x => .ok (u l x)) (· = Leg.enterTally coin asset?))
    (hasset : ∀ leg, leg? = some leg → leg.asset? = asset?)
    (hf : Accounts sdk (·.restTally coin) leg? f) :
    Accounts sdk (·.tally coin) leg? fun l => c l >>= fun x => f (u l x) := by
  refine (Posts.update (fun _ _ => Tally.Fits.left) henter hf).congr fun d => ?_
  constructor
  · rintro ⟨_, _, rfl, ⟨leg, hleg, hadm, rfl⟩, rfl⟩
    exact ⟨leg, hleg, hadm, by simp only [Leg.tally, hasset leg hleg]⟩
  · rintro ⟨leg, hleg, hadm, rfl⟩
    exact ⟨_, _, rfl, ⟨leg, hleg, hadm, rfl⟩, by simp only [Leg.tally, hasset leg hleg]⟩

/-- `account_cat_spend`, past the input total. -/
def accountCatInner (spend : CoinSpend) (cat : ParsedCat) (ledger : SpendLedger) :
    WalletResult SpendLedger := do
  if ← orReject "malformed CAT settlement puzzle: " (sdk.settlementParsePuzzle cat.p2Puzzle) then
    accountCatSettlementClaim sdk ledger cat.assetId cat.p2Puzzle cat.p2Solution
  else
    match ← orReject "malformed CAT inner puzzle: " (sdk.standardParsePuzzle cat.p2Puzzle) with
    | none => .error (reject
        "CAT inner puzzle is neither a standard layer nor a settlement layer; refusing to sign")
    | some _ => accountCatSend sdk ledger spend cat.assetId cat.p2Puzzle cat.p2Solution

theorem accountCatInner_posts (spend : CoinSpend) (cat : ParsedCat) :
    Accounts sdk (·.restTally spend.coin) (catLeg sdk cat) (accountCatInner sdk spend cat) := by
  apply Accounts.read
  intro claim _
  cases claim with
  | true => exact accountCatSettlementClaim_posts sdk spend.coin _ _ _
  | false =>
    apply Accounts.read
    intro publicKey? _
    cases publicKey? with
    | none => exact Accounts.reject _
    | some publicKey => exact accountCatSend_posts sdk spend _ _ _

theorem accountCatSpend_posts (spend : CoinSpend) (cat : ParsedCat) :
    Accounts sdk (·.tally spend.coin) (catLeg sdk cat) (accountCatSpend sdk · spend cat) :=
  Accounts.enter sdk (enterCat_posts cat.assetId spend.coin)
    (fun _ hleg => asset_of_catLeg hleg) (accountCatInner_posts sdk spend cat)

/-! ## The option arm -/

theorem optionTransfer_step : IsSoleOutputStep sdk
    (fun c => rejectUnexpectedAggSig c >>= fun _ => rejectNonTransferCondition c)
    (fun create => !isProtocolSinkHash sdk create.puzzleHash)
    ("option transfer emits more than one CREATE_COIN (undisclosed extra egress); " ++
      "refusing to sign")
    ("option transfer re-homes the singleton to a structural puzzle hash (unauthorized re-home); " ++
      "refusing to sign")
    (optionTransferCondition sdk) := by
  intro state c
  unfold optionTransferCondition
  rw [bind_assoc]
  rfl

theorem refuses_optionCheck (c : Condition) :
    Refuses (rejectUnexpectedAggSig c >>= fun _ => rejectNonTransferCondition c) :=
  (refuses_rejectUnexpectedAggSig c).bind fun _ => refuses_rejectNonTransferCondition c

theorem optionTransfer_loop_posts (conditions : List Condition) :
    LedgerPosts
      (fun l => conditions.foldlM (optionTransferCondition sdk) (l, 0) >>= fun p => .ok p.1)
      fun d => (∀ c ∈ conditions,
          isNonMeAggSig c = false ∧ rejectNonTransferCondition c = .ok ()) ∧
        (∀ create ∈ conditions.filterMap Condition.asCreateCoin,
          isProtocolSinkHash sdk create.puzzleHash = false) ∧
        (conditions.filterMap Condition.asCreateCoin).length ≤ 1 ∧
        d = Leg.createsTally sdk none (conditions.filterMap Condition.asCreateCoin) := by
  have hloop := soleOutput_loop_posts sdk (optionTransfer_step sdk) refuses_optionCheck
    (fun _ => true) "" conditions
  apply hloop.congr
  intro d
  simp only [guard_bind_eq_ok, rejectUnexpectedAggSig_eq_ok, Bool.not_eq_true', true_and]

theorem exists_sole_odd {creates : List CreateCoin} (hlen : creates.length ≤ 1)
    (hodd : creates.any (fun create => create.amount % 2 = 1) = true) :
    ∃ create, creates = [create] ∧ create.amount % 2 ≠ 0 := by
  match creates, hlen, hodd with
  | [create], _, hodd =>
    have hone : create.amount % 2 = 1 := by simpa using hodd
    exact ⟨create, rfl, by rw [hone]; decide⟩

theorem mod_two_eq_one {a : UInt64} (h : a % 2 ≠ 0) : a % 2 = 1 := by
  have hlt : (a % 2).toNat < 2 := by
    rw [UInt64.toNat_mod]
    exact Nat.mod_lt _ (by decide)
  have hne : (a % 2).toNat ≠ 0 := fun h0 => h (UInt64.toNat_inj.mp h0)
  have hone : (a % 2).toNat = 1 := by omega
  exact UInt64.toNat_inj.mp hone

theorem accountOptionTransfer_posts (spend : CoinSpend) (innerPuzzle : Puzzle)
    (innerSolution : Node) :
    Accounts sdk (·.tally spend.coin) (optionLeg sdk innerPuzzle innerSolution)
      (accountOptionTransfer sdk · spend innerPuzzle innerSolution) := by
  apply Accounts.read
  intro publicKey? _
  cases publicKey? with
  | none => exact Accounts.reject _
  | some publicKey =>
  have harm := Posts.read (refuses_committedDelegatedPuzzleMessage sdk innerSolution) fun m _ =>
    Posts.read (refuses_runConditions sdk innerPuzzle.ptr innerSolution) fun conditions _ =>
      Posts.guard (refuses_enforceSoleAggSigMe conditions m) enforceSoleAggSigMe_eq_ok fun _ =>
        Posts.guard (refuses_require
            ((conditions.filterMap Condition.asCreateCoin).any fun create => create.amount % 2 = 1)
            ("option singleton spend does not re-home (melt/exercise or clawback); only a " ++
              "re-homing TRANSFER is signable; refusing to sign"))
          require_eq_ok fun _ =>
          Posts.bind (fun _ _ => Tally.Fits.left) (enterXch_posts spend.coin)
            (optionTransfer_loop_posts sdk conditions)
  apply harm.congr
  intro d
  simp only [Option.bind_eq_bind, Option.bind_eq_some_iff, toOption_eq_some, signedList_eq_some,
    Option.pure_def, Option.some.injEq]
  constructor
  · rintro ⟨m, hm, conditions, hrun, hsole, hodd, _, _, rfl, ⟨hall, hsink, hlen, rfl⟩, rfl⟩
    obtain ⟨committed, hcommitted, rfl⟩ := (committedDelegatedPuzzleMessage_eq_ok sdk).mp hm
    obtain ⟨create, hcreate, hodd⟩ := exists_sole_odd hlen hodd
    refine ⟨_, ⟨_, ⟨committed, hcommitted, rfl⟩, conditions, hrun, rfl⟩,
      ⟨hsole, hall, create, ⟨hcreate, hodd⟩, hsink create (by simp [hcreate])⟩, ?_⟩
    exact congrArg _ (add_zero _).symm
  · rintro ⟨_, ⟨_, ⟨committed, hcommitted, rfl⟩, conditions, hrun, rfl⟩,
      ⟨hsole, hall, create, ⟨hcreate, hodd⟩, hsink⟩, rfl⟩
    refine ⟨_, (committedDelegatedPuzzleMessage_eq_ok sdk).mpr ⟨committed, hcommitted, rfl⟩,
      conditions, hrun, hsole, by simpa [hcreate] using mod_two_eq_one hodd, _, _, rfl,
      ⟨hall, by simpa [hcreate] using hsink, by simp [hcreate], rfl⟩, ?_⟩
    exact congrArg _ (add_zero _)

/-! ## The singleton arms -/

theorem innerRehomeStep_eq_ok {what : String} {destination : Option Bytes32} {create : CreateCoin}
    {result : Option Bytes32} : innerRehomeStep sdk what destination create = .ok result ↔
      destination = none ∧ create.amount % 2 ≠ 0 ∧
        isProtocolSinkHash sdk create.puzzleHash = false ∧ result = some create.puzzleHash := by
  unfold innerRehomeStep
  simp only [guard_bind_eq_ok, require_eq_ok, Option.isNone_iff_eq_none, decide_eq_true_eq,
    Bool.not_eq_true', Except.ok.injEq, eq_comm (a := result)]

/-- The inner puzzle's destination, read back: one odd `CREATE_COIN`, to no structural hash. -/
theorem innerRehomeDestination_eq_ok {inner : QuotedConditions sdk} {what : String}
    {destination : Bytes32} : innerRehomeDestination sdk inner what = .ok destination ↔
      Leg.Rehomes sdk inner.conditions destination := by
  unfold innerRehomeDestination Leg.Rehomes Leg.SoleOdd
  simp only [bind_eq_ok]
  match inner.conditions.filterMap Condition.asCreateCoin with
  | [] => simp [pure, Except.pure]
  | [create] =>
    simp only [List.foldlM_cons, List.foldlM_nil, bind_pure, innerRehomeStep_eq_ok, true_and]
    constructor
    · rintro ⟨_, ⟨hodd, hsink, rfl⟩, h⟩
      obtain rfl := Except.ok.inj h
      exact ⟨create, ⟨rfl, hodd⟩, rfl, hsink⟩
    · rintro ⟨create', ⟨hcreate, hodd⟩, rfl, hsink⟩
      obtain rfl : create = create' := by simpa using hcreate
      exact ⟨_, ⟨hodd, hsink, rfl⟩, rfl⟩
  | create :: create' :: creates =>
    simp only [List.foldlM_cons, bind_eq_ok, innerRehomeStep_eq_ok]
    constructor
    · rintro ⟨_, ⟨_, ⟨-, -, -, rfl⟩, _, ⟨h, -⟩, -⟩, -⟩
      cases h
    · rintro ⟨_, ⟨h, -⟩, -⟩
      simp at h

theorem Rehomes.head {conditions : List Condition} {owner : Bytes32}
    (h : Leg.Rehomes sdk conditions owner) : ∃ create,
      (conditions.filterMap Condition.asCreateCoin).head? = some create ∧
      create.puzzleHash = owner := by
  obtain ⟨create, ⟨hcreate, -⟩, rfl, -⟩ := h
  exact ⟨create, by rw [hcreate]; rfl, rfl⟩

theorem soleOutputLoop_step (loop : SoleOutputLoop) : IsSoleOutputStep sdk loop.check
    (fun create => create.amount % 2 ≠ 0) loop.second loop.even (loop.step sdk) := by
  intro state c
  rfl

theorem soleOutputLoop_posts (loop : SoleOutputLoop) (hcheck : ∀ c, Refuses (loop.check c))
    (conditions : List Condition) :
    LedgerPosts (loop.run sdk · conditions) fun d =>
      (∀ c ∈ conditions, loop.check c = .ok ()) ∧ (∃ create, Leg.SoleOdd conditions create) ∧
        d = Leg.createsTally sdk none (conditions.filterMap Condition.asCreateCoin) := by
  have hloop := soleOutput_loop_posts sdk (soleOutputLoop_step sdk loop) hcheck
    (fun count => decide (count = 1)) loop.missing conditions
  have hfun : (fun l => loop.run sdk l conditions) = fun l =>
      conditions.foldlM (loop.step sdk) (l, 0) >>= fun p =>
        if decide (p.2 = 1) = true then .ok p.1 else .error (reject loop.missing) := by
    funext l
    unfold SoleOutputLoop.run require
    apply bind_congr
    intro p
    by_cases hp : p.2 = 1
    · simp [hp, bind, Except.bind]
    · simp [hp, bind, Except.bind]
  rw [hfun]
  refine hloop.congr fun d => and_congr_right ?_
  intro _
  simp only [decide_eq_true_eq, Leg.SoleOdd]
  constructor
  · rintro ⟨hodd, -, hone, rfl⟩
    obtain ⟨create, hcreate⟩ := List.length_eq_one_iff.mp hone
    exact ⟨⟨create, hcreate, hodd create (by simp [hcreate])⟩, rfl⟩
  · rintro ⟨⟨create, hcreate, hodd⟩, rfl⟩
    simpa [hcreate] using hodd

theorem commits_iff {committed : CommittedStandardSpend sdk} {conditions : List Condition} :
    Leg.Commits committed.conditions conditions ↔
      soleAggSigMeMessage conditions = .ok committed.message := by
  rw [committed.commits]
  rfl

/-- Naming an NFT act. -/
theorem nameOperation_posts (operation : NftOperation) :
    LedgerPosts (fun l => .ok { l with nftOperations := l.nftOperations ++ [operation] })
      (· = { nftOperations := [operation] }) := by
  refine Posts.pure _ _ (fun l => ?_) fun l hl => ?_
  · ext1 <;> simp [SpendLedger.toTally]
  · exact ⟨hl.fee, hl.melted, hl.xchIn, hl.xchOut, hl.catIn, hl.catOut⟩

theorem nftTransferLoop_check (c : Condition) : nftTransferLoop.check c = .ok () ↔
    isNonMeAggSig c = false ∧ rejectNonRehomeCondition c .nft = .ok () := by
  show (rejectUnexpectedAggSig c >>= fun _ => rejectNonRehomeCondition c .nft) = .ok () ↔ _
  rw [guard_bind_eq_ok, rejectUnexpectedAggSig_eq_ok]

theorem refuses_nftTransferCheck (c : Condition) : Refuses (nftTransferLoop.check c) :=
  (refuses_rejectUnexpectedAggSig c).bind fun _ => refuses_rejectNonRehomeCondition c _

theorem nftSigned_forM_eq_ok (conditions : List Condition) :
    (conditions.forM fun c => do
      rejectUnexpectedAggSig c
      rejectNonRehomeCondition c .nftSigned) = .ok () ↔
    ∀ c ∈ conditions, isNonMeAggSig c = false ∧ rejectNonRehomeCondition c .nftSigned = .ok () := by
  simp only [forM_eq_ok, guard_bind_eq_ok, rejectUnexpectedAggSig_eq_ok]

theorem accountNftTransfer_posts (spend : CoinSpend) (nft : ParsedNft)
    (puzzlePtr solutionPtr : Node) :
    Accounts sdk (·.tally spend.coin) (nftTransferLeg sdk nft puzzlePtr solutionPtr)
      (accountNftTransfer sdk · spend nft puzzlePtr solutionPtr) := by
  apply Accounts.read
  intro publicKey? _
  cases publicKey? with
  | none => exact Accounts.reject _
  | some publicKey =>
  have harm := Posts.read (refuses_committedStandardSpend sdk nft.p2Solution) fun committed _ =>
    Posts.guard (Refuses.forM (fun c => (refuses_rejectUnexpectedAggSig c).bind fun _ =>
        refuses_rejectNonRehomeCondition c .nftSigned) committed.conditions.conditions)
      (nftSigned_forM_eq_ok _) fun _ =>
      Posts.read (refuses_innerRehomeDestination sdk committed.conditions "an NFT transfer")
        fun destination _ =>
        Posts.read (refuses_runConditions sdk puzzlePtr solutionPtr) fun conditions _ =>
          Posts.guard (refuses_enforceSoleAggSigMe conditions committed.message)
            enforceSoleAggSigMe_eq_ok fun _ =>
            Posts.bind (fun _ _ => Tally.Fits.left) (enterXch_posts spend.coin)
              (Posts.bind (fun _ _ => Tally.Fits.left)
                (soleOutputLoop_posts sdk nftTransferLoop refuses_nftTransferCheck conditions)
                (nameOperation_posts (.transfer nft.launcherId destination)))
  apply harm.congr
  intro d
  simp only [Option.bind_eq_bind, Option.bind_eq_some_iff, toOption_eq_some, signedList_eq_some,
    Option.pure_def, Option.some.injEq, innerRehomeDestination_eq_ok, nftTransferLoop_check]
  constructor
  · rintro ⟨committed, hcommitted, hsigned, destination, hrehomes, conditions, hrun, hsole, _, _,
      rfl, ⟨_, _, ⟨hall, hodd, rfl⟩, rfl, rfl⟩, rfl⟩
    obtain ⟨create, hhead, rfl⟩ := Rehomes.head sdk hrehomes
    exact ⟨_, ⟨_, ⟨committed, hcommitted, rfl⟩, create, hhead, conditions, hrun, rfl⟩,
      ⟨hsigned, hrehomes, (commits_iff sdk).mpr hsole, hall, hodd⟩, rfl⟩
  · rintro ⟨_, ⟨_, ⟨committed, hcommitted, rfl⟩, create, hhead, conditions, hrun, rfl⟩,
      ⟨hsigned, hrehomes, hsole, hall, hodd⟩, rfl⟩
    exact ⟨committed, hcommitted, hsigned, create.puzzleHash, hrehomes, conditions, hrun,
      (commits_iff sdk).mp hsole, _, _, rfl, ⟨_, _, ⟨hall, hodd, rfl⟩, rfl, rfl⟩, rfl⟩

/-- No signature and only re-home conditions, as the two unsigned arms check it. -/
theorem unsignedRehome_iff (conditions : List Condition) (cls : RehomeClass) :
    ((∀ c ∈ conditions, isAggSig c = false) ∧
      ∀ c ∈ conditions, rejectNonRehomeCondition c cls = .ok ()) ↔
    ∀ c ∈ conditions, isAggSig c = false ∧ rejectNonRehomeCondition c cls = .ok () :=
  forall₂_and.symm

/-- The last line of the eve arm: the eve's parent and the mint's name. -/
theorem recordMint_posts (parent launcherId owner : Bytes32) :
    LedgerPosts
      (fun l => .ok { l with
        eveParents := l.eveParents ++ [parent]
        nftOperations := l.nftOperations ++ [.mint launcherId owner] })
      (· = { eveParents := [parent], nftOperations := [.mint launcherId owner] }) := by
  refine Posts.pure _ _ (fun l => ?_) fun l hl => ?_
  · ext1 <;> simp [SpendLedger.toTally]
  · exact ⟨hl.fee, hl.melted, hl.xchIn, hl.xchOut, hl.catIn, hl.catOut⟩

theorem accountNftEveMint_posts (spend : CoinSpend) (nft : ParsedNft)
    (puzzlePtr solutionPtr : Node) :
    Accounts sdk (·.tally spend.coin) (eveLeg sdk nft puzzlePtr solutionPtr)
      (accountNftEveMint sdk · spend nft puzzlePtr solutionPtr) := by
  have harm := Posts.read
    (refuses_prove sdk nft.p2Puzzle.ptr "an NFT mint's eve inner puzzle") fun quoted _ =>
    Posts.guard (refuses_rejectAnyAggSigIn quoted.conditions "an NFT mint's eve spend")
      rejectAnyAggSigIn_eq_ok fun _ =>
      Posts.guard (Refuses.forM (refuses_rejectNonRehomeCondition · .nftEve) quoted.conditions)
        forM_eq_ok fun _ =>
        Posts.read (refuses_innerRehomeDestination sdk quoted "an NFT mint") fun owner _ =>
          Posts.read (refuses_runConditions sdk puzzlePtr solutionPtr) fun conditions _ =>
            Posts.guard (refuses_rejectAnyAggSigIn conditions "an NFT mint's eve spend")
              rejectAnyAggSigIn_eq_ok fun _ =>
              Posts.bind (fun _ _ => Tally.Fits.left) (enterXch_posts spend.coin)
                (Posts.bind (fun _ _ => Tally.Fits.left)
                  (soleOutputLoop_posts sdk nftEveMintLoop
                    (refuses_rejectNonRehomeCondition · .nftEve) conditions)
                  (recordMint_posts spend.coin.parentCoinInfo nft.launcherId owner))
  apply harm.congr
  intro d
  unfold eveLeg
  simp only [Option.bind_eq_bind, Option.bind_eq_some_iff, toOption_eq_some, Option.pure_def,
    Option.some.injEq, innerRehomeDestination_eq_ok]
  constructor
  · rintro ⟨quoted, hquoted, hqsig, hqall, owner, hrehomes, conditions, hrun, hsig, _, _, rfl,
      ⟨_, _, ⟨hall, hodd, rfl⟩, rfl, rfl⟩, rfl⟩
    obtain ⟨create, hhead, rfl⟩ := Rehomes.head sdk hrehomes
    exact ⟨_, ⟨quoted, hquoted, create, hhead, conditions, hrun, rfl⟩,
      ⟨(unsignedRehome_iff _ _).mp ⟨hqsig, hqall⟩, hrehomes,
        (unsignedRehome_iff _ _).mp ⟨hsig, hall⟩, hodd⟩, rfl⟩
  · rintro ⟨_, ⟨quoted, hquoted, create, hhead, conditions, hrun, rfl⟩,
      ⟨hq, hrehomes, hcs, hodd⟩, rfl⟩
    obtain ⟨hqsig, hqall⟩ := (unsignedRehome_iff _ _).mpr hq
    obtain ⟨hsig, hall⟩ := (unsignedRehome_iff _ _).mpr hcs
    exact ⟨quoted, hquoted, hqsig, hqall, create.puzzleHash, hrehomes, conditions, hrun, hsig, _,
      _, rfl, ⟨_, _, ⟨hall, hodd, rfl⟩, rfl, rfl⟩, rfl⟩

theorem accountNftSpend_posts (spend : CoinSpend) (nft : ParsedNft)
    (puzzlePtr solutionPtr : Node) :
    Accounts sdk (·.tally spend.coin) (nftLeg sdk nft puzzlePtr solutionPtr)
      (accountNftSpend sdk · spend nft puzzlePtr solutionPtr) := by
  unfold accountNftSpend nftLeg
  cases nft.proof with
  | eve => exact accountNftEveMint_posts sdk spend nft puzzlePtr solutionPtr
  | lineage => exact accountNftTransfer_posts sdk spend nft puzzlePtr solutionPtr

/-- The last lines of the launcher arm. -/
theorem recordLaunch_posts (coinId parent : Bytes32) :
    LedgerPosts
      (fun l => .ok { l with
        launcherCoinIds := l.launcherCoinIds ++ [coinId]
        launcherParents := l.launcherParents ++ [parent] })
      (· = { launcherCoinIds := [coinId], launcherParents := [parent] }) := by
  refine Posts.pure _ _ (fun l => ?_) fun l hl => ?_
  · ext1 <;> simp [SpendLedger.toTally]
  · exact ⟨hl.fee, hl.melted, hl.xchIn, hl.xchOut, hl.catIn, hl.catOut⟩

theorem Posts.recordAnnouncements {f : SpendLedger → WalletResult SpendLedger} {R : Tally → Prop}
    (entry : Bytes32 × List Bytes32) (hf : LedgerPosts f R) :
    LedgerPosts (fun l => f { l with launcherAnnouncements := l.launcherAnnouncements ++ [entry] })
      fun d => ∃ b, R b ∧ d = { launcherAnnouncements := [entry] } + b := by
  refine Posts.after _ _ (fun l => ?_) (fun l hl => ?_) hf
  · ext1 <;> simp [SpendLedger.toTally]
  · exact ⟨hl.fee, hl.melted, hl.xchIn, hl.xchOut, hl.catIn, hl.catOut⟩

theorem launchTally_eq (spend : CoinSpend) (conditions : List Condition)
    (entry : Bytes32 × List Bytes32) (coinId parent : Bytes32) :
    ({ launcherAnnouncements := [entry] } : Tally) + (Leg.enterTally spend.coin none +
      (Leg.createsTally sdk none (conditions.filterMap Condition.asCreateCoin) +
        { launcherCoinIds := [coinId], launcherParents := [parent] })) =
    Leg.enterTally spend.coin none +
      (Leg.createsTally sdk none (conditions.filterMap Condition.asCreateCoin) +
        { launcherAnnouncements := [entry], launcherCoinIds := [coinId]
          launcherParents := [parent] }) := by
  rw [createsTally_eq]
  ext1 <;> simp [Leg.enterTally]

theorem accountSingletonLaunch_posts (spend : CoinSpend) (puzzlePtr solutionPtr : Node) :
    Accounts sdk (·.tally spend.coin)
      (do return .launch (← (runConditions sdk puzzlePtr solutionPtr).toOption))
      (accountSingletonLaunch sdk · spend puzzlePtr solutionPtr) := by
  have harm := Posts.read (refuses_runConditions sdk puzzlePtr solutionPtr) fun conditions _ =>
    Posts.guard (refuses_rejectAnyAggSigIn conditions "a singleton launcher spend")
      rejectAnyAggSigIn_eq_ok fun _ =>
      Posts.recordAnnouncements (sdk.coinId spend.coin,
          (conditions.filterMap Condition.asCreateCoinAnnouncement).map
            (sdk.announcementId (sdk.coinId spend.coin)))
        (Posts.bind (fun _ _ => Tally.Fits.left) (enterXch_posts spend.coin)
          (Posts.bind (fun _ _ => Tally.Fits.left)
            (soleOutputLoop_posts sdk singletonLaunchLoop
              (refuses_rejectNonRehomeCondition · .launcher) conditions)
            (recordLaunch_posts (sdk.coinId spend.coin) spend.coin.parentCoinInfo)))
  apply harm.congr
  intro d
  simp only [Option.bind_eq_bind, Option.bind_eq_some_iff, toOption_eq_some, Option.pure_def,
    Option.some.injEq]
  constructor
  · rintro ⟨conditions, hrun, hsig, _, ⟨_, _, rfl, ⟨_, _, ⟨hall, hodd, rfl⟩, rfl, rfl⟩, rfl⟩, rfl⟩
    exact ⟨_, ⟨conditions, hrun, rfl⟩, ⟨(unsignedRehome_iff _ _).mp ⟨hsig, hall⟩, hodd⟩,
      launchTally_eq sdk spend conditions _ _ _⟩
  · rintro ⟨_, ⟨conditions, hrun, rfl⟩, ⟨hcs, hodd⟩, rfl⟩
    obtain ⟨hsig, hall⟩ := (unsignedRehome_iff _ _).mpr hcs
    exact ⟨conditions, hrun, hsig, _, ⟨_, _, rfl, ⟨_, _, ⟨hall, hodd, rfl⟩, rfl, rfl⟩, rfl⟩,
      (launchTally_eq sdk spend conditions _ _ _).symm⟩

theorem melt_forM_eq_ok (conditions : List Condition) (list : MeltConditionList) :
    (conditions.forM fun c => do
      rejectUnexpectedAggSig c
      rejectNonMeltCondition c list) = .ok () ↔
    ∀ c ∈ conditions, isNonMeAggSig c = false ∧ rejectNonMeltCondition c list = .ok () := by
  simp only [forM_eq_ok, guard_bind_eq_ok, rejectUnexpectedAggSig_eq_ok]

theorem refuses_melt_forM (conditions : List Condition) (list : MeltConditionList) :
    Refuses (conditions.forM fun c => do
      rejectUnexpectedAggSig c
      rejectNonMeltCondition c list) :=
  Refuses.forM (fun c => (refuses_rejectUnexpectedAggSig c).bind fun _ =>
    refuses_rejectNonMeltCondition c list) conditions

/-- What the hash search recovers hashes to the committed message. -/
theorem treeHash_findSubtree {target : Bytes32} {node found : Node} {depth : ℕ}
    (h : findSubtreeByTreeHash sdk target node depth = some found) :
    sdk.treeHash found = target := by
  induction node generalizing depth with
  | atom bytes =>
    unfold findSubtreeByTreeHash at h
    split_ifs at h with htarget
    cases h
    exact htarget
  | pair first rest ihfirst ihrest =>
    unfold findSubtreeByTreeHash at h
    split_ifs at h with htarget
    · cases h
      exact htarget
    · rcases Option.or_eq_some_iff.mp h with h | ⟨-, h⟩
      · exact ihfirst h
      · exact ihrest h

variable {sdk} in
theorem find_of_committedMelt {solution : Node} {message : Bytes32}
    {committed : QuotedConditions sdk}
    (h : committedMeltConditions sdk solution message = .ok committed) :
    findSubtreeByTreeHash sdk message solution 0 = some committed.puzzle := by
  unfold committedMeltConditions at h
  split at h
  · cases h
  · cases h
  · rename_i op body hfound
    split_ifs at h with hop
    split at h
    · cases h
      exact hfound
    · cases h

theorem accountSingletonMelt_posts (spend : CoinSpend) (puzzlePtr solutionPtr : Node) :
    Accounts sdk (·.tally spend.coin) (meltLeg sdk puzzlePtr solutionPtr)
      (accountSingletonMelt sdk · spend puzzlePtr solutionPtr) := by
  refine (Posts.read (refuses_runConditions sdk puzzlePtr solutionPtr) fun conditions _ =>
    Posts.guard (refuses_melt_forM conditions .presented) (melt_forM_eq_ok _ _) fun _ =>
      Posts.read (refuses_soleAggSigMeMessage conditions) fun m _ =>
        Posts.read (refuses_committedMeltConditions sdk solutionPtr m) fun committed _ =>
          Posts.guard (refuses_melt_forM committed.conditions .signed) (melt_forM_eq_ok _ _)
            fun _ =>
            Posts.guard (refuses_require
                (committed.conditions.countP (· = .meltSingleton) = 1) _) require_eq_ok fun _ =>
              Posts.bind (fun _ _ => Tally.Fits.left) (enterXch_posts spend.coin)
                (meltCoin_posts sdk spend.coin)).congr fun d => ?_
  unfold meltLeg
  simp only [Option.bind_eq_bind, Option.bind_eq_some_iff, toOption_eq_some, Option.pure_def,
    Option.some.injEq, decide_eq_true_eq]
  have hcreates : ∀ conditions : List Condition,
      (∀ c ∈ conditions, isNonMeAggSig c = false ∧ rejectNonMeltCondition c .presented = .ok ()) →
      conditions.filterMap Condition.asCreateCoin = [] := by
    intro conditions hall
    apply List.filterMap_eq_nil_iff.mpr
    intro c hc
    have hadmit := (hall c hc).2
    cases c <;> first | rfl | cases hadmit
  constructor
  · rintro ⟨conditions, hrun, hall, m, hsole, committed, hcommitted, hsigned, hone, _, _, rfl, rfl,
      rfl⟩
    refine ⟨_, ⟨conditions, hrun, m, hsole, committed, hcommitted, rfl⟩,
      ⟨hall, ?_, hsigned, hone⟩, ?_⟩
    · unfold Leg.Commits
      rw [treeHash_findSubtree sdk (find_of_committedMelt hcommitted)]
      exact hsole
    · simp [Leg.tally, Leg.restTally, Leg.creates, Leg.conditions, hcreates conditions hall,
        Leg.asset?, Leg.factsTally]
  · rintro ⟨_, ⟨conditions, hrun, m, hsole, committed, hcommitted, rfl⟩,
      ⟨hall, -, hsigned, hone⟩, rfl⟩
    refine ⟨conditions, hrun, hall, m, hsole, committed, hcommitted, hsigned, hone, _, _, rfl, rfl,
      ?_⟩
    simp [Leg.tally, Leg.restTally, Leg.creates, Leg.conditions, hcreates conditions hall,
      Leg.asset?, Leg.factsTally]

/-! ## The standard and settlement arms -/

theorem sendTally_eq (spend : CoinSpend) (conditions : List Condition) :
    ({ bindings := [coinBinding sdk spend.coin conditions] } : Tally) +
      (Leg.createsTally sdk none (conditions.filterMap Condition.asCreateCoin) +
        sendFacts (conditions.filterMap Condition.asAssertCoinAnnouncement)
          ((conditions.filterMap Condition.asReserveFee).map UInt64.toNat).sum) =
    Leg.createsTally sdk none (conditions.filterMap Condition.asCreateCoin) +
      { bindings := [coinBinding sdk spend.coin conditions]
        signedAnnouncementAssertions := conditions.filterMap Condition.asAssertCoinAnnouncement
        fee := ((conditions.filterMap Condition.asReserveFee).map UInt64.toNat).sum } := by
  rw [bindings_comm]
  refine congrArg _ ?_
  ext1 <;> simp [sendFacts]

theorem accountStandardSend_posts (spend : CoinSpend) (puzzlePtr solutionPtr : Node) :
    Accounts sdk (·.tally spend.coin)
      (do
        let signed ← signedList sdk solutionPtr
        return .standardSend signed (← (runConditions sdk puzzlePtr solutionPtr).toOption))
      (accountStandardSend sdk · spend puzzlePtr solutionPtr) := by
  have harm := Posts.read (refuses_committedDelegatedPuzzleMessage sdk solutionPtr) fun m _ =>
    Posts.bind (fun _ _ => Tally.Fits.left) (enterXch_posts spend.coin)
      (Posts.read (refuses_runConditions sdk puzzlePtr solutionPtr) fun conditions _ =>
        Posts.guard (refuses_enforceSoleAggSigMe conditions m) enforceSoleAggSigMe_eq_ok fun _ =>
          Posts.recordBinding (coinBinding sdk spend.coin conditions)
            (standardSend_loop_posts sdk conditions))
  apply harm.congr
  intro d
  simp only [Option.bind_eq_bind, Option.bind_eq_some_iff, toOption_eq_some, signedList_eq_some,
    Option.pure_def, Option.some.injEq]
  constructor
  · rintro ⟨m, hm, _, _, rfl, ⟨conditions, hrun, hsole, _, ⟨hsig, rfl⟩, rfl⟩, rfl⟩
    obtain ⟨committed, hcommitted, rfl⟩ := (committedDelegatedPuzzleMessage_eq_ok sdk).mp hm
    exact ⟨_, ⟨_, ⟨committed, hcommitted, rfl⟩, conditions, hrun, rfl⟩, ⟨hsole, hsig⟩,
      congrArg _ (sendTally_eq sdk spend conditions)⟩
  · rintro ⟨_, ⟨_, ⟨committed, hcommitted, rfl⟩, conditions, hrun, rfl⟩, ⟨hsole, hsig⟩, rfl⟩
    exact ⟨_, (committedDelegatedPuzzleMessage_eq_ok sdk).mpr ⟨committed, hcommitted, rfl⟩, _, _,
      rfl, ⟨conditions, hrun, hsole, _, ⟨hsig, rfl⟩, rfl⟩,
      congrArg _ (sendTally_eq sdk spend conditions).symm⟩

theorem accountSettlementClaim_posts (spend : CoinSpend) (puzzlePtr solutionPtr : Node) :
    Accounts sdk (·.tally spend.coin)
      (do return .settlementClaim (← (runConditions sdk puzzlePtr solutionPtr).toOption))
      (accountSettlementClaim sdk · spend puzzlePtr solutionPtr) := by
  have harm := Posts.bind (fun _ _ => Tally.Fits.left) (enterXch_posts spend.coin)
    (Posts.read (refuses_runConditions sdk puzzlePtr solutionPtr) fun conditions _ =>
      Posts.guard (refuses_rejectAnyAggSig conditions) rejectAnyAggSig_eq_ok fun _ =>
        foldlM_route_posts sdk (routeXchCreate_posts sdk)
          (conditions.filterMap Condition.asCreateCoin))
  apply harm.congr
  intro d
  simp only [Option.bind_eq_bind, Option.bind_eq_some_iff, toOption_eq_some, Option.pure_def,
    Option.some.injEq]
  constructor
  · rintro ⟨_, _, rfl, ⟨conditions, hrun, hsig, rfl⟩, rfl⟩
    exact ⟨_, ⟨conditions, hrun, rfl⟩, hsig, congrArg _ (add_zero _).symm⟩
  · rintro ⟨_, ⟨conditions, hrun, rfl⟩, hsig, rfl⟩
    exact ⟨_, _, rfl, ⟨conditions, hrun, hsig, rfl⟩, congrArg _ (add_zero _)⟩

/-! ## Dispatch -/

/-- What the decoding in front of the dispatch comes to: the spend is admitted with this tally iff
its puzzle and solution decode, the puzzle hashes to the coin's, and the leg of the two nodes is
admitted with it. -/
theorem admitted_iff_nodes (spend : CoinSpend) (d : Tally) :
    Admitted sdk spend ∧ d = tallyOf sdk spend ↔
      ∃ puzzlePtr, sdk.nodeFromBytes spend.puzzleReveal = .ok puzzlePtr ∧
        ∃ solutionPtr, sdk.nodeFromBytes spend.solution = .ok solutionPtr ∧
          sdk.treeHash puzzlePtr = spend.coin.puzzleHash ∧
          ∃ leg, legOfNodes sdk spend.coin puzzlePtr solutionPtr = some leg ∧
            leg.Admitted ∧ d = leg.tally spend.coin := by
  unfold Admitted tallyOf legOf
  simp only [Option.bind_eq_bind, Option.bind_eq_some_iff, toOption_eq_some]
  constructor
  · rintro ⟨⟨⟨puzzlePtr, hpuzzle, hhash⟩, leg, ⟨_, hpuzzle', solutionPtr, hsolution, hleg⟩, hadm⟩,
      rfl⟩
    -- the puzzle that was hashed is the one the leg was read from
    obtain rfl := Except.ok.inj (hpuzzle.symm.trans hpuzzle')
    refine ⟨puzzlePtr, hpuzzle, solutionPtr, hsolution, hhash, leg, hleg, hadm, ?_⟩
    simp [Except.toOption, hpuzzle, hsolution, hleg]
  · rintro ⟨puzzlePtr, hpuzzle, solutionPtr, hsolution, hhash, leg, hleg, hadm, rfl⟩
    refine ⟨⟨⟨puzzlePtr, hpuzzle, hhash⟩,
      leg, ⟨puzzlePtr, hpuzzle, solutionPtr, hsolution, hleg⟩, hadm⟩, ?_⟩
    simp [Except.toOption, hpuzzle, hsolution, hleg]

/-- **One coin spend**: it is accounted iff it is admitted and the sums fit. -/
theorem accountCoin_posts (spend : CoinSpend) :
    LedgerPosts (accountCoin sdk · spend)
      fun d => Admitted sdk spend ∧ d = tallyOf sdk spend := by
  -- decode both blobs and compare the puzzle's hash; what is left accounts the leg of the nodes
  suffices harm : ∀ puzzlePtr solutionPtr, Accounts sdk (·.tally spend.coin)
      (legOfNodes sdk spend.coin puzzlePtr solutionPtr) _ from
    (Posts.read (refuses_orReject _ _) fun puzzlePtr _ =>
      Posts.read (refuses_orReject _ _) fun solutionPtr _ =>
        Posts.guard (refuses_require _ _) require_eq_ok fun _ =>
          harm puzzlePtr solutionPtr).congr fun d => by
      simpa only [orReject_eq_ok, decide_eq_true_eq] using (admitted_iff_nodes sdk spend d).symm
  -- the dispatch reads one driver after the other, as `legOfNodes` does, and the first that takes
  -- the coin decides the arm
  intro puzzlePtr solutionPtr
  unfold legOfNodes
  -- a CAT
  apply Accounts.read
  intro cat? _
  cases cat? with
  | some cat => exact accountCatSpend_posts sdk spend cat
  | none =>
  -- an option singleton
  apply Accounts.read
  intro option? _
  cases option? with
  | some inner => exact accountOptionTransfer_posts sdk spend inner.1 inner.2
  | none =>
  -- an option's underlying: exercising it is refused outright
  apply Accounts.read
  intro underlying _
  cases underlying with
  | true => exact Accounts.reject _
  | false =>
  -- a singleton launcher, known by the coin's puzzle hash alone
  by_cases hlauncher : spend.coin.puzzleHash = sdk.singletonLauncherHash
  · simp only [Bool.false_eq_true, if_false, hlauncher, if_true]
    exact accountSingletonLaunch_posts sdk spend puzzlePtr solutionPtr
  simp only [Bool.false_eq_true, if_false, hlauncher]
  -- an NFT, which is a singleton too, so it is asked for before the melt
  apply Accounts.read
  intro nft? _
  cases nft? with
  | some nft => exact accountNftSpend_posts sdk spend nft puzzlePtr solutionPtr
  | none =>
  -- any other singleton can only be melted
  by_cases hsingleton : isSingletonPuzzle sdk (sdk.parsePuzzle puzzlePtr) = true
  · simp only [hsingleton, if_true]
    exact accountSingletonMelt_posts sdk spend puzzlePtr solutionPtr
  simp only [hsingleton]
  -- a standard coin
  apply Accounts.read
  intro standard? _
  cases standard? with
  | some publicKey => exact accountStandardSend_posts sdk spend puzzlePtr solutionPtr
  | none =>
  -- a settlement coin, or nothing the gate knows
  apply Accounts.read
  intro claim _
  cases claim with
  | true => exact accountSettlementClaim_posts sdk spend puzzlePtr solutionPtr
  | false => exact Accounts.reject _

end DigWallet
