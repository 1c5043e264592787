import DigWallet.Lib.Checked
import DigWallet.Verify.Legs

/-!
# DigWallet.Verify.Posting — the accounting arms add tallies

Every arm of `accountCoin`, as a `Checked.Posts`: it accepts exactly when the checks of the coin
spend's leg hold and the sums fit, it then adds the leg's tally, and it refuses with
`spendValidationFailed`.
-/

namespace DigWallet

open Checked

/-- An error of the fail-closed verdict. -/
def IsRefusal (e : WalletError) : Prop := e.code = .spendValidationFailed

/-- A ledger step that adds a tally of `R` or refuses. -/
abbrev LedgerPosts (f : SpendLedger → WalletResult SpendLedger) (R : Tally → Prop) : Prop :=
  Posts SpendLedger.toTally Tally.Fits IsRefusal f R

/-- A computation whose only errors are refusals. -/
def Refuses {α : Type} (c : WalletResult α) : Prop := ∀ e, c = .error e → IsRefusal e

/-! ## Refusals -/

section Refusals

variable {α β : Type}

theorem refuses_ok (a : α) : Refuses (.ok a : WalletResult α) := by rintro e ⟨⟩

theorem refuses_reject (message : String) : Refuses (.error (reject message) : WalletResult α) := by
  rintro e ⟨⟩
  rfl

theorem refuses_require (b : Bool) (message : String) : Refuses (require b message) := by
  unfold require
  split_ifs
  · exact refuses_ok ()
  · exact refuses_reject message

theorem refuses_orReject (what : String) (c : Except String α) : Refuses (orReject what c) := by
  cases c with
  | ok a => exact refuses_ok a
  | error e => exact refuses_reject _

theorem Refuses.bind {c : WalletResult α} {f : α → WalletResult β} (hc : Refuses c)
    (hf : ∀ a, Refuses (f a)) : Refuses (c >>= f) := ErrorsIn.bind hc hf

theorem Refuses.forM {f : α → WalletResult Unit} (hf : ∀ a, Refuses (f a)) (l : List α) :
    Refuses (l.forM f) := ErrorsIn.forM hf l

theorem Refuses.foldlM {f : β → α → WalletResult β} (hf : ∀ b a, Refuses (f b a)) (l : List α)
    (b : β) : Refuses (l.foldlM f b) := ErrorsIn.foldlM hf l b

theorem refuses_rejectUnexpectedAggSig (condition : Condition) :
    Refuses (rejectUnexpectedAggSig condition) := refuses_require _ _

theorem refuses_rejectAnyAggSig (conditions : List Condition) :
    Refuses (rejectAnyAggSig conditions) := refuses_require _ _

theorem refuses_rejectAnyAggSigIn (conditions : List Condition) (what : String) :
    Refuses (rejectAnyAggSigIn conditions what) := refuses_require _ _

theorem refuses_soleAggSigMeMessage (conditions : List Condition) :
    Refuses (soleAggSigMeMessage conditions) := by
  unfold soleAggSigMeMessage
  split
  · exact refuses_reject _
  · split
    · exact refuses_ok _
    · exact refuses_reject _
  · exact refuses_reject _

theorem refuses_enforceSoleAggSigMe (conditions : List Condition) (message : Bytes32) :
    Refuses (enforceSoleAggSigMe conditions message) :=
  (refuses_soleAggSigMeMessage _).bind fun _ => refuses_require _ _

theorem refuses_rejectNonRehomeCondition (condition : Condition) (cls : RehomeClass) :
    Refuses (rejectNonRehomeCondition condition cls) := by
  unfold rejectNonRehomeCondition
  split
  · split <;> first | exact refuses_ok _ | exact refuses_reject _
  · split <;> first | exact refuses_ok _ | exact refuses_reject _
  · exact refuses_ok _
  · exact refuses_require _ _

theorem refuses_rejectNonMeltCondition (condition : Condition) (list : MeltConditionList) :
    Refuses (rejectNonMeltCondition condition list) := by
  unfold rejectNonMeltCondition
  split
  · split <;> first | exact refuses_ok _ | exact refuses_reject _
  · exact refuses_ok _
  · exact refuses_require _ _

theorem refuses_rejectNonTransferCondition (condition : Condition) :
    Refuses (rejectNonTransferCondition condition) := by
  unfold rejectNonTransferCondition
  split <;> first | exact refuses_ok _ | exact refuses_require _ _

section

variable (sdk : Sdk)

theorem refuses_runConditions (puzzle solution : Node) :
    Refuses (runConditions sdk puzzle solution) :=
  (refuses_orReject _ _).bind fun _ => refuses_orReject _ _

theorem refuses_prove (puzzle : Node) (what : String) :
    Refuses (QuotedConditions.prove sdk puzzle what) := by
  unfold QuotedConditions.prove
  split
  · exact refuses_reject _
  · split_ifs
    · split
      · exact refuses_ok _
      · exact refuses_reject _
    · exact refuses_reject _

theorem refuses_committedStandardSpend (solution : Node) :
    Refuses (committedStandardSpend sdk solution) :=
  (refuses_orReject _ _).bind fun _ => (refuses_prove sdk _ _).bind fun _ => refuses_ok _

theorem refuses_committedMeltConditions (solution : Node) (message : Bytes32) :
    Refuses (committedMeltConditions sdk solution message) := by
  unfold committedMeltConditions
  split
  · exact refuses_reject _
  · exact refuses_reject _
  · split_ifs
    · split
      · exact refuses_ok _
      · exact refuses_reject _
    · exact refuses_reject _

theorem refuses_innerRehomeDestination (inner : QuotedConditions sdk) (what : String) :
    Refuses (innerRehomeDestination sdk inner what) := by
  refine (Refuses.foldlM (fun _ _ => ?_) _ _).bind fun destination => ?_
  · exact (refuses_require _ _).bind fun _ => (refuses_require _ _).bind fun _ =>
      (refuses_require _ _).bind fun _ => refuses_ok _
  · cases destination with
    | none => exact refuses_reject _
    | some d => exact refuses_ok d

end

end Refusals

/-! ## Results of the guards -/

theorem require_eq_ok {b : Bool} {message : String} {u : Unit} :
    require b message = .ok u ↔ b = true := by
  cases b <;> simp [require]

theorem orReject_eq_ok {α : Type} {what : String} {c : Except String α} {a : α} :
    orReject what c = .ok a ↔ c = .ok a := by
  cases c <;> simp [orReject]

theorem rejectUnexpectedAggSig_eq_ok {condition : Condition} {u : Unit} :
    rejectUnexpectedAggSig condition = .ok u ↔ isNonMeAggSig condition = false := by
  simp [rejectUnexpectedAggSig, require_eq_ok]

theorem rejectAnyAggSig_eq_ok {conditions : List Condition} {u : Unit} :
    rejectAnyAggSig conditions = .ok u ↔ ∀ c ∈ conditions, isAggSig c = false := by
  simp [rejectAnyAggSig, require_eq_ok]

theorem rejectAnyAggSigIn_eq_ok {conditions : List Condition} {what : String} {u : Unit} :
    rejectAnyAggSigIn conditions what = .ok u ↔ ∀ c ∈ conditions, isAggSig c = false := by
  simp [rejectAnyAggSigIn, require_eq_ok]

theorem enforceSoleAggSigMe_eq_ok {conditions : List Condition} {message : Bytes32} {u : Unit} :
    enforceSoleAggSigMe conditions message = .ok u ↔
      soleAggSigMeMessage conditions = .ok message := by
  simp only [enforceSoleAggSigMe, bind_eq_ok, require_eq_ok, decide_eq_true_eq]
  constructor
  · rintro ⟨m, hm, rfl⟩
    exact hm
  · intro h
    exact ⟨message, h, rfl⟩

/-! ## Checked additions -/

theorem toNat_add_of_lt {a b : UInt64} (h : a.toNat + b.toNat < UInt64.size) :
    (a + b).toNat = a.toNat + b.toNat := by
  rw [UInt64.toNat_add]
  exact Nat.mod_eq_of_lt h

theorem refuses_accumulate (total amount : UInt64) (what : String) :
    Refuses (accumulate total amount what) := by
  unfold accumulate
  split_ifs
  · exact refuses_ok _
  · exact refuses_reject _

theorem accumulate_eq_ok {total amount sum : UInt64} {what : String} :
    accumulate total amount what = .ok sum ↔
      total.toNat + amount.toNat < UInt64.size ∧ sum = total + amount := by
  unfold accumulate
  split_ifs with h
  · simp [h, eq_comm]
  · simp [h]

theorem AssetTotals.get_set (totals : AssetTotals) (asset : Bytes32) (total : UInt64)
    (other : Bytes32) :
    (totals.set asset total).get other = if other = asset then total else totals.get other := by
  induction totals with
  | nil => by_cases h : asset = other <;> simp [AssetTotals.set, AssetTotals.get, h, eq_comm]
  | cons entry totals ih =>
    obtain ⟨key, old⟩ := entry
    unfold AssetTotals.set
    split_ifs <;> simp only [AssetTotals.get, ih] <;> grind

section Additions

variable (sdk : Sdk)

theorem enterXch_posts (coin : Coin) :
    LedgerPosts (enterXch · coin) (· = Leg.enterTally coin none) := by
  refine Posts.checked (fun l => { l with xchIn := l.xchIn + coin.amount })
    (fun l => l.xchIn.toNat + coin.amount.toNat < UInt64.size)
    (fun _ => cannotTotal "XCH input total") (fun l => ?_) (fun l => ?_) (fun l h => ?_)
    (fun _ => rfl)
  · unfold enterXch accumulate
    split_ifs <;> rfl
  · have hl := l.fits_toTally
    refine ⟨fun h => ⟨hl.fee, hl.melted, ?_, hl.xchOut, fun a => ?_, hl.catOut⟩, fun h => ?_⟩
    · simpa [Leg.enterTally, SpendLedger.toTally] using h
    · simpa [Leg.enterTally, SpendLedger.toTally] using hl.catIn a
    · simpa [Leg.enterTally, SpendLedger.toTally] using h.xchIn
  · ext1 <;> simp [Leg.enterTally, SpendLedger.toTally, toNat_add_of_lt h, funext_iff]

/-- The CAT input line of `accountCatSpend`. -/
theorem enterCat_posts (asset : Bytes32) (coin : Coin) :
    LedgerPosts
      (fun l => l.catIn.accumulate asset coin.amount "CAT input total" >>= fun catIn =>
        .ok { l with catIn })
      (· = Leg.enterTally coin (some asset)) := by
  refine Posts.checked
    (fun l => { l with catIn := l.catIn.set asset (l.catIn.get asset + coin.amount) })
    (fun l => (l.catIn.get asset).toNat + coin.amount.toNat < UInt64.size)
    (fun _ => cannotTotal "CAT input total") (fun l => ?_) (fun l => ?_) (fun l h => ?_)
    (fun _ => rfl)
  · unfold AssetTotals.accumulate accumulate
    split_ifs <;> rfl
  · have hl := l.fits_toTally
    refine ⟨fun h => ⟨hl.fee, hl.melted, hl.xchIn, hl.xchOut, fun a => ?_, hl.catOut⟩, fun h => ?_⟩
    · by_cases ha : asset = a
      · subst ha
        simpa [Leg.enterTally, SpendLedger.toTally] using h
      · simpa [Leg.enterTally, SpendLedger.toTally, ha] using hl.catIn a
    · simpa [Leg.enterTally, SpendLedger.toTally] using h.catIn asset
  · ext1 <;> try simp [Leg.enterTally, SpendLedger.toTally]
    funext a
    by_cases ha : a = asset
    · subst ha
      simp [AssetTotals.get_set, toNat_add_of_lt h]
    · simp [AssetTotals.get_set, ha, Ne.symm ha]

theorem toTally_routeOutput (ledger : SpendLedger) (output : DecodedOutput) :
    (routeOutput sdk ledger output).toTally = ledger.toTally +
      { outputs := if isProtocolSinkHash sdk output.puzzleHash then [] else [output]
        protocolSink := if isProtocolSinkHash sdk output.puzzleHash then [output] else [] } := by
  unfold routeOutput
  split_ifs <;> ext1 <;> simp [SpendLedger.toTally]

theorem routeXchCreate_posts (create : CreateCoin) :
    LedgerPosts (routeXchCreate sdk · create) (· = Leg.createTally sdk none create) := by
  refine Posts.checked
    (fun l => routeOutput sdk { l with xchOut := l.xchOut + create.amount }
      ⟨create.puzzleHash, create.amount, none⟩)
    (fun l => l.xchOut.toNat + create.amount.toNat < UInt64.size)
    (fun _ => cannotTotal "XCH output total") (fun l => ?_) (fun l => ?_) (fun l h => ?_)
    (fun _ => rfl)
  · unfold routeXchCreate accumulate
    split_ifs <;> rfl
  · have hl := l.fits_toTally
    refine ⟨fun h => ⟨hl.fee, hl.melted, hl.xchIn, ?_, hl.catIn, fun a => ?_⟩, fun h => ?_⟩
    · simpa [Leg.createTally, SpendLedger.toTally] using h
    · simpa [Leg.createTally, SpendLedger.toTally] using hl.catOut a
    · simpa [Leg.createTally, SpendLedger.toTally] using h.xchOut
  · rw [toTally_routeOutput]
    ext1 <;> simp [Leg.createTally, SpendLedger.toTally, toNat_add_of_lt h, funext_iff]

theorem routeCatCreate_posts (asset : Bytes32) (create : CreateCoin) :
    LedgerPosts (routeCatCreate sdk asset · create)
      (· = Leg.createTally sdk (some asset) create) := by
  refine Posts.checked
    (fun l => routeOutput sdk
      { l with catOut := l.catOut.set asset (l.catOut.get asset + create.amount) }
      ⟨create.puzzleHash, create.amount, some asset⟩)
    (fun l => (l.catOut.get asset).toNat + create.amount.toNat < UInt64.size)
    (fun _ => cannotTotal "CAT output total") (fun l => ?_) (fun l => ?_) (fun l h => ?_)
    (fun _ => rfl)
  · unfold routeCatCreate AssetTotals.accumulate accumulate
    split_ifs <;> rfl
  · have hl := l.fits_toTally
    refine ⟨fun h => ⟨hl.fee, hl.melted, hl.xchIn, hl.xchOut, hl.catIn, fun a => ?_⟩, fun h => ?_⟩
    · by_cases ha : asset = a
      · subst ha
        simpa [Leg.createTally, SpendLedger.toTally] using h
      · simpa [Leg.createTally, SpendLedger.toTally, ha] using hl.catOut a
    · simpa [Leg.createTally, SpendLedger.toTally] using h.catOut asset
  · rw [toTally_routeOutput]
    ext1 <;> try simp [Leg.createTally, SpendLedger.toTally]
    funext a
    by_cases ha : a = asset
    · subst ha
      simp [AssetTotals.get_set, toNat_add_of_lt h]
    · simp [AssetTotals.get_set, ha, Ne.symm ha]

theorem reserveFee_posts (amount : UInt64) :
    LedgerPosts
      (fun l => accumulate l.fee amount "reserved fee total" >>= fun fee => .ok { l with fee })
      (· = { fee := amount.toNat }) := by
  refine Posts.checked (fun l => { l with fee := l.fee + amount })
    (fun l => l.fee.toNat + amount.toNat < UInt64.size)
    (fun _ => cannotTotal "reserved fee total") (fun l => ?_) (fun l => ?_) (fun l h => ?_)
    (fun _ => rfl)
  · unfold accumulate
    split_ifs <;> rfl
  · have hl := l.fits_toTally
    refine ⟨fun h => ⟨?_, hl.melted, hl.xchIn, hl.xchOut, hl.catIn, hl.catOut⟩, fun h => ?_⟩
    · simpa [SpendLedger.toTally] using h
    · simpa [SpendLedger.toTally] using h.fee
  · ext1 <;> simp [SpendLedger.toTally, toNat_add_of_lt h]

/-- The last line of the melt arm: the destroyed mojos and the destroyed coin. -/
theorem meltCoin_posts (coin : Coin) :
    LedgerPosts
      (fun l => accumulate l.melted coin.amount "melted total" >>= fun melted =>
        .ok { l with melted, meltedSingletons := l.meltedSingletons ++ [sdk.coinId coin] })
      (· = { melted := coin.amount.toNat, meltedSingletons := [sdk.coinId coin] }) := by
  refine Posts.checked
    (fun l => { l with
      melted := l.melted + coin.amount
      meltedSingletons := l.meltedSingletons ++ [sdk.coinId coin] })
    (fun l => l.melted.toNat + coin.amount.toNat < UInt64.size)
    (fun _ => cannotTotal "melted total") (fun l => ?_) (fun l => ?_) (fun l h => ?_)
    (fun _ => rfl)
  · unfold accumulate
    split_ifs <;> rfl
  · have hl := l.fits_toTally
    refine ⟨fun h => ⟨hl.fee, ?_, hl.xchIn, hl.xchOut, hl.catIn, hl.catOut⟩, fun h => ?_⟩
    · simpa [SpendLedger.toTally] using h
    · simpa [SpendLedger.toTally] using h.melted
  · ext1 <;> simp [SpendLedger.toTally, toNat_add_of_lt h]

end Additions

end DigWallet
