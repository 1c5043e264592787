import DigWallet.Engine.Build
import DigWallet.Lib.Json
import DigWallet.Signer.Review
import DigWallet.SimOptions
import DigWallet.Verify.Singletons

/-!
# DigWallet.Signer.Transport — the wallet client over the control IPC

`client::transport` and the wire shapes of `types`.  `ipc_faithful`: over a channel that may reorder and
add fields the client is the engine, and what an older engine's summary leaves out the signer holds it
to.
-/

namespace DigWallet

open Wire

/-! ## The wire shapes -/

/-- The wire shapes of other crates' types, `hex::decode`, and what a decoding error displays. -/
structure WireLibs where
  walletId : Codec WalletId
  amount : Codec Amount
  assetId : Codec AssetId
  assetId_present : ∀ assetId' : AssetId, assetId.serialize assetId' ≠ .null
  syncStatus : Codec SyncStatus
  coinSpend : Codec CoinSpend
  publicKey : Codec PublicKey
  hexDecode : String → Except String Bytes
  hexDecode_hexEncode : ∀ bytes, hexDecode (hexEncode bytes) = .ok bytes
  display : JsonError → String

theorem string_ne_null (text : String) : Codec.string.serialize text ≠ .null := nofun

theorem u32_ne_null (n : UInt32) : Codec.u32.serialize n ≠ .null := nofun

def optionalString : Codec (Option String) := .option .string string_ne_null

def optionalHeight : Codec (Option UInt32) := .option .u32 u32_ne_null

namespace WireLibs

variable (wire : WireLibs)

def address : Codec Address := .iso .string .mk Address.text fun _ => rfl

def puzzlehash : Codec Puzzlehash := .iso .string .mk Puzzlehash.text fun _ => rfl

def identityRef : Codec IdentityRef :=
  Fields.record (by decide) <| .iso
    ((Fields.field "wallet_id" wire.walletId).pair ((Fields.field "did" optionalString).pair
      (Fields.field "profile_ix" .u32)))
    (fun (walletId, did, profileIx) => ⟨walletId, did, profileIx⟩)
    (fun identity => (identity.walletId, identity.did, identity.profileIx)) fun _ => rfl

def sendXchRequest : Codec SendXchRequest :=
  Fields.record (by decide) <| .iso
    ((Fields.field "identity" wire.identityRef).pair ((Fields.field "to" address).pair
      ((Fields.field "amount" wire.amount).pair (Fields.field "fee" wire.amount))))
    (fun (identity, toAddress, amount, fee) => ⟨identity, toAddress, amount, fee⟩)
    (fun r => (r.identity, r.toAddress, r.amount, r.fee)) fun _ => rfl

def sendCatRequest : Codec SendCatRequest :=
  Fields.record (by decide) <| .iso
    ((Fields.field "identity" wire.identityRef).pair ((Fields.field "asset_id" wire.assetId).pair
      ((Fields.field "to" address).pair
        ((Fields.field "amount" wire.amount).pair (Fields.field "fee" wire.amount)))))
    (fun (identity, assetId, toAddress, amount, fee) => ⟨identity, assetId, toAddress, amount, fee⟩)
    (fun r => (r.identity, r.assetId, r.toAddress, r.amount, r.fee)) fun _ => rfl

def balance : Codec Balance :=
  Fields.record (by decide) <| .iso
    ((Fields.field "confirmed" wire.amount).pair (Fields.field "spendable" wire.amount))
    (fun (confirmed, spendable) => ⟨confirmed, spendable⟩)
    (fun balance => (balance.confirmed, balance.spendable)) fun _ => rfl

def coinRecord : Codec CoinRecord :=
  Fields.record (by decide) <| .iso
    ((Fields.field "coin_id" .string).pair ((Fields.field "puzzle_hash" puzzlehash).pair
      ((Fields.field "amount" wire.amount).pair
        ((Fields.field "created_height" optionalHeight).pair
          (Fields.field "spent_height" optionalHeight)))))
    (fun (coinId, puzzleHash, amount, createdHeight, spentHeight) =>
      ⟨coinId, puzzleHash, amount, createdHeight, spentHeight⟩)
    (fun coin => (coin.coinId, coin.puzzleHash, coin.amount, coin.createdHeight, coin.spentHeight))
    fun _ => rfl

def catRecord : Codec CatRecord :=
  Fields.record (by decide) <| .iso
    ((Fields.field "asset_id" wire.assetId).pair ((Fields.field "balance" wire.amount).pair
      (Fields.field "name" optionalString)))
    (fun (assetId, balance, name) => ⟨assetId, balance, name⟩)
    (fun cat => (cat.assetId, cat.balance, cat.name)) fun _ => rfl

def spendOutput : Codec SpendOutput :=
  Fields.record (by decide) <| .iso
    ((Fields.field "address" address).pair ((Fields.field "amount" wire.amount).pair
      (Fields.field "asset_id" (.option wire.assetId wire.assetId_present))))
    (fun (address, amount, assetId) => ⟨address, amount, assetId⟩)
    (fun output => (output.address, output.amount, output.assetId)) fun _ => rfl

def summaryFields :
    Fields ["outputs", "received", "fee", "melted_singletons", "nft_operations"] TransactionSummary :=
  .iso
    ((Fields.field "outputs" (.list wire.spendOutput)).pair
      ((Fields.defaulted "received" (.list wire.spendOutput) []).pair
        ((Fields.field "fee" wire.amount).pair
          ((Fields.defaulted "melted_singletons" (.list .string) []).pair
            (Fields.defaulted "nft_operations" (.list .string) [])))))
    (fun (outputs, received, fee, meltedSingletons, nftOperations) =>
      ⟨outputs, received, fee, meltedSingletons, nftOperations⟩)
    (fun summary => (summary.outputs, summary.received, summary.fee, summary.meltedSingletons,
      summary.nftOperations)) fun _ => rfl

def transactionSummary : Codec TransactionSummary := wire.summaryFields.record (by decide)

def recordFields : Fields ["tx_id", "confirmed_height", "summary"] TransactionRecord :=
  .iso
    ((Fields.field "tx_id" .string).pair ((Fields.field "confirmed_height" optionalHeight).pair
      (Fields.field "summary" wire.transactionSummary)))
    (fun (txId, confirmedHeight, summary) => ⟨txId, confirmedHeight, summary⟩)
    (fun record => (record.txId, record.confirmedHeight, record.summary)) fun _ => rfl

def transactionRecord : Codec TransactionRecord := wire.recordFields.record (by decide)

/-- `hex_bytes`. -/
def hexBytes : Codec Bytes := .parsed .string hexEncode wire.hexDecode wire.hexDecode_hexEncode

def requiredSignature : Codec RequiredSignature :=
  Fields.record (by decide) <| .iso
    ((Fields.field "public_key" wire.publicKey).pair (Fields.field "message" wire.hexBytes))
    (fun (publicKey, message) => ⟨publicKey, message⟩)
    (fun required => (required.publicKey, required.message)) fun _ => rfl

def unsignedFields : Fields ["coin_spends", "required_signatures", "summary"] UnsignedSpend :=
  .iso
    ((Fields.field "coin_spends" (.list wire.coinSpend)).pair
      ((Fields.field "required_signatures" (.list wire.requiredSignature)).pair
        (Fields.field "summary" wire.transactionSummary)))
    (fun (coinSpends, requiredSignatures, summary) => ⟨coinSpends, requiredSignatures, summary⟩)
    (fun unsigned => (unsigned.coinSpends, unsigned.requiredSignatures, unsigned.summary)) fun _ => rfl

def unsignedSpend : Codec UnsignedSpend := wire.unsignedFields.record (by decide)

end WireLibs

/-! ## The client -/

structure ControlTransport where
  request : String → Json → WalletResult Json

/-- The trait `WalletClient`. -/
@[ext] structure WalletClient where
  balance : IdentityRef → WalletResult Balance
  coins : IdentityRef → WalletResult (List CoinRecord)
  cats : IdentityRef → WalletResult (List CatRecord)
  history : IdentityRef → WalletResult (List TransactionRecord)
  syncStatus : IdentityRef → WalletResult SyncStatus
  requestSendXch : SendXchRequest → WalletResult UnsignedSpend
  requestSendCat : SendCatRequest → WalletResult UnsignedSpend

namespace IpcWalletClient

variable (wire : WireLibs) (transport : ControlTransport) {P R : Type}

def decodeError (e : JsonError) : WalletError :=
  ⟨.invalidInput, "failed to decode IPC response: " ++ wire.display e⟩

def call (params : Codec P) (result : Codec R) (method : String) (request : P) : WalletResult R := do
  let response ← transport.request method (params.serialize request)
  match result.deserialize response with
  | .ok r => .ok r
  | .error e => .error (decodeError wire e)

/-- `impl WalletClient for IpcWalletClient`. -/
def client : WalletClient where
  balance := call wire transport wire.identityRef wire.balance "wallet.balance"
  coins := call wire transport wire.identityRef (.list wire.coinRecord) "wallet.coins"
  cats := call wire transport wire.identityRef (.list wire.catRecord) "wallet.cats"
  history := call wire transport wire.identityRef (.list wire.transactionRecord) "wallet.history"
  syncStatus := call wire transport wire.identityRef wire.syncStatus "wallet.sync_status"
  requestSendXch :=
    call wire transport wire.sendXchRequest wire.unsignedSpend "wallet.request_send_xch"
  requestSendCat :=
    call wire transport wire.sendCatRequest wire.unsignedSpend "wallet.request_send_cat"

end IpcWalletClient

/-! ## What an engine's summaries lack -/

/-- The fields of a summary that an older engine may not write. -/
def additive : List String := ["received", "melted_singletons", "nft_operations"]

def TransactionSummary.without (lacking : List String) (summary : TransactionSummary) :
    TransactionSummary :=
  { summary with
    received := if "received" ∈ lacking then [] else summary.received
    meltedSingletons := if "melted_singletons" ∈ lacking then [] else summary.meltedSingletons
    nftOperations := if "nft_operations" ∈ lacking then [] else summary.nftOperations }

def TransactionRecord.without (lacking : List String) (record : TransactionRecord) :
    TransactionRecord :=
  { record with summary := record.summary.without lacking }

def UnsignedSpend.without (lacking : List String) (unsigned : UnsignedSpend) : UnsignedSpend :=
  { unsigned with summary := unsigned.summary.without lacking }

/-- The engine as a client of this version sees it when its summaries lack those fields. -/
def WalletClient.without (lacking : List String) (engine : WalletClient) : WalletClient :=
  { engine with
    history := fun identity => (engine.history identity).map (List.map (.without lacking))
    requestSendXch := fun request => (engine.requestSendXch request).map (.without lacking)
    requestSendCat := fun request => (engine.requestSendCat request).map (.without lacking) }

theorem TransactionSummary.without_nil (summary : TransactionSummary) : summary.without [] = summary :=
  rfl

theorem WalletClient.without_nil (engine : WalletClient) : engine.without [] = engine := by
  have hrecords : ∀ records : List TransactionRecord, records.map (.without []) = records :=
    fun records => List.map_id records
  apply WalletClient.ext
  · rfl
  · rfl
  · rfl
  · funext identity
    show (engine.history identity).map _ = engine.history identity
    cases engine.history identity with
    | ok records => exact congrArg Except.ok (hrecords records)
    | error e => rfl
  · rfl
  · funext request
    show (engine.requestSendXch request).map _ = engine.requestSendXch request
    cases engine.requestSendXch request <;> rfl
  · funext request
    show (engine.requestSendCat request).map _ = engine.requestSendCat request
    cases engine.requestSendCat request <;> rfl

section

variable (wire : WireLibs) (lacking : List String)

/-- The JSON of `summary` without those fields, extended or not. -/
inductive WrittenSummary (summary : TransactionSummary) : Json → Prop
  | mk {fields} (h : Finds lacking (wire.summaryFields.write summary) fun name => fields.lookup name) :
      WrittenSummary summary (.object fields)

inductive WrittenRecord (record : TransactionRecord) : Json → Prop
  | mk {fields txId confirmedHeight summary}
      (htxId : fields.lookup "tx_id" = some txId)
      (htxIdExtends : Extends (Codec.string.serialize record.txId) txId)
      (hheight : fields.lookup "confirmed_height" = some confirmedHeight)
      (hheightExtends : Extends (optionalHeight.serialize record.confirmedHeight) confirmedHeight)
      (hsummary : fields.lookup "summary" = some summary)
      (hwritten : WrittenSummary wire lacking record.summary summary) :
      WrittenRecord record (.object fields)

inductive WrittenSpend (unsigned : UnsignedSpend) : Json → Prop
  | mk {fields coinSpends requiredSignatures summary}
      (hspends : fields.lookup "coin_spends" = some coinSpends)
      (hspendsExtends :
        Extends ((Codec.list wire.coinSpend).serialize unsigned.coinSpends) coinSpends)
      (hrequired : fields.lookup "required_signatures" = some requiredSignatures)
      (hrequiredExtends : Extends ((Codec.list wire.requiredSignature).serialize
        unsigned.requiredSignatures) requiredSignatures)
      (hsummary : fields.lookup "summary" = some summary)
      (hwritten : WrittenSummary wire lacking unsigned.summary summary) :
      WrittenSpend unsigned (.object fields)

inductive WrittenHistory (records : List TransactionRecord) : Json → Prop
  | mk {items} (h : List.Forall₂ (WrittenRecord wire lacking) records items) :
      WrittenHistory records (.array items)

end

section

variable {wire : WireLibs} {lacking : List String} {j : Json}

theorem mem_summaryFields_additive {name : String} (h : name ∈ additive) :
    name ∈ wire.summaryFields.additive := by
  show name ∈ [] ++ (["received"] ++ (_ ++ (["melted_singletons"] ++ ["nft_operations"])))
  rw [additive, List.mem_cons, List.mem_cons] at h
  rcases h with rfl | rfl | h
  · simp
  · simp
  · exact List.mem_append_right _ (List.mem_append_right _ (List.mem_append_right _
      (List.mem_append_right _ h)))

theorem WrittenSummary.read {summary : TransactionSummary} (h : WrittenSummary wire lacking summary j)
    (hlacking : ∀ name ∈ lacking, name ∈ additive) :
    wire.transactionSummary.deserialize j = .ok (summary.without lacking) := by
  obtain ⟨h⟩ := h
  have hread := Fields.record_without (f := wire.summaryFields) (by decide)
    (fun name hname => mem_summaryFields_additive (hlacking name hname)) h
  have houtputs : "outputs" ∉ lacking := fun h => absurd (hlacking _ h) (by decide)
  have hfee : "fee" ∉ lacking := fun h => absurd (hlacking _ h) (by decide)
  refine hread.trans (congrArg Except.ok ?_)
  show TransactionSummary.mk (if "outputs" ∈ lacking then _ else summary.outputs) _
    (if "fee" ∈ lacking then _ else summary.fee) _ _ = _
  rw [if_neg houtputs, if_neg hfee]
  rfl

theorem WrittenRecord.read {record : TransactionRecord} (h : WrittenRecord wire lacking record j)
    (hlacking : ∀ name ∈ lacking, name ∈ additive) :
    wire.transactionRecord.deserialize j = .ok (record.without lacking) := by
  obtain @⟨fields, txId, confirmedHeight, summary, htxId, htxIdExtends, hheight, hheightExtends,
    hsummary, hwritten⟩ := h
  show (wire.recordFields.read fun name => fields.lookup name) = _
  unfold WireLibs.recordFields
  refine Fields.iso_read (Fields.pair_read (Fields.member_read htxId ?_)
    (Fields.pair_read (Fields.member_read hheight ?_)
      (Fields.member_read hsummary (hwritten.read hlacking))))
  · exact Codec.string.accepts htxIdExtends
  · exact optionalHeight.accepts hheightExtends

theorem WrittenHistory.read {records : List TransactionRecord}
    (h : WrittenHistory wire lacking records j) (hlacking : ∀ name ∈ lacking, name ∈ additive) :
    (Codec.list wire.transactionRecord).deserialize j = .ok (records.map (.without lacking)) := by
  obtain ⟨h⟩ := h
  refine mapM_eq_ok.mpr ?_
  rw [List.forall₂_map_right_iff]
  exact (h.imp fun record item hitem => hitem.read hlacking).flip

theorem WrittenSpend.read {unsigned : UnsignedSpend} (h : WrittenSpend wire lacking unsigned j)
    (hlacking : ∀ name ∈ lacking, name ∈ additive) :
    wire.unsignedSpend.deserialize j = .ok (unsigned.without lacking) := by
  obtain @⟨fields, coinSpends, requiredSignatures, summary, hspends, hspendsExtends, hrequired,
    hrequiredExtends, hsummary, hwritten⟩ := h
  show (wire.unsignedFields.read fun name => fields.lookup name) = _
  unfold WireLibs.unsignedFields
  refine Fields.iso_read (Fields.pair_read (Fields.member_read hspends ?_)
    (Fields.pair_read (Fields.member_read hrequired ?_)
      (Fields.member_read hsummary (hwritten.read hlacking))))
  · exact (Codec.list wire.coinSpend).accepts hspendsExtends
  · exact (Codec.list wire.requiredSignature).accepts hrequiredExtends

end

/-! ## Channels -/

namespace IpcWalletClient

/-- What a channel hands back of an engine's answer: its JSON, or the error itself. -/
inductive Returns {R : Type} (written : R → Json → Prop) : WalletResult R → WalletResult Json → Prop
  | ok {r j} (h : written r j) : Returns written (.ok r) (.ok j)
  | error (e) : Returns written (.error e) (.error e)

variable {P R : Type}

/-- The engine reads the request from some extension of what was sent, and its answer is returned. -/
def Serves (transport : ControlTransport) (params : Codec P) (written : R → Json → Prop)
    (method : String) (engine : P → WalletResult R) : Prop :=
  ∀ request, ∃ j, Extends (params.serialize request) j ∧ ∀ received,
    params.deserialize j = .ok received →
    Returns written (engine received) (transport.request method (params.serialize request))

/-- A channel to `engine`, whose summaries lack the fields `lacking`. -/
structure Connects (wire : WireLibs) (transport : ControlTransport) (lacking : List String)
    (engine : WalletClient) : Prop where
  balance : Serves transport wire.identityRef (fun r => Extends (wire.balance.serialize r))
    "wallet.balance" engine.balance
  coins : Serves transport wire.identityRef
    (fun r => Extends ((Codec.list wire.coinRecord).serialize r)) "wallet.coins" engine.coins
  cats : Serves transport wire.identityRef
    (fun r => Extends ((Codec.list wire.catRecord).serialize r)) "wallet.cats" engine.cats
  history : Serves transport wire.identityRef (WrittenHistory wire lacking) "wallet.history"
    engine.history
  syncStatus : Serves transport wire.identityRef (fun r => Extends (wire.syncStatus.serialize r))
    "wallet.sync_status" engine.syncStatus
  requestSendXch : Serves transport wire.sendXchRequest (WrittenSpend wire lacking)
    "wallet.request_send_xch" engine.requestSendXch
  requestSendCat : Serves transport wire.sendCatRequest (WrittenSpend wire lacking)
    "wallet.request_send_cat" engine.requestSendCat

variable {wire : WireLibs} {transport : ControlTransport} {lacking : List String}

theorem call_serves {params : Codec P} {result : Codec R} {written : R → Json → Prop} {view : R → R}
    {method : String} {engine : P → WalletResult R}
    (hread : ∀ {r j}, written r j → result.deserialize j = .ok (view r))
    (h : Serves transport params written method engine) :
    call wire transport params result method = fun request => (engine request).map view := by
  funext request
  obtain ⟨j, hextends, hanswer⟩ := h request
  have hreturns := hanswer request (params.accepts hextends)
  unfold call
  generalize transport.request method (params.serialize request) = response at hreturns
  generalize engine request = answer at hreturns
  cases hreturns with
  | @ok r j h =>
    show (match result.deserialize j with
      | .ok r => .ok r
      | .error e => .error (decodeError wire e) : WalletResult R) = .ok (view r)
    rw [hread h]
  | error e => rfl

theorem call_extends {params : Codec P} {result : Codec R} {method : String}
    {engine : P → WalletResult R}
    (h : Serves transport params (fun r => Extends (result.serialize r)) method engine) :
    call wire transport params result method = engine := by
  have hcall : call wire transport params result method = fun request => (engine request).map id :=
    call_serves result.accepts h
  rw [hcall]
  funext request
  cases engine request <;> rfl

theorem client_eq_without {engine : WalletClient} (hlacking : ∀ name ∈ lacking, name ∈ additive)
    (h : Connects wire transport lacking engine) :
    client wire transport = engine.without lacking := by
  apply WalletClient.ext
  · exact call_extends h.balance
  · exact call_extends h.coins
  · exact call_extends h.cats
  · exact call_serves (fun hwritten => hwritten.read hlacking) h.history
  · exact call_extends h.syncStatus
  · exact call_serves (fun hwritten => hwritten.read hlacking) h.requestSendXch
  · exact call_serves (fun hwritten => hwritten.read hlacking) h.requestSendCat

end IpcWalletClient

/-! ## The signer's gate -/

section

variable {sdk : Sdk} {signer : LocalSigner} {lacking : List String} {unsigned : UnsignedSpend}

/-- Nothing the summary leaves out happens. -/
theorem verifyBeforeSigning_without
    (h : verifyBeforeSigning sdk signer (unsigned.without lacking) = .ok ()) :
    ∃ effect, analyze sdk unsigned.coinSpends = .ok effect ∧
      ("melted_singletons" ∈ lacking → effect.meltedSingletons = []) ∧
      ("nft_operations" ∈ lacking → effect.nftOperations = []) := by
  obtain ⟨effect, heffect, hmatches⟩ := verifyBeforeSigning_eq_ok.mp h
  obtain ⟨-, hmelts, ⟨sentences, hsentences, hnfts⟩, -, -⟩ :=
    assertReviewedSummaryMatches_eq_ok.mp hmatches
  refine ⟨effect, heffect, fun hmember => ?_, fun hmember => ?_⟩
  · have hclaimed : (unsigned.without lacking).summary.meltedSingletons = [] := if_pos hmember
    rw [hclaimed, List.map_nil] at hmelts
    exact List.map_eq_nil_iff.mp hmelts.eq_nil
  · have hclaimed : (unsigned.without lacking).summary.nftOperations = [] := if_pos hmember
    rw [hclaimed] at hnfts
    have hlength := (mapM_eq_ok.mp hsentences).length_eq
    rw [hnfts.eq_nil] at hlength
    exact List.eq_nil_of_length_eq_zero hlength

/-- A summary the signer accepts in full it accepts without those fields exactly if they are empty. -/
theorem verifyBeforeSigning_without_iff (h : verifyBeforeSigning sdk signer unsigned = .ok ()) :
    verifyBeforeSigning sdk signer (unsigned.without lacking) = .ok () ↔
      ("melted_singletons" ∈ lacking → unsigned.summary.meltedSingletons = []) ∧
      ("nft_operations" ∈ lacking → unsigned.summary.nftOperations = []) := by
  obtain ⟨effect, heffect, hmatches⟩ := verifyBeforeSigning_eq_ok.mp h
  obtain ⟨hfee, hmelts, ⟨sentences, hsentences, hnfts⟩, hrecipients, hsinks⟩ :=
    assertReviewedSummaryMatches_eq_ok.mp hmatches
  constructor
  · intro hwithout
    obtain ⟨effect', heffect', hnoMelts, hnoNfts⟩ := verifyBeforeSigning_without hwithout
    obtain rfl : effect = effect' := Except.ok.inj (heffect.symm.trans heffect')
    refine ⟨fun hmember => ?_, fun hmember => ?_⟩
    · have hmelts : (effect.meltedSingletons.map fun coinId => hexEncode coinId.bytes).Perm
        (unsigned.summary.meltedSingletons.map normalizeMelt) := hmelts
      rw [hnoMelts hmember, List.map_nil] at hmelts
      exact List.map_eq_nil_iff.mp hmelts.symm.eq_nil
    · have hsentences : effect.nftOperations.mapM (NftOperation.describe sdk) = .ok sentences :=
        hsentences
      rw [hnoNfts hmember] at hsentences
      obtain rfl : [] = sentences := Except.ok.inj hsentences
      exact hnfts.symm.eq_nil
  · rintro ⟨hmelted, hoperations⟩
    have hsameMelts : (if "melted_singletons" ∈ lacking then [] else
        unsigned.summary.meltedSingletons) = unsigned.summary.meltedSingletons := by
      split_ifs with hmember
      · exact (hmelted hmember).symm
      · rfl
    have hsameNfts : (if "nft_operations" ∈ lacking then [] else unsigned.summary.nftOperations) =
        unsigned.summary.nftOperations := by
      split_ifs with hmember
      · exact (hoperations hmember).symm
      · rfl
    refine verifyBeforeSigning_eq_ok.mpr ⟨effect, heffect, assertReviewedSummaryMatches_eq_ok.mpr ?_⟩
    refine ⟨hfee, ?_, ⟨sentences, hsentences, ?_⟩, hrecipients, hsinks⟩
    · show List.Perm _ (List.map normalizeMelt (if _ then _ else _))
      rw [hsameMelts]
      exact hmelts
    · show sentences.Perm (if _ then _ else _)
      rw [hsameNfts]
      exact hnfts

end

/-- Over any channel the client is the engine, less what its summaries lack, and the signer holds a
spend to having none of that. -/
theorem ipc_faithful (wire : WireLibs) (transport : ControlTransport) (engine : WalletClient)
    (lacking : List String) (hlacking : ∀ name ∈ lacking, name ∈ additive)
    (hconnects : IpcWalletClient.Connects wire transport lacking engine) :
    IpcWalletClient.client wire transport = engine.without lacking ∧
      (lacking = [] → IpcWalletClient.client wire transport = engine) ∧
      ∀ (sdk : Sdk) (signer : LocalSigner) (unsigned : UnsignedSpend),
        (verifyBeforeSigning sdk signer (unsigned.without lacking) = .ok () →
          ∃ effect, analyze sdk unsigned.coinSpends = .ok effect ∧
            ("melted_singletons" ∈ lacking → effect.meltedSingletons = []) ∧
            ("nft_operations" ∈ lacking → effect.nftOperations = [])) ∧
        (verifyBeforeSigning sdk signer unsigned = .ok () →
          (verifyBeforeSigning sdk signer (unsigned.without lacking) = .ok () ↔
            ("melted_singletons" ∈ lacking → unsigned.summary.meltedSingletons = []) ∧
            ("nft_operations" ∈ lacking → unsigned.summary.nftOperations = []))) := by
  have hclient := IpcWalletClient.client_eq_without hlacking hconnects
  refine ⟨hclient, ?_, fun sdk signer unsigned =>
    ⟨verifyBeforeSigning_without, verifyBeforeSigning_without_iff⟩⟩
  rintro rfl
  rw [hclient, WalletClient.without_nil]

section Witness

open Sim

namespace Sim

/-- Bytes under `0x`. -/
def prefixed : Codec Bytes :=
  .parsed .string (fun bytes => "0x" ++ hexEncode bytes)
    (fun text =>
      match text.toList with
      | '0' :: 'x' :: chars => hexPairs chars
      | _ => .error "missing 0x")
    fun bytes => by
      have hchars : ("0x" ++ hexEncode bytes).toList = '0' :: 'x' :: hexChars bytes := by
        simp [hexEncode]
      rw [hchars]
      exact hexPairs_hexChars bytes

def hash : Codec Bytes32 :=
  .parsed prefixed Bytes32.bytes
    (fun bytes => if h : bytes.length = 32 then .ok ⟨bytes, h⟩ else .error "expected 32 bytes")
    fun hash => dif_pos hash.size

/-- An amount is a string of digits. -/
def amount : Codec Amount :=
  .parsed .string (fun amount => String.ofList (Nat.toDigits 10 amount.mojos.toNat))
    (fun text =>
      if Nat.ofDigitChars 10 text.toList 0 < 2 ^ 64 then
        .ok ⟨.ofNat (Nat.ofDigitChars 10 text.toList 0)⟩
      else .error "amount overflows u64")
    fun amount => by
      rw [String.toList_ofList, Nat.ofDigitChars_toDigits (by decide) (by decide),
        if_pos amount.mojos.toNat_lt, UInt64.ofNat_toNat]

def coin : Codec Coin :=
  Fields.record (by decide) <| .iso
    ((Fields.field "parent_coin_info" hash).pair ((Fields.field "puzzle_hash" hash).pair
      (Fields.field "amount" .u64)))
    (fun (parentCoinInfo, puzzleHash, amount) => ⟨parentCoinInfo, puzzleHash, amount⟩)
    (fun coin => (coin.parentCoinInfo, coin.puzzleHash, coin.amount)) fun _ => rfl

def coinSpend : Codec CoinSpend :=
  Fields.record (by decide) <| .iso
    ((Fields.field "coin" coin).pair ((Fields.field "puzzle_reveal" prefixed).pair
      (Fields.field "solution" prefixed)))
    (fun (coin, puzzleReveal, solution) => ⟨coin, puzzleReveal, solution⟩)
    (fun spend => (spend.coin, spend.puzzleReveal, spend.solution)) fun _ => rfl

def lifecycle : Codec SyncLifecycle :=
  .parsed .string
    (fun
      | .idle => "idle"
      | .syncing => "syncing"
      | .synced => "synced")
    (fun text =>
      if text = "idle" then .ok .idle
      else if text = "syncing" then .ok .syncing
      else if text = "synced" then .ok .synced
      else .error "unknown variant")
    fun state => by cases state <;> rfl

def syncStatus : Codec SyncStatus :=
  Fields.record (by decide) <| .iso
    ((Fields.field "state" lifecycle).pair ((Fields.field "peak_height" .u32).pair
      (Fields.field "target_height" .u32)))
    (fun (state, peakHeight, targetHeight) => ⟨state, peakHeight, targetHeight⟩)
    (fun status => (status.state, status.peakHeight, status.targetHeight)) fun _ => rfl

def wire : WireLibs where
  walletId := .iso .u32 .mk WalletId.fingerprint fun _ => rfl
  amount := amount
  assetId := .iso .string .mk AssetId.text fun _ => rfl
  assetId_present _ := nofun
  syncStatus := syncStatus
  coinSpend := coinSpend
  publicKey := .iso prefixed .mk PublicKey.bytes fun _ => rfl
  hexDecode := hexDecode
  hexDecode_hexEncode := hexDecode_hexEncode
  display _ := "invalid type"

end Sim

/-- A melt as the engine reports it. -/
def reviewedMelt : UnsignedSpend :=
  ⟨[meltSpend 1], [], ⟨[], [], ⟨1⟩, [hexEncode (coinId (meltSpend 1).coin).bytes], []⟩⟩

def unavailable {α : Type} : WalletResult α := .error ⟨.notImplemented, "not served"⟩

/-- An engine that only melts. -/
def melter : WalletClient where
  balance _ := unavailable
  coins _ := unavailable
  cats _ := unavailable
  history _ := unavailable
  syncStatus _ := unavailable
  requestSendXch _ := .ok reviewedMelt
  requestSendCat _ := unavailable

/-- The melt from an engine that does not name melts. -/
def olderMelt : Json :=
  .object [("summary", .object [("fee", .string "1"), ("outputs", .array [])]),
    ("coin_spends", (Codec.list coinSpend).serialize [meltSpend 1]),
    ("required_signatures", .array []), ("built_by", .string "an older engine")]

def olderChannel : ControlTransport where
  request method _ := if method = "wallet.request_send_xch" then .ok olderMelt else unavailable

theorem writtenSpend_olderMelt : WrittenSpend Sim.wire additive reviewedMelt olderMelt := by
  refine .mk rfl (.refl _) rfl (.refl _) rfl (.mk fun name v hv => ?_)
  have hname : name ∈ ["outputs", "received", "fee", "melted_singletons", "nft_operations"] := by
    rw [← Sim.wire.summaryFields.written reviewedMelt.summary, ← lookup_isSome, hv]
    rfl
  simp only [List.mem_cons, List.not_mem_nil, or_false] at hname
  rcases hname with rfl | rfl | rfl | rfl | rfl
  · cases hv
    exact ⟨_, rfl, .refl _⟩
  · rfl
  · cases hv
    exact ⟨_, rfl, .refl _⟩
  · rfl
  · rfl

theorem serves_unavailable {P R : Type} (params : Codec P) (written : R → Json → Prop)
    {method : String} (hmethod : method ≠ "wallet.request_send_xch") :
    IpcWalletClient.Serves olderChannel params written method fun _ => unavailable := by
  intro request
  refine ⟨_, .refl _, fun received _ => ?_⟩
  show IpcWalletClient.Returns written unavailable (if _ then _ else _)
  rw [if_neg hmethod]
  exact .error _

theorem connects_olderChannel : IpcWalletClient.Connects Sim.wire olderChannel additive melter where
  balance := serves_unavailable _ _ (by decide)
  coins := serves_unavailable _ _ (by decide)
  cats := serves_unavailable _ _ (by decide)
  history := serves_unavailable _ _ (by decide)
  syncStatus := serves_unavailable _ _ (by decide)
  requestSendXch _ := ⟨_, .refl _, fun _ _ => .ok writtenSpend_olderMelt⟩
  requestSendCat := serves_unavailable _ _ (by decide)

set_option maxRecDepth 8000 in
theorem verifyBeforeSigning_reviewedMelt : verifyBeforeSigning sim wallet reviewedMelt = .ok () := rfl

theorem ipc_faithful_olderMelt :
    IpcWalletClient.client Sim.wire olderChannel = melter.without additive ∧
      verifyBeforeSigning sim wallet (reviewedMelt.without additive) ≠ .ok () := by
  have hfaithful := ipc_faithful Sim.wire olderChannel melter additive (fun _ h => h)
    connects_olderChannel
  refine ⟨hfaithful.1, fun hverified => ?_⟩
  have hheld :=
    ((hfaithful.2.2 sim wallet reviewedMelt).2 verifyBeforeSigning_reviewedMelt).mp hverified
  exact absurd (hheld.1 (by decide)) nofun

end Witness

end DigWallet
