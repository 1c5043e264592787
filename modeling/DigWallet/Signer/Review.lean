import DigWallet.Signer.Gate
import DigWallet.SimLaws
import DigWallet.Verify.Conservation

/-!
# DigWallet.Signer.Review — the gate accepts exactly the key-aware review

`gate_is_review`: under bech32m round trips the gate accepts a summary iff the bundle is accepted and
the summary agrees with the one `reviewableSummary` renders.
-/

namespace DigWallet

open Sorting

/-! ## Hex text is its own normal form -/

theorem hexDigit_normal : ∀ n < 16, (hexDigit n).toLower = hexDigit n ∧ hexDigit n ≠ 'x' := by
  decide

theorem hexChars_normal (bytes : Bytes) : lowercase (hexChars bytes) = hexChars bytes := by
  induction bytes with
  | nil => rfl
  | cons b bytes ih =>
    have hb := b.toNat_lt
    have hhigh := (hexDigit_normal (b.toNat / 16) (by omega)).1
    have hlow := (hexDigit_normal (b.toNat % 16) (by omega)).1
    simp only [lowercase, hexChars, List.map_cons, hhigh, hlow] at ih ⊢
    rw [ih]

theorem stripHexPrefix_hexChars (bytes : Bytes) : stripHexPrefix (hexChars bytes) = hexChars bytes := by
  cases bytes with
  | nil => rfl
  | cons b bytes =>
    have hlow := (hexDigit_normal (b.toNat % 16) (by omega)).2
    unfold stripHexPrefix hexChars
    split
    · rename_i heq
      simp only [List.cons.injEq] at heq
      exact absurd heq.2.1 hlow
    · rfl

theorem trimHexPrefixes_hexChars (bytes : Bytes) :
    trimHexPrefixes (hexChars bytes) = hexChars bytes := by
  cases bytes with
  | nil => rfl
  | cons b bytes =>
    have hlow := (hexDigit_normal (b.toNat % 16) (by omega)).2
    unfold trimHexPrefixes hexChars
    split
    · rename_i heq
      simp only [List.cons.injEq] at heq
      exact absurd heq.2.1 hlow
    · rfl

@[simp] theorem normalizeAsset_hexEncode (bytes : Bytes) :
    normalizeAsset ⟨hexEncode bytes⟩ = hexEncode bytes := by
  simp [normalizeAsset, hexEncode, stripHexPrefix_hexChars, hexChars_normal]

@[simp] theorem normalizeMelt_hexEncode (bytes : Bytes) :
    normalizeMelt (hexEncode bytes) = hexEncode bytes := by
  simp [normalizeMelt, hexEncode, trimHexPrefixes_hexChars, hexChars_normal]

/-! ## Agreement -/

section

variable (sdk : Sdk)

/-- What the review compares of an addressed output. -/
def addressedKey (output : SpendOutput) : Option Bytes32 × UInt64 × Option String :=
  ((sdk.decodeAddress output.address.text).toOption, output.amount.mojos,
    output.assetId.map normalizeAsset)

def addressedKeys (summary : TransactionSummary) : List (Option Bytes32 × UInt64 × Option String) :=
  (summary.outputs.filter fun output => !output.isProtocolSink).map (addressedKey sdk)

/-- What the review compares of an output with an empty address. -/
def sinkKeys (summary : TransactionSummary) : List (UInt64 × Option String) :=
  (summary.outputs.filter SpendOutput.isProtocolSink).map fun output =>
    (output.amount.mojos, output.assetId.map normalizeAsset)

/-- The two summaries say the same to the reader; `received` is not compared. -/
structure Agrees (claimed rendered : TransactionSummary) : Prop where
  fee : claimed.fee = rendered.fee
  addressed : (addressedKeys sdk claimed).Perm (addressedKeys sdk rendered)
  sinks : (sinkKeys claimed).Perm (sinkKeys rendered)
  melts : (claimed.meltedSingletons.map normalizeMelt).Perm
    (rendered.meltedSingletons.map normalizeMelt)
  nfts : claimed.nftOperations.Perm rendered.nftOperations

end

section Gate

variable {sdk : Sdk} {signer : LocalSigner}

/-! ## The comparison, over multisets -/

theorem assertReviewedSummaryMatches_eq_ok {claimed : TransactionSummary} {split : OwnedSplit} :
    assertReviewedSummaryMatches sdk claimed split = .ok () ↔
      claimed.fee.mojos = split.fee ∧
      (split.meltedSingletons.map fun coinId => hexEncode coinId.bytes).Perm
        (claimed.meltedSingletons.map normalizeMelt) ∧
      (∃ sentences, split.nftOperations.mapM (NftOperation.describe sdk) = .ok sentences ∧
        sentences.Perm claimed.nftOperations) ∧
      (∃ reviewed, (claimed.outputs.filter fun output => !output.isProtocolSink).mapM
          (reviewedRecipient sdk) = .ok reviewed ∧
        (split.recipients.map derivedRecipient).Perm reviewed) ∧
      ((split.protocolSink.filter fun output => 0 < output.amount).map derivedSink).Perm
        ((claimed.outputs.filter SpendOutput.isProtocolSink).map reviewedSink) := by
  unfold assertReviewedSummaryMatches
  simp only [bind_eq_ok, Unique.exists_iff, require_eq_ok, decide_eq_true_eq, sort_eq_iff]
  constructor
  · rintro ⟨hfee, hmelts, sentences, hsentences, hnfts, reviewed, hreviewed, hrecipients, hsinks⟩
    exact ⟨hfee, hmelts, ⟨sentences, hsentences, hnfts⟩, ⟨reviewed, hreviewed, hrecipients⟩, hsinks⟩
  · rintro ⟨hfee, hmelts, ⟨sentences, hsentences, hnfts⟩, ⟨reviewed, hreviewed, hrecipients⟩, hsinks⟩
    exact ⟨hfee, hmelts, sentences, hsentences, hnfts, reviewed, hreviewed, hrecipients, hsinks⟩

/-- The gate: `analyze` accepts and the summary matches the split. -/
theorem verifyBeforeSigning_eq_ok {unsigned : UnsignedSpend} :
    verifyBeforeSigning sdk signer unsigned = .ok () ↔
      ∃ effect, analyze sdk unsigned.coinSpends = .ok effect ∧
        assertReviewedSummaryMatches sdk unsigned.summary
          (reclassifyByOwnership sdk signer effect) = .ok () := by
  unfold verifyBeforeSigning
  simp only [bind_eq_ok, Unique.exists_iff, forM_eq_ok, require_eq_ok]
  refine exists_congr fun effect => and_congr_right fun heffect => and_iff_right ?_
  intro output ho
  have h := ((analyze_eq_ok sdk).mp heffect).protocolSink_eq
  have ho : output ∈ effect.protocolSink := ho
  rw [h] at ho
  exact (List.mem_filter.mp ho).2

/-! ## Keys -/

/-- The key the signer sorts by, from a puzzle hash, an amount and an asset. -/
def recipientKey (t : Bytes32 × UInt64 × Option String) : RecipientKey :=
  toLex (t.1.bytes, toLex (t.2.1, t.2.2))

theorem recipientKey_injective : Function.Injective recipientKey := by
  rintro ⟨⟨bytes, hsize⟩, amount, asset⟩ ⟨⟨bytes', hsize'⟩, amount', asset'⟩ h
  obtain ⟨hbytes, htail⟩ := Prod.mk.inj (toLex.injective h)
  obtain ⟨hamount, hasset⟩ := Prod.mk.inj (toLex.injective htail)
  simp only at hbytes hamount hasset
  subst hbytes hamount hasset
  rfl

/-- A triple with a decoded puzzle hash. -/
def decoded (t : Bytes32 × UInt64 × Option String) : Option Bytes32 × UInt64 × Option String :=
  (some t.1, t.2)

def undecoded (k : Option Bytes32 × UInt64 × Option String) :
    Option (Bytes32 × UInt64 × Option String) := k.1.map fun hash => (hash, k.2)

/-- Keys whose addresses all decode come from triples. -/
theorem map_decoded_undecoded {keys : List (Option Bytes32 × UInt64 × Option String)}
    (h : ∀ k ∈ keys, ∃ t, decoded t = k) : (keys.filterMap undecoded).map decoded = keys := by
  induction keys with
  | nil => rfl
  | cons k keys ih =>
    obtain ⟨t, rfl⟩ := h k (by simp)
    have htail := ih fun k hk => h k (by simp [hk])
    simp [undecoded, decoded] at htail ⊢
    exact htail

def derivedTriple (output : DecodedOutput) : Bytes32 × UInt64 × Option String :=
  (output.puzzleHash, output.amount, output.assetId.map fun asset => hexEncode asset.bytes)

theorem reviewedRecipient_eq_ok {output : SpendOutput} {key : RecipientKey} :
    reviewedRecipient sdk output = .ok key ↔
      ∃ t, addressedKey sdk output = decoded t ∧ key = recipientKey t := by
  unfold reviewedRecipient decodePuzzleHash addressedKey
  cases sdk.decodeAddress output.address.text with
  | error e => simp [bind, Except.bind, Except.toOption, decoded]
  | ok hash =>
    simp only [bind, Except.bind, Except.ok.injEq, Except.toOption, decoded, Prod.mk.injEq,
      Option.some.injEq]
    constructor
    · rintro rfl
      exact ⟨(hash, output.amount.mojos, output.assetId.map normalizeAsset), ⟨rfl, rfl⟩, rfl⟩
    · rintro ⟨t, ⟨rfl, hrest⟩, rfl⟩
      rw [recipientKey, ← hrest]
      rfl

theorem mapM_reviewedRecipient_eq_ok {outputs : List SpendOutput} {reviewed : List RecipientKey} :
    outputs.mapM (reviewedRecipient sdk) = .ok reviewed ↔
      ∃ ts : List (Bytes32 × UInt64 × Option String),
        outputs.map (addressedKey sdk) = ts.map decoded ∧ reviewed = ts.map recipientKey := by
  induction outputs generalizing reviewed with
  | nil => simp [pure, Except.pure, eq_comm]
  | cons output outputs ih =>
    rw [mapM_eq_ok]
    constructor
    · rintro (_ | ⟨hkey, hkeys⟩)
      obtain ⟨t, ht, rfl⟩ := reviewedRecipient_eq_ok.mp hkey
      obtain ⟨ts, hts, rfl⟩ := ih.mp (mapM_eq_ok.mpr hkeys)
      exact ⟨t :: ts, by simp [ht, hts], rfl⟩
    · rintro ⟨ts, hts, rfl⟩
      cases ts with
      | nil => simp at hts
      | cons t ts =>
        simp only [List.map_cons, List.cons.injEq] at hts
        exact .cons (reviewedRecipient_eq_ok.mpr ⟨t, hts.1, rfl⟩)
          (mapM_eq_ok.mp (ih.mpr ⟨ts, hts.2, rfl⟩))

/-- The claimed addresses all decode, to a permutation of the derived recipients. -/
theorem recipients_iff (outputs : List SpendOutput) (recipients : List DecodedOutput) :
    (∃ reviewed, outputs.mapM (reviewedRecipient sdk) = .ok reviewed ∧
      (recipients.map derivedRecipient).Perm reviewed) ↔
    (outputs.map (addressedKey sdk)).Perm ((recipients.map derivedTriple).map decoded) := by
  have hderived : recipients.map derivedRecipient =
      (recipients.map derivedTriple).map recipientKey := by
    rw [List.map_map]
    rfl
  rw [hderived]
  constructor
  · rintro ⟨reviewed, hreviewed, hperm⟩
    obtain ⟨ts, hts, rfl⟩ := mapM_reviewedRecipient_eq_ok.mp hreviewed
    rw [hts]
    exact ((List.map_perm_map_iff recipientKey_injective).mp hperm).symm.map decoded
  · intro hperm
    have hall : ∀ k ∈ outputs.map (addressedKey sdk), ∃ t, decoded t = k := fun k hk => by
      obtain ⟨t, -, ht⟩ := List.mem_map.mp (hperm.subset hk)
      exact ⟨t, ht⟩
    have hundecode : ((recipients.map derivedTriple).map decoded).filterMap undecoded =
        recipients.map derivedTriple := by
      rw [List.filterMap_map]
      exact List.filterMap_some
    have hperm' := hperm.filterMap undecoded
    rw [hundecode] at hperm'
    exact ⟨_, mapM_reviewedRecipient_eq_ok.mpr ⟨_, (map_decoded_undecoded hall).symm, rfl⟩,
      hperm'.symm.map recipientKey⟩

/-! ## The rendered summary -/

section Rendered

variable (haddr : sdk.AddressesRoundTrip)
include haddr

/-- An egress line: a decodable address, so no sink. -/
theorem renderEgress_spec (output : DecodedOutput) : ∃ rendered,
    renderEgress sdk output = .ok rendered ∧ rendered.isProtocolSink = false ∧
    addressedKey sdk rendered = decoded (derivedTriple output) := by
  obtain ⟨text, htext⟩ := haddr.encodes output.puzzleHash "xch" (by simp)
  have hne := haddr.nonempty htext
  have hdecode := haddr.decodes htext
  refine ⟨⟨⟨text⟩, ⟨output.amount⟩, assetText output.assetId⟩, ?_, ?_, ?_⟩
  · simp [renderEgress, encodeXchAddress, htext, orReject, bind, Except.bind]
  · simpa [SpendOutput.isProtocolSink, String.isEmpty_iff] using hne
  · cases hasset : output.assetId with
    | none => simp [addressedKey, hdecode, Except.toOption, decoded, derivedTriple, assetText, hasset]
    | some asset =>
      simp [addressedKey, hdecode, Except.toOption, decoded, derivedTriple, assetText, hasset]

theorem mapM_renderEgress (outputs : List DecodedOutput) : ∃ rendered,
    outputs.mapM (renderEgress sdk) = .ok rendered ∧
    (∀ output ∈ rendered, output.isProtocolSink = false) ∧
    rendered.map (addressedKey sdk) = (outputs.map derivedTriple).map decoded := by
  induction outputs with
  | nil => exact ⟨[], rfl, by simp, rfl⟩
  | cons output outputs ih =>
    obtain ⟨line, hline, hsink, hkey⟩ := renderEgress_spec haddr output
    obtain ⟨lines, hlines, hsinks, hkeys⟩ := ih
    refine ⟨line :: lines, ?_, ?_, ?_⟩
    · exact mapM_eq_ok.mpr (.cons hline (mapM_eq_ok.mp hlines))
    · simpa [hsink] using hsinks
    · simp [hkey, hkeys]

theorem describe_total (operation : NftOperation) :
    ∃ sentence, NftOperation.describe sdk operation = .ok sentence := by
  obtain ⟨id, hid⟩ := haddr.encodes operation.launcherId "nft" (by simp)
  obtain ⟨owner, howner⟩ := haddr.encodes operation.owner "xch" (by simp)
  unfold NftOperation.describe encodeIn
  rw [hid, howner]
  cases operation with
  | transfer _ _ => exact ⟨_, rfl⟩
  | mint _ _ => exact ⟨_, rfl⟩

theorem mapM_describe (operations : List NftOperation) :
    ∃ sentences, operations.mapM (NftOperation.describe sdk) = .ok sentences := by
  induction operations with
  | nil => exact ⟨[], rfl⟩
  | cons operation operations ih =>
    obtain ⟨sentence, hsentence⟩ := describe_total haddr operation
    obtain ⟨sentences, hsentences⟩ := ih
    exact ⟨sentence :: sentences,
      mapM_eq_ok.mpr (.cons hsentence (mapM_eq_ok.mp hsentences))⟩

/-- The summary of a split, by the keys the review compares. -/
theorem summarizeEgress_spec (split : OwnedSplit) : ∃ summary sentences,
    summarizeEgress sdk split.recipients split.protocolSink split.fee split.meltedSingletons
      split.nftOperations = .ok summary ∧
    summary.fee = ⟨split.fee⟩ ∧
    addressedKeys sdk summary = (split.recipients.map derivedTriple).map decoded ∧
    sinkKeys summary = (split.protocolSink.filter fun output => 0 < output.amount).map
      (fun output => (output.amount, output.assetId.map fun asset => hexEncode asset.bytes)) ∧
    summary.meltedSingletons = split.meltedSingletons.map (fun id => hexEncode id.bytes) ∧
    split.nftOperations.mapM (NftOperation.describe sdk) = .ok sentences ∧
    summary.nftOperations = sentences := by
  obtain ⟨lines, hlines, hlinesink, hkeys⟩ := mapM_renderEgress haddr split.recipients
  obtain ⟨sentences, hsentences⟩ := mapM_describe haddr split.nftOperations
  let sinks := (split.protocolSink.filter fun output => 0 < output.amount).map renderSink
  have hsinks : ∀ output ∈ sinks, output.isProtocolSink = true := by
    intro output ho
    obtain ⟨_, -, rfl⟩ := List.mem_map.mp ho
    rfl
  have haddressed : (lines ++ sinks).filter (fun output => !output.isProtocolSink) = lines := by
    rw [List.filter_append, List.filter_eq_self.mpr, List.filter_eq_nil_iff.mpr, List.append_nil]
    · simpa using hsinks
    · simpa using hlinesink
  have hsinked : (lines ++ sinks).filter SpendOutput.isProtocolSink = sinks := by
    rw [List.filter_append, List.filter_eq_nil_iff.mpr, List.filter_eq_self.mpr hsinks,
      List.nil_append]
    simpa using hlinesink
  refine ⟨⟨lines ++ sinks, [], ⟨split.fee⟩,
    split.meltedSingletons.map fun id => hexEncode id.bytes, sentences⟩, sentences, ?_, rfl, ?_, ?_,
    rfl, hsentences, rfl⟩
  · unfold summarizeEgress
    rw [hlines, hsentences]
    rfl
  · rw [addressedKeys, haddressed, hkeys]
  · rw [sinkKeys, hsinked, List.map_map]
    apply List.map_congr_left
    intro output _
    cases hasset : output.assetId with
    | none => simp [renderSink, assetText, hasset]
    | some asset => simp [renderSink, assetText, hasset]

/-- The gate's comparison is agreement with the rendered summary. -/
theorem assertReviewedSummaryMatches_iff_agrees {claimed summary : TransactionSummary}
    {split : OwnedSplit}
    (hsummary : summarizeEgress sdk split.recipients split.protocolSink split.fee
      split.meltedSingletons split.nftOperations = .ok summary) :
    assertReviewedSummaryMatches sdk claimed split = .ok () ↔ Agrees sdk claimed summary := by
  obtain ⟨summary', sentences, hsummary', hfee, haddressed, hsinks, hmelts, hsentences, hnfts⟩ :=
    summarizeEgress_spec haddr split
  obtain rfl := Except.ok.inj (hsummary.symm.trans hsummary')
  have hnormal : summary.meltedSingletons.map normalizeMelt = summary.meltedSingletons := by
    rw [hmelts, List.map_map]
    exact List.map_congr_left fun id _ => normalizeMelt_hexEncode id.bytes
  have hsinkKeys : ((split.protocolSink.filter fun output => 0 < output.amount).map
      derivedSink).Perm ((claimed.outputs.filter SpendOutput.isProtocolSink).map reviewedSink) ↔
      (sinkKeys claimed).Perm (sinkKeys summary) := by
    rw [hsinks]
    exact List.perm_comm
  rw [assertReviewedSummaryMatches_eq_ok, recipients_iff, hsinkKeys, ← haddressed, ← hmelts]
  constructor
  · rintro ⟨hf, hm, ⟨_, hs, hn⟩, hr, hk⟩
    obtain rfl := Except.ok.inj (hsentences.symm.trans hs)
    refine ⟨?_, hr, hk, ?_, ?_⟩
    · rw [hfee, ← hf]
    · rw [hnormal]
      exact hm.symm
    · rw [hnfts]
      exact hn.symm
  · rintro ⟨hf, hr, hk, hm, hn⟩
    rw [hnormal] at hm
    rw [hnfts] at hn
    refine ⟨?_, hm.symm, ⟨sentences, hsentences, hn.symm⟩, hr, hk⟩
    rw [hf, hfee]

end Rendered

theorem reviewableSummary_eq_ok {coinSpends : List CoinSpend} {summary : TransactionSummary} :
    reviewableSummary sdk signer coinSpends = .ok summary ↔
      ∃ effect, analyze sdk coinSpends = .ok effect ∧
        let split := reclassifyByOwnership sdk signer effect
        summarizeEgress sdk split.recipients split.protocolSink split.fee split.meltedSingletons
          split.nftOperations = .ok summary := by
  unfold reviewableSummary
  rw [bind_eq_ok]

theorem Agrees.refl (summary : TransactionSummary) : Agrees sdk summary summary :=
  ⟨rfl, .refl _, .refl _, .refl _, .refl _⟩

end Gate

/-- **The gate is the key-aware review.** -/
theorem gate_is_review (sdk : Sdk) (haddr : sdk.AddressesRoundTrip) (signer : LocalSigner)
    (unsigned : UnsignedSpend) :
    (verifyBeforeSigning sdk signer unsigned = .ok () ↔
      (∃ effect, analyze sdk unsigned.coinSpends = .ok effect) ∧
      ∃ summary, reviewableSummary sdk signer unsigned.coinSpends = .ok summary ∧
        Agrees sdk unsigned.summary summary) ∧
    (∀ effect, analyze sdk unsigned.coinSpends = .ok effect →
      ∃ summary, reviewableSummary sdk signer unsigned.coinSpends = .ok summary ∧
        verifyBeforeSigning sdk signer { unsigned with summary } = .ok ()) := by
  have hsummary : ∀ effect, analyze sdk unsigned.coinSpends = .ok effect →
      ∃ summary, reviewableSummary sdk signer unsigned.coinSpends = .ok summary ∧
        ∀ claimed, assertReviewedSummaryMatches sdk claimed
          (reclassifyByOwnership sdk signer effect) = .ok () ↔ Agrees sdk claimed summary := by
    intro effect heffect
    obtain ⟨summary, -, hsummary, -⟩ :=
      summarizeEgress_spec haddr (reclassifyByOwnership sdk signer effect)
    exact ⟨summary, reviewableSummary_eq_ok.mpr ⟨effect, heffect, hsummary⟩,
      fun claimed => assertReviewedSummaryMatches_iff_agrees haddr hsummary⟩
  constructor
  · rw [verifyBeforeSigning_eq_ok]
    constructor
    · rintro ⟨effect, heffect, hmatch⟩
      obtain ⟨summary, hrender, hagree⟩ := hsummary effect heffect
      exact ⟨⟨effect, heffect⟩, summary, hrender, (hagree _).mp hmatch⟩
    · rintro ⟨⟨effect, heffect⟩, summary, hrender, hagrees⟩
      obtain ⟨summary', hrender', hagree⟩ := hsummary effect heffect
      obtain rfl := Except.ok.inj (hrender.symm.trans hrender')
      exact ⟨effect, heffect, (hagree _).mpr hagrees⟩
  · intro effect heffect
    obtain ⟨summary, hrender, hagree⟩ := hsummary effect heffect
    exact ⟨summary, hrender,
      verifyBeforeSigning_eq_ok.mpr ⟨effect, heffect, (hagree _).mpr (Agrees.refl summary)⟩⟩

open Sim in
set_option maxRecDepth 8000 in
/-- The review of `sendBundle` passes the gate. -/
theorem gate_is_review_sendBundle : ∃ summary,
    reviewableSummary sim wallet sendBundle = .ok summary ∧
    verifyBeforeSigning sim wallet ⟨sendBundle, [], summary⟩ = .ok () :=
  (gate_is_review sim addressesRoundTrip wallet ⟨sendBundle, [], ⟨[], [], ⟨0⟩, [], []⟩⟩).2
    ⟨[⟨.rep 7, 60, none⟩, ⟨home, 30, none⟩], [], 10, [], []⟩ rfl

end DigWallet
