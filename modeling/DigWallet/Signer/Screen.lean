import DigWallet.Lib.Text
import DigWallet.Signer.Gate
import DigWallet.SimLaws
import DigWallet.Verify.Conservation

/-!
# DigWallet.Signer.Screen — the consent screen

`render_amount`, `render` and `decode_verified`.  Each line format is injective in what it shows,
so two spends with the same screen have the same effect outside the wallet.
-/

namespace DigWallet

open Text

/-! ## The renderer -/

/-- `MOJOS_PER_XCH`. -/
def mojosPerXch : ℕ := 1000000000000

def renderAmount (amount : Amount) (isXch : Bool) : String :=
  let mojos := amount.mojos.toNat
  if isXch then
    let whole := mojos / mojosPerXch
    let frac := mojos % mojosPerXch
    if frac = 0 then toString whole
    else toString whole ++ "." ++ String.ofList (trimEnd '0' (padded 12 frac))
  else toString mojos

def renderOutputLine (verb : String) (out : SpendOutput) : String :=
  let unit := match out.assetId with
    | none => "XCH"
    | some asset => "CAT " ++ asset.text
  verb ++ " " ++ renderAmount out.amount out.assetId.isNone ++ " " ++ unit ++ " to " ++
    out.address.text

/-- `strip_prefix`. -/
def stripPrefix (start text : String) : Option String :=
  (text.toList.dropPrefix? start.toList).map String.ofList

def renderMeltLine (coinId : String) : String :=
  "Permanently DESTROY singleton " ++ coinId ++ " — this cannot be undone"

def renderNftLine (operation : String) : String :=
  match stripPrefix "transfer " operation with
  | some rest => "Transfer NFT " ++ rest ++ " — it leaves this wallet"
  | none =>
    match stripPrefix "mint " operation with
    | some rest => "Mint NFT " ++ rest
    | none => operation

structure HumanReadableSummary where
  lines : List String
  receiveLines : List String
  meltLines : List String
  nftLines : List String
  feeLine : String
  coinSpendCount : ℕ
  requiredSignatureCount : ℕ
  verified : Bool

/-- The received legs come from the engine's own summary, everything else from `summary`. -/
def render (unsigned : UnsignedSpend) (summary : TransactionSummary) (verified : Bool) :
    HumanReadableSummary where
  lines := summary.outputs.map (renderOutputLine "Send")
  receiveLines := unsigned.summary.received.map (renderOutputLine "Receive (unverified)")
  meltLines := summary.meltedSingletons.map renderMeltLine
  nftLines := summary.nftOperations.map renderNftLine
  feeLine := "Fee " ++ renderAmount summary.fee true ++ " XCH"
  coinSpendCount := unsigned.coinSpends.length
  requiredSignatureCount := unsigned.requiredSignatures.length
  verified := verified

def decodeVerified (sdk : Sdk) (signer : LocalSigner) (unsigned : UnsignedSpend) :
    WalletResult HumanReadableSummary := do
  let summary ← reviewableSummary sdk signer unsigned.coinSpends
  .ok (render unsigned summary true)

example : renderAmount ⟨1500000000000⟩ true = "1.5" := by decide +kernel

/-! ## Amounts -/

theorem toList_renderAmount_whole {amount : Amount}
    (h : amount.mojos.toNat % mojosPerXch = 0) :
    (renderAmount amount true).toList =
      Nat.toDigits 10 (amount.mojos.toNat / mojosPerXch) := by
  unfold renderAmount
  simp only [if_true, if_pos h, Nat.toString_eq_repr, Nat.toList_repr]

theorem toList_renderAmount_frac {amount : Amount}
    (h : amount.mojos.toNat % mojosPerXch ≠ 0) :
    (renderAmount amount true).toList =
      Nat.toDigits 10 (amount.mojos.toNat / mojosPerXch) ++
        '.' :: trimEnd '0' (padded 12 (amount.mojos.toNat % mojosPerXch)) := by
  unfold renderAmount
  simp [if_neg h]

theorem renderAmount_unspaced (amount : Amount) (isXch : Bool) :
    ' ' ∉ (renderAmount amount isXch).toList := by
  have hblank : Char.isDigit ' ' = false := by decide
  cases isXch with
  | false =>
    show ' ' ∉ (toString amount.mojos.toNat).toList
    rw [Nat.toString_eq_repr, Nat.toList_repr]
    exact not_mem_toDigits hblank
  | true =>
    by_cases h : amount.mojos.toNat % mojosPerXch = 0
    · rw [toList_renderAmount_whole h]
      exact not_mem_toDigits hblank
    · rw [toList_renderAmount_frac h, List.mem_append, List.mem_cons]
      rintro (hmem | hdot | hmem)
      · exact not_mem_toDigits hblank hmem
      · exact absurd hdot (by decide)
      · exact not_mem_trimEnd (not_mem_padded hblank) hmem

/-- The trimmed fraction still determines the fraction: it has twelve digits before trimming. -/
theorem fraction_inj {m n : ℕ} (hm : m < mojosPerXch) (hn : n < mojosPerXch)
    (h : trimEnd '0' (padded 12 m) = trimEnd '0' (padded 12 n)) : m = n := by
  have hlen_m : (padded 12 m).length = 12 := length_padded (by omega) hm
  have hlen_n : (padded 12 n).length = 12 := length_padded (by omega) hn
  have hpadded : padded 12 m = padded 12 n := trimEnd_inj (by omega) h
  exact padded_injective 12 hpadded

theorem amount_eq {a b : Amount} (h : a.mojos.toNat = b.mojos.toNat) : a = b := by
  cases a
  cases b
  exact congrArg Amount.mk (UInt64.toNat_inj.mp h)

theorem renderAmount_injective (isXch : Bool) :
    Function.Injective fun amount => renderAmount amount isXch := by
  intro a b h
  replace h : (renderAmount a isXch).toList = (renderAmount b isXch).toList := congrArg _ h
  cases isXch with
  | false =>
    replace h : (toString a.mojos.toNat).toList = (toString b.mojos.toNat).toList := h
    rw [Nat.toString_eq_repr, Nat.toString_eq_repr, Nat.toList_repr, Nat.toList_repr] at h
    exact amount_eq (toDigits_injective h)
  | true =>
    have hdot : Char.isDigit '.' = false := by decide
    have hpos : 0 < mojosPerXch := by decide
    have split_eq {m n : ℕ} (hdiv : m / mojosPerXch = n / mojosPerXch)
        (hmod : m % mojosPerXch = n % mojosPerXch) : m = n := by
      rw [← Nat.div_add_mod m mojosPerXch, hdiv, hmod, Nat.div_add_mod]
    by_cases ha : a.mojos.toNat % mojosPerXch = 0
    · by_cases hb : b.mojos.toNat % mojosPerXch = 0
      · rw [toList_renderAmount_whole ha, toList_renderAmount_whole hb] at h
        exact amount_eq (split_eq (toDigits_injective h) (by rw [ha, hb]))
      · -- only a fractional amount has a point
        rw [toList_renderAmount_whole ha, toList_renderAmount_frac hb] at h
        have hmem : '.' ∈ Nat.toDigits 10 (a.mojos.toNat / mojosPerXch) := by
          rw [h]
          exact List.mem_append_right _ List.mem_cons_self
        exact absurd hmem (not_mem_toDigits hdot)
    · by_cases hb : b.mojos.toNat % mojosPerXch = 0
      · rw [toList_renderAmount_frac ha, toList_renderAmount_whole hb] at h
        have hmem : '.' ∈ Nat.toDigits 10 (b.mojos.toNat / mojosPerXch) := by
          rw [← h]
          exact List.mem_append_right _ List.mem_cons_self
        exact absurd hmem (not_mem_toDigits hdot)
      · rw [toList_renderAmount_frac ha, toList_renderAmount_frac hb] at h
        obtain ⟨hwhole, hfrac⟩ := field_inj (not_mem_toDigits hdot) (not_mem_toDigits hdot) h
        apply amount_eq
        apply split_eq (toDigits_injective hwhole)
        exact fraction_inj (Nat.mod_lt _ hpos) (Nat.mod_lt _ hpos) hfrac

/-! ## Lines -/

/-- An output whose texts have no blank. -/
structure SpendOutput.Unspaced (out : SpendOutput) : Prop where
  address : ' ' ∉ out.address.text.toList
  asset : ∀ asset ∈ out.assetId, ' ' ∉ asset.text.toList

theorem toList_renderOutputLine_xch (verb : String) (address : Address) (amount : Amount) :
    (renderOutputLine verb ⟨address, amount, none⟩).toList =
      verb.toList ++ ' ' :: ((renderAmount amount true).toList ++
        ' ' :: 'X' :: 'C' :: 'H' :: ' ' :: 't' :: 'o' :: ' ' :: address.text.toList) := by
  unfold renderOutputLine
  simp

theorem toList_renderOutputLine_cat (verb : String) (address : Address) (amount : Amount)
    (asset : AssetId) :
    (renderOutputLine verb ⟨address, amount, some asset⟩).toList =
      verb.toList ++ ' ' :: ((renderAmount amount false).toList ++
        ' ' :: 'C' :: 'A' :: 'T' :: ' ' :: (asset.text.toList ++
          ' ' :: 't' :: 'o' :: ' ' :: address.text.toList)) := by
  unfold renderOutputLine
  simp

theorem address_eq {a b : Address} (h : a.text.toList = b.text.toList) : a = b := by
  cases a
  cases b
  exact congrArg Address.mk (String.toList_inj.mp h)

theorem assetId_eq {a b : AssetId} (h : a.text.toList = b.text.toList) : a = b := by
  cases a
  cases b
  exact congrArg AssetId.mk (String.toList_inj.mp h)

/-- One line, one output. -/
theorem renderOutputLine_inj {verb : String} {out out' : SpendOutput} (hout : out.Unspaced)
    (hout' : out'.Unspaced) (h : renderOutputLine verb out = renderOutputLine verb out') :
    out = out' := by
  replace h : (renderOutputLine verb out).toList = (renderOutputLine verb out').toList :=
    congrArg _ h
  obtain ⟨address, amount, assetId⟩ := out
  obtain ⟨address', amount', assetId'⟩ := out'
  cases assetId with
  | none =>
    cases assetId' with
    | none =>
      rw [toList_renderOutputLine_xch, toList_renderOutputLine_xch, List.append_cancel_left_eq,
        List.cons_inj_right] at h
      obtain ⟨hamount, hrest⟩ :=
        field_inj (renderAmount_unspaced _ _) (renderAmount_unspaced _ _) h
      have hamount := renderAmount_injective true (String.toList_inj.mp hamount)
      simp only [List.cons_inj_right] at hrest
      rw [hamount, address_eq hrest]
    | some asset' =>
      rw [toList_renderOutputLine_xch, toList_renderOutputLine_cat, List.append_cancel_left_eq,
        List.cons_inj_right] at h
      obtain ⟨-, hrest⟩ :=
        field_inj (renderAmount_unspaced _ _) (renderAmount_unspaced _ _) h
      exact absurd (List.cons.inj hrest).1 (by decide)
  | some asset =>
    cases assetId' with
    | none =>
      rw [toList_renderOutputLine_cat, toList_renderOutputLine_xch, List.append_cancel_left_eq,
        List.cons_inj_right] at h
      obtain ⟨-, hrest⟩ :=
        field_inj (renderAmount_unspaced _ _) (renderAmount_unspaced _ _) h
      exact absurd (List.cons.inj hrest).1 (by decide)
    | some asset' =>
      rw [toList_renderOutputLine_cat, toList_renderOutputLine_cat, List.append_cancel_left_eq,
        List.cons_inj_right] at h
      obtain ⟨hamount, hrest⟩ :=
        field_inj (renderAmount_unspaced _ _) (renderAmount_unspaced _ _) h
      have hamount := renderAmount_injective false (String.toList_inj.mp hamount)
      simp only [List.cons_inj_right] at hrest
      obtain ⟨hasset, hrest⟩ :=
        field_inj (hout.asset asset rfl) (hout'.asset asset' rfl) hrest
      simp only [List.cons_inj_right] at hrest
      rw [hamount, assetId_eq hasset, address_eq hrest]

/-! ## NFT sentences -/

theorem stripPrefix_append (start rest : String) : stripPrefix start (start ++ rest) = some rest := by
  have hdrop : (start.toList ++ rest.toList).dropPrefix? start.toList = some rest.toList :=
    List.dropPrefix?_eq_some_iff.mpr ⟨start.toList, rfl, by simp⟩
  unfold stripPrefix
  rw [String.toList_append, hdrop, Option.map_some, String.ofList_toList]

theorem stripPrefix_eq_none {start text : String}
    (h : ∀ rest : List Char, text.toList ≠ start.toList ++ rest) : stripPrefix start text = none := by
  unfold stripPrefix
  cases hdrop : text.toList.dropPrefix? start.toList with
  | none => rfl
  | some rest =>
    obtain ⟨p, htext, hp⟩ := List.dropPrefix?_eq_some_iff.mp hdrop
    rw [eq_of_beq hp] at htext
    exact absurd htext (h rest)

theorem toList_renderNftLine_transfer (id owner : String) :
    (renderNftLine ("transfer " ++ id ++ " to " ++ owner)).toList =
      "Transfer NFT ".toList ++ (id.toList ++ ' ' :: 't' :: 'o' :: ' ' :: (owner.toList ++
        ' ' :: "— it leaves this wallet".toList)) := by
  unfold renderNftLine
  rw [String.append_assoc, String.append_assoc, stripPrefix_append]
  simp

theorem toList_renderNftLine_mint (id owner : String) :
    (renderNftLine ("mint " ++ id ++ " owned by " ++ owner)).toList =
      "Mint NFT ".toList ++ (id.toList ++ ' ' :: ("owned by ".toList ++ owner.toList)) := by
  have hnone : stripPrefix "transfer " ("mint " ++ (id ++ (" owned by " ++ owner))) = none := by
    apply stripPrefix_eq_none
    intro tail h
    rw [String.toList_append] at h
    exact absurd (List.cons.inj h).1 (by decide)
  unfold renderNftLine
  rw [String.append_assoc, String.append_assoc, hnone, stripPrefix_append]
  simp

section Consent

variable {sdk : Sdk} (htext : sdk.AddressText)
include htext

omit htext in
theorem describe_eq_ok {operation : NftOperation} {line : String} :
    operation.describe sdk = .ok line → ∃ id owner,
      sdk.encodeAddress operation.launcherId "nft" = .ok id ∧
      sdk.encodeAddress operation.owner "xch" = .ok owner ∧
      line = match operation with
        | .transfer _ _ => "transfer " ++ id ++ " to " ++ owner
        | .mint _ _ => "mint " ++ id ++ " owned by " ++ owner := by
  intro h
  obtain ⟨id, hid, h⟩ := bind_eq_ok.mp h
  obtain ⟨owner, howner, h⟩ := bind_eq_ok.mp h
  refine ⟨id, owner, orReject_eq_ok.mp hid, orReject_eq_ok.mp howner, ?_⟩
  cases operation with
  | transfer => exact (Except.ok.inj h).symm
  | mint => exact (Except.ok.inj h).symm

/-- One NFT line, one act. -/
theorem renderNftLine_describe_inj {operation operation' : NftOperation} {line line' : String}
    (h : operation.describe sdk = .ok line) (h' : operation'.describe sdk = .ok line')
    (heq : renderNftLine line = renderNftLine line') : operation = operation' := by
  have hnft : ' ' ∉ "nft".toList := by decide
  have hxch : ' ' ∉ "xch".toList := by decide
  obtain ⟨id, owner, hid, howner, rfl⟩ := describe_eq_ok h
  obtain ⟨id', owner', hid', howner', rfl⟩ := describe_eq_ok h'
  have hspace := htext.unspaced hnft hid
  have hspace' := htext.unspaced hnft hid'
  replace heq := congrArg String.toList heq
  cases operation with
  | transfer launcherId destination =>
    cases operation' with
    | transfer launcherId' destination' =>
      rw [toList_renderNftLine_transfer, toList_renderNftLine_transfer,
        List.append_cancel_left_eq] at heq
      obtain ⟨hids, hrest⟩ := field_inj hspace hspace' heq
      simp only [List.cons_inj_right] at hrest
      obtain ⟨howners, -⟩ :=
        field_inj (htext.unspaced hxch howner) (htext.unspaced hxch howner') hrest
      obtain rfl := String.toList_inj.mp hids
      obtain rfl := String.toList_inj.mp howners
      have hlauncher : launcherId = launcherId' := htext.injective hid hid'
      have howned : destination = destination' := htext.injective howner howner'
      rw [hlauncher, howned]
    | mint launcherId' owned' =>
      rw [toList_renderNftLine_transfer, toList_renderNftLine_mint] at heq
      exact absurd (List.cons.inj heq).1 (by decide)
  | mint launcherId owned =>
    cases operation' with
    | transfer launcherId' destination' =>
      rw [toList_renderNftLine_transfer, toList_renderNftLine_mint] at heq
      exact absurd (List.cons.inj heq).1 (by decide)
    | mint launcherId' owned' =>
      rw [toList_renderNftLine_mint, toList_renderNftLine_mint, List.append_cancel_left_eq] at heq
      obtain ⟨hids, hrest⟩ := field_inj hspace hspace' heq
      obtain rfl := String.toList_inj.mp hids
      obtain rfl := String.toList_inj.mp (List.append_cancel_left hrest)
      have hlauncher : launcherId = launcherId' := htext.injective hid hid'
      have howned : owned = owned' := htext.injective howner howner'
      rw [hlauncher, howned]

/-! ## Outputs -/

omit htext in
theorem renderEgress_eq_ok {output : DecodedOutput} {rendered : SpendOutput} :
    renderEgress sdk output = .ok rendered ↔
      ∃ text, sdk.encodeAddress output.puzzleHash "xch" = .ok text ∧
        rendered = ⟨⟨text⟩, ⟨output.amount⟩, assetText output.assetId⟩ := by
  unfold renderEgress encodeXchAddress
  simp only [bind_eq_ok, orReject_eq_ok]
  constructor
  · rintro ⟨_, ⟨text, htext, haddress⟩, hrendered⟩
    obtain rfl := Except.ok.inj haddress
    exact ⟨text, htext, (Except.ok.inj hrendered).symm⟩
  · rintro ⟨text, htext, rfl⟩
    exact ⟨_, ⟨text, htext, rfl⟩, rfl⟩

omit htext in
theorem assetText_injective : Function.Injective assetText := by
  apply Option.map_injective
  intro asset asset' h
  exact Bytes32.ext (hexEncode_injective (AssetId.mk.inj h))

omit htext in
theorem assetText_unspaced {assetId : Option Bytes32} :
    ∀ asset ∈ assetText assetId, ' ' ∉ asset.text.toList := by
  intro asset hasset
  obtain ⟨hash, -, rfl⟩ := Option.mem_map.mp hasset
  show ' ' ∉ (hexEncode hash.bytes).toList
  unfold hexEncode
  rw [String.toList_ofList]
  exact hexChars_unspaced hash.bytes

theorem renderEgress_unspaced {output : DecodedOutput} {rendered : SpendOutput}
    (h : renderEgress sdk output = .ok rendered) : rendered.Unspaced := by
  obtain ⟨text, henc, rfl⟩ := renderEgress_eq_ok.mp h
  exact ⟨htext.unspaced (by decide) henc, assetText_unspaced⟩

theorem renderEgress_recipient {output : DecodedOutput} {rendered : SpendOutput}
    (h : renderEgress sdk output = .ok rendered) : rendered.isProtocolSink = false := by
  obtain ⟨text, henc, rfl⟩ := renderEgress_eq_ok.mp h
  have hne := htext.nonempty henc
  simpa [SpendOutput.isProtocolSink, String.isEmpty_iff] using hne

theorem renderEgress_inj {output output' : DecodedOutput} {rendered : SpendOutput}
    (h : renderEgress sdk output = .ok rendered) (h' : renderEgress sdk output' = .ok rendered) :
    output = output' := by
  obtain ⟨text, henc, rfl⟩ := renderEgress_eq_ok.mp h
  obtain ⟨text', henc', heq⟩ := renderEgress_eq_ok.mp h'
  obtain ⟨haddress, hamount, hasset⟩ := SpendOutput.mk.inj heq
  obtain rfl := Address.mk.inj haddress
  obtain ⟨puzzleHash, amount, assetId⟩ := output
  obtain ⟨puzzleHash', amount', assetId'⟩ := output'
  have hhash : puzzleHash = puzzleHash' := htext.injective henc henc'
  have hamount : amount = amount' := Amount.mk.inj hamount
  have hasset : assetId = assetId' := assetText_injective hasset
  rw [hhash, hamount, hasset]

/-! ## Summaries -/

omit htext in
theorem summarizeEgress_eq_ok {egress protocolSink : List DecodedOutput} {fee : UInt64}
    {meltedSingletons : List Bytes32} {nftOperations : List NftOperation}
    {summary : TransactionSummary} :
    summarizeEgress sdk egress protocolSink fee meltedSingletons nftOperations = .ok summary ↔
      ∃ recipients, egress.mapM (renderEgress sdk) = .ok recipients ∧
      ∃ sentences, nftOperations.mapM (NftOperation.describe sdk) = .ok sentences ∧
        ⟨recipients ++ (protocolSink.filter fun output => 0 < output.amount).map renderSink, [],
          ⟨fee⟩, meltedSingletons.map fun coinId => hexEncode coinId.bytes, sentences⟩ =
            summary := by
  unfold summarizeEgress
  simp only [bind_eq_ok, Except.ok.injEq]

omit htext in
theorem renderSink_unspaced (output : DecodedOutput) : (renderSink output).Unspaced :=
  ⟨List.not_mem_nil, assetText_unspaced⟩

/-- What a sink line shows. -/
def sinkShown (output : DecodedOutput) : UInt64 × Option Bytes32 := (output.amount, output.assetId)

omit htext in
theorem map_renderSink_inj {sinks sinks' : List DecodedOutput}
    (h : sinks.map renderSink = sinks'.map renderSink) :
    sinks.map sinkShown = sinks'.map sinkShown := by
  have hshown {output output' : DecodedOutput} (h : renderSink output = renderSink output') :
      sinkShown output = sinkShown output' := by
    obtain ⟨-, hamount, hasset⟩ := SpendOutput.mk.inj h
    exact Prod.ext (Amount.mk.inj hamount) (assetText_injective hasset)
  induction sinks generalizing sinks' with
  | nil =>
    cases sinks' with
    | nil => rfl
    | cons => cases h
  | cons sink sinks ih =>
    cases sinks' with
    | nil => cases h
    | cons sink' sinks' =>
      obtain ⟨hhead, htail⟩ := List.cons.inj h
      rw [List.map_cons, List.map_cons, hshown hhead, ih htail]

/-- Recipients come first, and only sinks have an empty address. -/
theorem outputs_inj {egress egress' : List DecodedOutput} {recipients recipients' : List SpendOutput}
    {sinks sinks' : List DecodedOutput} (h : egress.mapM (renderEgress sdk) = .ok recipients)
    (h' : egress'.mapM (renderEgress sdk) = .ok recipients')
    (heq : recipients ++ sinks.map renderSink = recipients' ++ sinks'.map renderSink) :
    egress = egress' ∧ sinks.map sinkShown = sinks'.map sinkShown := by
  have hrecipient {egress : List DecodedOutput} {recipients : List SpendOutput}
      (h : egress.mapM (renderEgress sdk) = .ok recipients) :
      recipients.filter (fun output => !output.isProtocolSink) = recipients := by
    rw [List.filter_eq_self]
    intro rendered hmem
    obtain ⟨output, -, hrender⟩ := exists_mem_of_mapM h hmem
    rw [renderEgress_recipient htext hrender, Bool.not_false]
  have hsinks (sinks : List DecodedOutput) :
      (sinks.map renderSink).filter (fun output => !output.isProtocolSink) = [] := by
    rw [List.filter_eq_nil_iff]
    intro rendered hmem
    obtain ⟨sink, -, rfl⟩ := List.mem_map.mp hmem
    exact Bool.not_eq_true _ ▸ rfl
  have hfilter := congrArg (List.filter fun output => !output.isProtocolSink) heq
  rw [List.filter_append, List.filter_append, hrecipient h, hrecipient h', hsinks, hsinks,
    List.append_nil, List.append_nil] at hfilter
  subst hfilter
  exact ⟨mapM_inj (renderEgress_inj htext) h h', map_renderSink_inj (List.append_cancel_left heq)⟩

/-! ## The screen -/

theorem outputs_unspaced {coinSpends : List CoinSpend} {signer : LocalSigner}
    {summary : TransactionSummary} (h : reviewableSummary sdk signer coinSpends = .ok summary) :
    ∀ output ∈ summary.outputs, output.Unspaced := by
  obtain ⟨effect, -, h⟩ := bind_eq_ok.mp h
  obtain ⟨recipients, hrecipients, sentences, -, rfl⟩ := summarizeEgress_eq_ok.mp h
  intro rendered hmem
  rcases List.mem_append.mp hmem with hmem | hmem
  · obtain ⟨output, -, hrender⟩ := exists_mem_of_mapM hrecipients hmem
    exact renderEgress_unspaced htext hrender
  · obtain ⟨sink, -, rfl⟩ := List.mem_map.mp hmem
    exact renderSink_unspaced sink

end Consent

theorem renderMeltLine_injective : Function.Injective renderMeltLine := by
  intro a b h
  unfold renderMeltLine at h
  exact (String.append_right_inj _).mp ((String.append_left_inj _).mp h)

theorem render_feeLine_inj {fee fee' : UInt64}
    (h : "Fee " ++ renderAmount ⟨fee⟩ true ++ " XCH" = "Fee " ++ renderAmount ⟨fee'⟩ true ++ " XCH") :
    fee = fee' := by
  have hamount : renderAmount ⟨fee⟩ true = renderAmount ⟨fee'⟩ true :=
    (String.append_right_inj _).mp ((String.append_left_inj _).mp h)
  exact Amount.mk.inj (renderAmount_injective true hamount)

theorem map_renderOutputLine_inj {verb : String} {outputs outputs' : List SpendOutput}
    (hunspaced : ∀ output ∈ outputs, output.Unspaced)
    (hunspaced' : ∀ output ∈ outputs', output.Unspaced)
    (h : outputs.map (renderOutputLine verb) = outputs'.map (renderOutputLine verb)) :
    outputs = outputs' := by
  induction outputs generalizing outputs' with
  | nil =>
    cases outputs' with
    | nil => rfl
    | cons => cases h
  | cons output outputs ih =>
    cases outputs' with
    | nil => cases h
    | cons output' outputs' =>
      rw [List.forall_mem_cons] at hunspaced hunspaced'
      obtain ⟨hhead, htail⟩ := List.cons.inj h
      rw [renderOutputLine_inj hunspaced.1 hunspaced'.1 hhead, ih hunspaced.2 hunspaced'.2 htail]

theorem map_renderNftLine_inj {sdk : Sdk} (htext : sdk.AddressText)
    {operations operations' : List NftOperation} {sentences sentences' : List String}
    (h : operations.mapM (NftOperation.describe sdk) = .ok sentences)
    (h' : operations'.mapM (NftOperation.describe sdk) = .ok sentences')
    (heq : sentences.map renderNftLine = sentences'.map renderNftLine) :
    operations = operations' := by
  rw [mapM_eq_ok] at h h'
  induction h generalizing operations' sentences' with
  | nil =>
    cases h' with
    | nil => rfl
    | cons => cases heq
  | cons hhead _ ih =>
    cases h' with
    | nil => cases heq
    | cons hhead' htail' =>
      obtain ⟨hline, hlines⟩ := List.cons.inj heq
      rw [renderNftLine_describe_inj htext hhead hhead' hline, ih htail' hlines]

/-- **The consent screen hides nothing.** -/
theorem consent_screen_injective (sdk : Sdk) (htext : sdk.AddressText) (signer : LocalSigner)
    (unsigned unsigned' : UnsignedSpend) (screen screen' : HumanReadableSummary)
    (hscreen : decodeVerified sdk signer unsigned = .ok screen)
    (hscreen' : decodeVerified sdk signer unsigned' = .ok screen')
    (hlines : screen.lines = screen'.lines) (hmelts : screen.meltLines = screen'.meltLines)
    (hnfts : screen.nftLines = screen'.nftLines) (hfee : screen.feeLine = screen'.feeLine) :
    ∃ effect effect', analyze sdk unsigned.coinSpends = .ok effect ∧
      analyze sdk unsigned'.coinSpends = .ok effect' ∧
      (effect.outputs.filter fun output => !signer.ownsPuzzleHash sdk output.puzzleHash) =
        (effect'.outputs.filter fun output => !signer.ownsPuzzleHash sdk output.puzzleHash) ∧
      (effect.protocolSink.filter fun output => 0 < output.amount).map sinkShown =
        (effect'.protocolSink.filter fun output => 0 < output.amount).map sinkShown ∧
      effect.fee = effect'.fee ∧
      effect.meltedSingletons = effect'.meltedSingletons ∧
      effect.nftOperations = effect'.nftOperations := by
  obtain ⟨summary, hsummary, hrender⟩ := bind_eq_ok.mp hscreen
  obtain ⟨summary', hsummary', hrender'⟩ := bind_eq_ok.mp hscreen'
  obtain rfl := Except.ok.inj hrender
  obtain rfl := Except.ok.inj hrender'
  have houtputs : summary.outputs = summary'.outputs :=
    map_renderOutputLine_inj (outputs_unspaced htext hsummary) (outputs_unspaced htext hsummary')
      hlines
  obtain ⟨effect, heffect, hsummary⟩ := bind_eq_ok.mp hsummary
  obtain ⟨effect', heffect', hsummary'⟩ := bind_eq_ok.mp hsummary'
  obtain ⟨recipients, hrecipients, sentences, hsentences, rfl⟩ := summarizeEgress_eq_ok.mp hsummary
  obtain ⟨recipients', hrecipients', sentences', hsentences', rfl⟩ :=
    summarizeEgress_eq_ok.mp hsummary'
  obtain ⟨hegress, hsinks⟩ := outputs_inj htext hrecipients hrecipients' houtputs
  have hids : effect.meltedSingletons = effect'.meltedSingletons := by
    have hmap := List.map_injective_iff.mpr renderMeltLine_injective hmelts
    refine List.map_injective_iff.mpr ?_ hmap
    intro id id' h
    exact Bytes32.ext (hexEncode_injective h)
  exact ⟨effect, effect', heffect, heffect', hegress, hsinks, render_feeLine_inj hfee, hids,
    map_renderNftLine_inj htext hsentences hsentences' hnfts⟩

section Witness

open Sim

/-- `sendBundle` with its change in two coins. -/
def partedChange : List CoinSpend :=
  [spendOf (.rep 1) (standardPuzzle walletKey) 100
    (signing [createCoin home 20, createCoin (.rep 7) 60, createCoin home 10, reserveFee 10])]

def noSummary : TransactionSummary := ⟨[], [], ⟨0⟩, [], []⟩

set_option maxRecDepth 8000 in
theorem consent_screen_injective_partedChange :
    ∃ effect effect', analyze sim sendBundle = .ok effect ∧
      analyze sim partedChange = .ok effect' ∧
      (effect.outputs.filter fun output => !wallet.ownsPuzzleHash sim output.puzzleHash) =
        (effect'.outputs.filter fun output => !wallet.ownsPuzzleHash sim output.puzzleHash) := by
  obtain ⟨effect, effect', h, h', hrecipients, -⟩ :=
    consent_screen_injective sim addressText wallet ⟨sendBundle, [], noSummary⟩
      ⟨partedChange, [], noSummary⟩ _ _ rfl rfl rfl rfl rfl rfl
  exact ⟨effect, effect', h, h', hrecipients⟩

end Witness

end DigWallet
