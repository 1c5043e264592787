import DigWallet.Engine.Records
import DigWallet.Lib.Text
import DigWallet.Signer.Sign

/-!
# DigWallet.Signer.Identity — identity signatures and spend signatures

`client::identity`: an identity message is framed by its domain at the front, a spend message is
bound to the network at the end.  The two meet exactly when the payload completes the network's
additional data at the end of the frame.
-/

namespace DigWallet

/-! ## The framing -/

/-- `as_bytes`, `into_bytes`: the UTF-8 bytes of a text. -/
def utf8 (text : String) : Bytes := text.toByteArray.data.toList

/-- `u8::is_ascii_alphanumeric`, or a dash. -/
def isDomainByte (b : UInt8) : Bool :=
  (48 ≤ b && b ≤ 57) || (65 ≤ b && b ≤ 90) || (97 ≤ b && b ≤ 122) || b = 45

def validDomain (domain : String) : Bool := utf8 domain ≠ [] && (utf8 domain).all isDomainByte

/-- `DIGNET-<domain>-v1`. -/
def domainTag (domain : String) : Bytes := utf8 ("DIGNET-" ++ domain ++ "-v1")

def domainFramedMessage (domain : String) (payload : Bytes) : WalletResult Bytes :=
  if validDomain domain then .ok (domainTag domain ++ [0] ++ payload)
  else .error ⟨.invalidInput, "identity signing domain must be non-empty ASCII alphanumeric/dash"⟩

/-- What an identity signs with: its reference and the master key. -/
structure HdIdentity where
  identity : IdentityRef
  master : MasterKey

def HdIdentity.signIdentityMessage (sdk : Sdk) (self : HdIdentity) (domain : String)
    (payload : Bytes) : WalletResult Signature := do
  let framed ← domainFramedMessage domain payload
  .ok (sdk.blsSign (self.master.profileAccountKey sdk self.identity.profileIx.toNat) framed)

theorem utf8_append (s t : String) : utf8 (s ++ t) = utf8 s ++ utf8 t := by
  unfold utf8
  rw [String.toByteArray_append, ByteArray.data_append, Array.toList_append]

theorem utf8_injective : Function.Injective utf8 := by
  intro s t h
  exact String.toByteArray_inj.mp (ByteArray.ext (Array.toList_inj.mp h))

theorem domainTag_injective : Function.Injective domainTag := by
  intro domain domain' h
  unfold domainTag at h
  rw [utf8_append, utf8_append, utf8_append, utf8_append] at h
  exact utf8_injective (List.append_cancel_left (List.append_cancel_right h))

theorem domainFramedMessage_eq_ok {domain : String} {payload framed : Bytes} :
    domainFramedMessage domain payload = .ok framed ↔
      validDomain domain = true ∧ framed = domainTag domain ++ [0] ++ payload := by
  unfold domainFramedMessage
  by_cases hvalid : validDomain domain = true
  · rw [if_pos hvalid]
    constructor
    · intro h
      exact ⟨hvalid, (Except.ok.inj h).symm⟩
    · rintro ⟨-, rfl⟩
      rfl
  · rw [if_neg hvalid]
    constructor
    · intro h
      cases h
    · rintro ⟨h, -⟩
      exact absurd h hvalid

/-- What is signed is the frame, never the payload alone. -/
theorem signIdentityMessage_eq_ok {sdk : Sdk} {self : HdIdentity} {domain : String}
    {payload : Bytes} {signature : Signature} :
    self.signIdentityMessage sdk domain payload = .ok signature ↔
      ∃ framed, domainFramedMessage domain payload = .ok framed ∧
        signature = sdk.blsSign (self.master.profileAccountKey sdk self.identity.profileIx.toNat)
          framed := by
  unfold HdIdentity.signIdentityMessage
  simp only [bind_eq_ok, Except.ok.injEq, eq_comm (b := signature)]

/-- The separator does not occur in a tag. -/
theorem zero_notMem_domainTag {domain : String} (h : validDomain domain = true) :
    (0 : UInt8) ∉ domainTag domain := by
  unfold domainTag
  rw [utf8_append, utf8_append, List.mem_append, List.mem_append]
  rintro ((hmem | hmem) | hmem)
  · exact absurd hmem (by decide)
  · have hall := (Bool.and_eq_true_iff.mp h).2
    have hzero := List.all_eq_true.mp hall 0 hmem
    exact absurd hzero (by decide)
  · exact absurd hmem (by decide)

/-- Two accepted pairs with one frame are one pair. -/
theorem domainFramedMessage_inj {domain domain' : String} {payload payload' framed : Bytes}
    (h : domainFramedMessage domain payload = .ok framed)
    (h' : domainFramedMessage domain' payload' = .ok framed) :
    domain' = domain ∧ payload' = payload := by
  obtain ⟨hvalid, hframed⟩ := domainFramedMessage_eq_ok.mp h
  obtain ⟨hvalid', hframed'⟩ := domainFramedMessage_eq_ok.mp h'
  rw [List.append_assoc] at hframed hframed'
  have hsame : domainTag domain' ++ 0 :: payload' = domainTag domain ++ 0 :: payload :=
    hframed'.symm.trans hframed
  obtain ⟨htag, hpayload⟩ := Text.field_inj (zero_notMem_domainTag hvalid')
    (zero_notMem_domainTag hvalid) hsame
  exact ⟨domainTag_injective htag, hpayload⟩

/-- **An identity signature is for one domain and payload**, where a key signs different messages
differently. -/
theorem signIdentityMessage_inj {sdk : Sdk} (hsign : ∀ key, Function.Injective (sdk.blsSign key))
    {self : HdIdentity} {domain domain' : String} {payload payload' : Bytes} {signature : Signature}
    (h : self.signIdentityMessage sdk domain payload = .ok signature)
    (h' : self.signIdentityMessage sdk domain' payload' = .ok signature) :
    domain' = domain ∧ payload' = payload := by
  obtain ⟨framed, hframed, hsignature⟩ := signIdentityMessage_eq_ok.mp h
  obtain ⟨framed', hframed', hsignature'⟩ := signIdentityMessage_eq_ok.mp h'
  obtain rfl : framed = framed' := hsign _ (hsignature.symm.trans hsignature')
  exact domainFramedMessage_inj hframed hframed'

/-! ## Identity and spend messages -/

theorem rejectUnboundMessage_eq_ok {signer : LocalSigner} {message : Bytes} :
    rejectUnboundMessage signer message = .ok () ↔ signer.aggSigMeExtraData.bytes <:+ message := by
  unfold rejectUnboundMessage
  rw [← List.isSuffixOf_iff_suffix]
  by_cases hsuffix : signer.aggSigMeExtraData.bytes.isSuffixOf message = true
  · rw [if_pos hsuffix]
    exact iff_of_true rfl hsuffix
  · rw [if_neg hsuffix]
    refine iff_of_false ?_ hsuffix
    intro h
    cases h

/-- An identity message that is no spend message of the signer's network, that the signer refuses,
and that no other domain or payload is framed to. -/
structure Separated (signer : LocalSigner) (domain : String) (payload framed : Bytes) : Prop where
  noSpend : ∀ (message : Bytes) (coinId : Bytes32),
    framed ≠ message ++ coinId.bytes ++ signer.aggSigMeExtraData.bytes
  refused : ∃ e, rejectUnboundMessage signer framed = .error e
  unambiguous : ∀ domain' payload', domainFramedMessage domain' payload' = .ok framed →
    domain' = domain ∧ payload' = payload

/-- The payload does not end in the additional data of the network, and does not complete it after
the end of the tag. -/
def ClearOf (genesis : Bytes32) (domain : String) (payload : Bytes) : Prop :=
  ¬ genesis.bytes <:+ payload ∧
    ∀ start, genesis.bytes = start ++ payload → ¬ start <:+ domainTag domain ++ [0]

/-- An identity message is separated exactly when its payload is clear of the network's additional
data. -/
theorem separated_iff {signer : LocalSigner} {domain : String} {payload framed : Bytes}
    (h : domainFramedMessage domain payload = .ok framed) :
    Separated signer domain payload framed ↔ ClearOf signer.aggSigMeExtraData domain payload := by
  obtain ⟨-, hframed⟩ := domainFramedMessage_eq_ok.mp h
  have hclear : ClearOf signer.aggSigMeExtraData domain payload ↔
      ¬ signer.aggSigMeExtraData.bytes <:+ framed := by
    rw [hframed, Text.suffix_append_iff, not_or, not_exists]
    unfold ClearOf
    simp only [not_and]
  rw [hclear]
  constructor
  · intro hseparated hsuffix
    obtain ⟨e, he⟩ := hseparated.refused
    rw [rejectUnboundMessage_eq_ok.mpr hsuffix] at he
    cases he
  · intro hsuffix
    refine ⟨?_, ?_, fun domain' payload' h' => domainFramedMessage_inj h h'⟩
    · rintro message coinId rfl
      exact hsuffix (List.suffix_append _ _)
    · cases hcheck : rejectUnboundMessage signer framed with
      | error e => exact ⟨e, rfl⟩
      | ok _ => exact absurd (rejectUnboundMessage_eq_ok.mp hcheck) hsuffix

/-- A one-byte payload for a signer whose network data ends in another byte. -/
theorem separated_auth :
    Separated ⟨0, ⟨[]⟩, .rep 7, 1, .canonicalWallet⟩ "auth" [1] (domainTag "auth" ++ [0] ++ [1]) := by
  have hframed : domainFramedMessage "auth" [1] = .ok (domainTag "auth" ++ [0] ++ [1]) :=
    domainFramedMessage_eq_ok.mpr ⟨by decide, rfl⟩
  refine (separated_iff hframed).mpr ⟨?_, ?_⟩
  · intro hsuffix
    exact absurd hsuffix.length_le (by decide)
  · intro start hstart
    have hlast := congrArg List.getLast? hstart
    rw [List.getLast?_append] at hlast
    have hbyte : some (7 : UInt8) = some 1 := hlast
    exact absurd hbyte (by decide)

/-- A payload that is a coin id and the network's data makes the frame a spend message. -/
theorem identity_frame_is_spend_message :
    ¬ ∀ signer domain payload framed, domainFramedMessage domain payload = .ok framed →
      Separated signer domain payload framed := by
  intro hall
  have hframed : domainFramedMessage "auth" ((Bytes32.rep 1).bytes ++ (Bytes32.rep 7).bytes) =
      .ok (domainTag "auth" ++ [0] ++ ((Bytes32.rep 1).bytes ++ (Bytes32.rep 7).bytes)) :=
    domainFramedMessage_eq_ok.mpr ⟨by decide, rfl⟩
  have hseparated := hall ⟨0, ⟨[]⟩, .rep 7, 1, .canonicalWallet⟩ _ _ _ hframed
  exact hseparated.noSpend (domainTag "auth" ++ [0]) (.rep 1) (List.append_assoc _ _ _).symm

end DigWallet
