import DigWallet.Signer.Gate

/-!
# DigWallet.Signer.Sign — `sign_unsigned`
-/

namespace DigWallet

open Sorting

structure SignedBundle where
  coinSpends : List CoinSpend
  aggregatedSignature : Signature

section Sign

variable (sdk : Sdk) (signer : LocalSigner)

/-- `constants.me()` is the network's own additional data. -/
def meDomain : Bytes32 := signer.aggSigMeExtraData

/-- One extracted requirement: only a BLS `AGG_SIG_ME` is signable. -/
def requireAggSigMe : SdkRequiredSignature → WalletResult RequiredSignature
  | .bls publicKey message domainString => do
    require (domainString = some (meDomain signer))
      ("a non-AGG_SIG_ME signature requirement is not signable (possible AGG_SIG_UNSAFE " ++
        "laundering)")
    .ok ⟨publicKey, message⟩
  | .secp => .error (reject "unexpected secp signature requirement in a wallet spend")

def requiredSignaturesFrom (coinSpends : List CoinSpend) :
    WalletResult (List RequiredSignature) := do
  let extracted ← orReject "required-signature extraction failed: "
    (sdk.fromCoinSpends coinSpends signer.aggSigMeExtraData)
  extracted.mapM (requireAggSigMe signer)

abbrev SignatureKey := Bytes ×ₗ Bytes

def signatureKey (sig : RequiredSignature) : SignatureKey :=
  toLex (sig.publicKey.bytes, sig.message)

def assertRequiredSignaturesMatch (engineClaimed authoritative : List RequiredSignature) :
    WalletResult Unit :=
  require (sort (engineClaimed.map signatureKey) = sort (authoritative.map signatureKey))
    ("engine-supplied required signatures do not match the coin spends (signing-oracle attempt)")

def rejectUnboundMessage (message : Bytes) : WalletResult Unit :=
  if signer.aggSigMeExtraData.bytes.isSuffixOf message then .ok ()
  else .error ⟨.signingFailed,
    "refusing to sign a message not bound to the network (possible AGG_SIG_UNSAFE)"⟩

/-- One turn of the signing loop. -/
def signRequired (required : RequiredSignature) : WalletResult Signature := do
  rejectUnboundMessage signer required.message
  match signer.findKey sdk required.publicKey with
  | some key => .ok (sdk.blsSign key required.message)
  | none => .error ⟨.signingFailed, "no derived key matches a required signature's public key"⟩

def produceSignatures (unsigned : UnsignedSpend) : WalletResult SignedBundle := do
  let signatures ← unsigned.requiredSignatures.mapM (signRequired sdk signer)
  .ok ⟨unsigned.coinSpends, sdk.aggregate signatures⟩

def signUnsigned (unsigned : UnsignedSpend) : WalletResult SignedBundle := do
  verifyBeforeSigning sdk signer unsigned
  let authoritative ← requiredSignaturesFrom sdk signer unsigned.coinSpends
  assertRequiredSignaturesMatch unsigned.requiredSignatures authoritative
  produceSignatures sdk signer { unsigned with requiredSignatures := authoritative }

end Sign

end DigWallet
