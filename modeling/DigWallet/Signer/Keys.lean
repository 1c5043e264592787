import DigWallet.Sdk

/-!
# DigWallet.Signer.Keys — key derivation and the signer's key search

`client::hd` and the key side of `LocalSigner`.
-/

namespace DigWallet

/-! ## `client::hd` -/

/-- BIP-44 purpose. -/
def purpose : ℕ := 44

/-- Chia's SLIP-44 coin type. -/
def chiaCoinType : ℕ := 8444

structure MasterKey where
  seed : Bytes

namespace MasterKey

variable (sdk : Sdk) (key : MasterKey)

def master : SecretKey := sdk.fromSeed key.seed

/-- `m/44'/8444'/{profileIx}'`. -/
def profileAccountKey (profileIx : ℕ) : SecretKey :=
  sdk.deriveHardened (sdk.deriveHardened (sdk.deriveHardened (key.master sdk) purpose) chiaCoinType)
    profileIx

def addressKey (profileIx addressIx : ℕ) : SecretKey :=
  sdk.deriveUnhardened (key.profileAccountKey sdk profileIx) addressIx

/-- The synthetic money key `m/12381/8444/2/index`. -/
def walletSigningKey (index : ℕ) : SecretKey :=
  sdk.deriveSynthetic (sdk.masterToWalletUnhardened (key.master sdk) index)

def walletPublicKey (index : ℕ) : PublicKey := sdk.publicKey (key.walletSigningKey sdk index)

end MasterKey

/-! ## `LocalSigner` -/

inductive WalletKeyScheme
  | legacyProfile
  | canonicalWallet
deriving DecidableEq

structure LocalSigner where
  profileIx : ℕ
  master : MasterKey
  aggSigMeExtraData : Bytes32
  addressGap : ℕ
  scheme : WalletKeyScheme

namespace LocalSigner

variable (sdk : Sdk) (signer : LocalSigner)

/-- The candidate keys at one index, in the order `find_key` tries them. -/
def candidateKeys (index : ℕ) : List SecretKey :=
  match signer.scheme with
  | .canonicalWallet => [signer.master.walletSigningKey sdk index]
  | .legacyProfile =>
    let raw := signer.master.addressKey sdk signer.profileIx index
    [raw, sdk.deriveSynthetic raw]

def findKey (target : PublicKey) : Option SecretKey :=
  (List.range signer.addressGap).findSome? fun index =>
    (signer.candidateKeys sdk index).find? fun key => sdk.publicKey key = target

/-- The synthetic public key at one index. -/
def syntheticPublicKey (index : ℕ) : PublicKey :=
  match signer.scheme with
  | .canonicalWallet => signer.master.walletPublicKey sdk index
  | .legacyProfile =>
    sdk.publicKey (sdk.deriveSynthetic (signer.master.addressKey sdk signer.profileIx index))

def ownsPuzzleHash (puzzleHash : Bytes32) : Bool :=
  (List.range signer.addressGap).any fun index =>
    sdk.standardCurryTreeHash (signer.syntheticPublicKey sdk index) = puzzleHash

end LocalSigner

end DigWallet
