import DigWallet.Verify.Ledger
import Mathlib.Algebra.Group.Pi.Basic
import Mathlib.Algebra.BigOperators.Group.List.Basic

/-!
# DigWallet.Verify.Tally — the ledger in unbounded integers

`Tally` is what a `SpendLedger` records, its totals in `ℕ`; tallies add.  `SpendLedger.toTally` reads
a machine ledger as a tally, `Tally.Fits` says which tallies the machine ledger can hold.
-/

namespace DigWallet

/-! ## Tallies -/

@[ext] structure Tally where
  outputs : List DecodedOutput := []
  protocolSink : List DecodedOutput := []
  fee : ℕ := 0
  melted : ℕ := 0
  meltedSingletons : List Bytes32 := []
  xchIn : ℕ := 0
  xchOut : ℕ := 0
  catIn : Bytes32 → ℕ := 0
  catOut : Bytes32 → ℕ := 0
  nftOperations : List NftOperation := []
  spentCoinIds : List Bytes32 := []
  launcherCoinIds : List Bytes32 := []
  launcherParents : List Bytes32 := []
  eveParents : List Bytes32 := []
  launcherAnnouncements : List (Bytes32 × List Bytes32) := []
  signedAnnouncementAssertions : List Bytes32 := []
  bindings : List CoinBinding := []

namespace Tally

instance : Zero Tally := ⟨{}⟩

instance : Add Tally where
  add a b := {
    outputs := a.outputs ++ b.outputs
    protocolSink := a.protocolSink ++ b.protocolSink
    fee := a.fee + b.fee
    melted := a.melted + b.melted
    meltedSingletons := a.meltedSingletons ++ b.meltedSingletons
    xchIn := a.xchIn + b.xchIn
    xchOut := a.xchOut + b.xchOut
    catIn := a.catIn + b.catIn
    catOut := a.catOut + b.catOut
    nftOperations := a.nftOperations ++ b.nftOperations
    spentCoinIds := a.spentCoinIds ++ b.spentCoinIds
    launcherCoinIds := a.launcherCoinIds ++ b.launcherCoinIds
    launcherParents := a.launcherParents ++ b.launcherParents
    eveParents := a.eveParents ++ b.eveParents
    launcherAnnouncements := a.launcherAnnouncements ++ b.launcherAnnouncements
    signedAnnouncementAssertions :=
      a.signedAnnouncementAssertions ++ b.signedAnnouncementAssertions
    bindings := a.bindings ++ b.bindings }

section Fields

variable (a b : Tally)

@[simp] theorem zero_nftOperations : (0 : Tally).nftOperations = [] := rfl

@[simp] theorem add_outputs : (a + b).outputs = a.outputs ++ b.outputs := rfl
@[simp] theorem add_protocolSink : (a + b).protocolSink = a.protocolSink ++ b.protocolSink := rfl
@[simp] theorem add_fee : (a + b).fee = a.fee + b.fee := rfl
@[simp] theorem add_melted : (a + b).melted = a.melted + b.melted := rfl
@[simp] theorem add_meltedSingletons :
    (a + b).meltedSingletons = a.meltedSingletons ++ b.meltedSingletons := rfl
@[simp] theorem add_xchIn : (a + b).xchIn = a.xchIn + b.xchIn := rfl
@[simp] theorem add_xchOut : (a + b).xchOut = a.xchOut + b.xchOut := rfl
@[simp] theorem add_catIn : (a + b).catIn = a.catIn + b.catIn := rfl
@[simp] theorem add_catOut : (a + b).catOut = a.catOut + b.catOut := rfl
@[simp] theorem add_nftOperations :
    (a + b).nftOperations = a.nftOperations ++ b.nftOperations := rfl
@[simp] theorem add_spentCoinIds : (a + b).spentCoinIds = a.spentCoinIds ++ b.spentCoinIds := rfl
@[simp] theorem add_launcherCoinIds :
    (a + b).launcherCoinIds = a.launcherCoinIds ++ b.launcherCoinIds := rfl
@[simp] theorem add_launcherParents :
    (a + b).launcherParents = a.launcherParents ++ b.launcherParents := rfl
@[simp] theorem add_eveParents : (a + b).eveParents = a.eveParents ++ b.eveParents := rfl
@[simp] theorem add_launcherAnnouncements :
    (a + b).launcherAnnouncements = a.launcherAnnouncements ++ b.launcherAnnouncements := rfl
@[simp] theorem add_signedAnnouncementAssertions : (a + b).signedAnnouncementAssertions =
    a.signedAnnouncementAssertions ++ b.signedAnnouncementAssertions := rfl
@[simp] theorem add_bindings : (a + b).bindings = a.bindings ++ b.bindings := rfl

end Fields

instance : AddMonoid Tally where
  add_assoc a b c := by
    ext1 <;> first | exact List.append_assoc _ _ _ | exact add_assoc _ _ _
  zero_add a := by
    ext1 <;> first | exact List.nil_append _ | exact zero_add _
  add_zero a := by
    ext1 <;> first | exact List.append_nil _ | exact add_zero _
  nsmul := nsmulRec

/-- A numeric field of a sum. -/
theorem sum_nat (f : Tally → ℕ) (h0 : f 0 = 0) (hadd : ∀ a b, f (a + b) = f a + f b)
    (l : List Tally) : f l.sum = (l.map f).sum := by
  induction l with
  | nil => simpa using h0
  | cons a l ih => rw [List.sum_cons, hadd, ih, List.map_cons, List.sum_cons]

/-- A list field of a sum. -/
theorem sum_list {β : Type} (f : Tally → List β) (h0 : f 0 = [])
    (hadd : ∀ a b, f (a + b) = f a ++ f b) (l : List Tally) : f l.sum = l.flatMap f := by
  induction l with
  | nil => simpa using h0
  | cons a l ih => rw [List.sum_cons, hadd, ih, List.flatMap_cons]

/-- The machine ledger can hold the totals. -/
structure Fits (t : Tally) : Prop where
  fee : t.fee < UInt64.size
  melted : t.melted < UInt64.size
  xchIn : t.xchIn < UInt64.size
  xchOut : t.xchOut < UInt64.size
  catIn : ∀ asset, t.catIn asset < UInt64.size
  catOut : ∀ asset, t.catOut asset < UInt64.size

theorem Fits.left {a b : Tally} (h : (a + b).Fits) : a.Fits where
  fee := Nat.lt_of_le_of_lt (Nat.le_add_right _ _) h.fee
  melted := Nat.lt_of_le_of_lt (Nat.le_add_right _ _) h.melted
  xchIn := Nat.lt_of_le_of_lt (Nat.le_add_right _ _) h.xchIn
  xchOut := Nat.lt_of_le_of_lt (Nat.le_add_right _ _) h.xchOut
  catIn asset := Nat.lt_of_le_of_lt (Nat.le_add_right _ (b.catIn asset)) (h.catIn asset)
  catOut asset := Nat.lt_of_le_of_lt (Nat.le_add_right _ (b.catOut asset)) (h.catOut asset)

end Tally

/-- The ledger read in unbounded integers. -/
def SpendLedger.toTally (ledger : SpendLedger) : Tally where
  outputs := ledger.outputs
  protocolSink := ledger.protocolSink
  fee := ledger.fee.toNat
  melted := ledger.melted.toNat
  meltedSingletons := ledger.meltedSingletons
  xchIn := ledger.xchIn.toNat
  xchOut := ledger.xchOut.toNat
  catIn asset := (ledger.catIn.get asset).toNat
  catOut asset := (ledger.catOut.get asset).toNat
  nftOperations := ledger.nftOperations
  spentCoinIds := ledger.spentCoinIds
  launcherCoinIds := ledger.launcherCoinIds
  launcherParents := ledger.launcherParents
  eveParents := ledger.eveParents
  launcherAnnouncements := ledger.launcherAnnouncements
  signedAnnouncementAssertions := ledger.signedAnnouncementAssertions
  bindings := ledger.bindings

theorem SpendLedger.fits_toTally (ledger : SpendLedger) : ledger.toTally.Fits where
  fee := ledger.fee.toNat_lt
  melted := ledger.melted.toNat_lt
  xchIn := ledger.xchIn.toNat_lt
  xchOut := ledger.xchOut.toNat_lt
  catIn asset := (ledger.catIn.get asset).toNat_lt
  catOut asset := (ledger.catOut.get asset).toNat_lt

end DigWallet
