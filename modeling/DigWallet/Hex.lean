import DigWallet.Types

/-!
# DigWallet.Hex — `hex::encode`
-/

namespace DigWallet

/-- The lower-case hex digit of a number below 16. -/
def hexDigit (n : ℕ) : Char :=
  if n < 10 then Char.ofNat ('0'.toNat + n) else Char.ofNat ('a'.toNat + (n - 10))

def hexChars : Bytes → List Char
  | [] => []
  | b :: bytes => hexDigit (b.toNat / 16) :: hexDigit (b.toNat % 16) :: hexChars bytes

/-- `hex::encode`. -/
def hexEncode (bytes : Bytes) : String := String.ofList (hexChars bytes)

/-! ## Reading hex back -/

theorem hexDigit_inj {m n : ℕ} (hm : m < 16) (hn : n < 16) (h : hexDigit m = hexDigit n) : m = n := by
  have hall : ∀ i : Fin 16, ∀ j : Fin 16, hexDigit i = hexDigit j → i = j := by decide
  exact congrArg Fin.val (hall ⟨m, hm⟩ ⟨n, hn⟩ h)

theorem hexDigit_ne_blank {n : ℕ} (hn : n < 16) : hexDigit n ≠ ' ' := by
  have hall : ∀ i : Fin 16, hexDigit i ≠ ' ' := by decide
  exact hall ⟨n, hn⟩

theorem hexChars_injective : Function.Injective hexChars := by
  intro xs
  induction xs with
  | nil =>
    intro ys h
    cases ys with
    | nil => rfl
    | cons y ys => cases h
  | cons x xs ih =>
    intro ys h
    cases ys with
    | nil => cases h
    | cons y ys =>
      obtain ⟨hhigh, hrest⟩ := List.cons.inj h
      obtain ⟨hlow, hrest⟩ := List.cons.inj hrest
      have hx := x.toNat_lt
      have hy := y.toNat_lt
      have hdiv := hexDigit_inj (by omega) (by omega) hhigh
      have hmod := hexDigit_inj (by omega) (by omega) hlow
      have hxy : x = y := UInt8.toNat_inj.mp (by omega)
      rw [hxy, ih hrest]

theorem hexEncode_injective : Function.Injective hexEncode := by
  intro xs ys h
  exact hexChars_injective (String.ofList_injective h)

theorem exists_of_mem_hexChars {c : Char} {bytes : Bytes} (h : c ∈ hexChars bytes) :
    ∃ n < 16, hexDigit n = c := by
  induction bytes with
  | nil => cases h
  | cons b bytes ih =>
    have hb := b.toNat_lt
    unfold hexChars at h
    rcases List.mem_cons.mp h with rfl | h
    · exact ⟨_, by omega, rfl⟩
    · rcases List.mem_cons.mp h with rfl | h
      · exact ⟨_, by omega, rfl⟩
      · exact ih h

theorem hexChars_unspaced (bytes : Bytes) : ' ' ∉ hexChars bytes := by
  intro h
  obtain ⟨n, hn, hdigit⟩ := exists_of_mem_hexChars h
  exact hexDigit_ne_blank hn hdigit

end DigWallet
