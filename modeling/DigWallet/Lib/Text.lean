import Mathlib.Algebra.GroupWithZero.Nat
import Mathlib.Data.List.DropRight
import Mathlib.Data.List.Basic

/-!
# DigWallet.Lib.Text — text that can be read back

Decimal digits, zero padding, trimming of trailing characters, and fields cut by a separator: the
pieces of a line format, each with the lemma that recovers its argument from the text.  The last part
is about lower-casing.
-/

namespace DigWallet.Text

/-! ## Digits -/

theorem toDigits_injective : Function.Injective (Nat.toDigits 10) := by
  intro m n h
  have hm : Nat.ofDigitChars 10 (Nat.toDigits 10 m) 0 = m := Nat.ofDigitChars_ten_toDigits
  rw [h, Nat.ofDigitChars_ten_toDigits] at hm
  exact hm.symm

theorem not_mem_toDigits {c : Char} {n : ℕ} (hc : c.isDigit = false) : c ∉ Nat.toDigits 10 n := by
  intro h
  have hdigit := Nat.isDigit_of_mem_toDigits (by omega) (by omega) h
  rw [hc] at hdigit
  exact Bool.false_ne_true hdigit

/-- `str::parse::<u64>`. -/
def parseU64 (text : String) : Option UInt64 :=
  let digits := match text.toList with
    | '+' :: rest => rest
    | digits => digits
  if digits ≠ [] ∧ digits.all Char.isDigit ∧ Nat.ofDigitChars 10 digits 0 < 2 ^ 64 then
    some (UInt64.ofNat (Nat.ofDigitChars 10 digits 0))
  else none

theorem parseU64_repr (n : UInt64) : parseU64 (toString n.toNat) = some n := by
  have htext : (toString n.toNat).toList = Nat.toDigits 10 n.toNat := by
    rw [Nat.toString_eq_repr, Nat.toList_repr]
  have hdigits : (match Nat.toDigits 10 n.toNat with
      | '+' :: rest => rest
      | digits => digits) = Nat.toDigits 10 n.toNat := by
    split
    · rename_i rest heq
      have hplus : '+' ∈ Nat.toDigits 10 n.toNat := heq ▸ List.mem_cons_self
      exact absurd hplus (not_mem_toDigits (by decide))
    · rfl
  have hall : (Nat.toDigits 10 n.toNat).all Char.isDigit = true := by
    rw [List.all_eq_true]
    intro c hc
    exact Nat.isDigit_of_mem_toDigits (by omega) (by omega) hc
  have hlt := n.toNat_lt
  unfold parseU64
  simp only [htext, hdigits, Nat.ofDigitChars_ten_toDigits]
  rw [if_pos ⟨Nat.toDigits_ne_nil, hall, hlt⟩, UInt64.ofNat_toNat]

/-- `format!("{n:0width$}")`. -/
def padded (width n : ℕ) : List Char :=
  List.replicate (width - (Nat.toDigits 10 n).length) '0' ++ Nat.toDigits 10 n

theorem padded_injective (width : ℕ) : Function.Injective (padded width) := by
  have value (n : ℕ) : Nat.ofDigitChars 10 (padded width n) 0 = n := by
    unfold padded
    rw [Nat.ofDigitChars_append, Nat.ofDigitChars_replicate_zero, Nat.mul_zero,
      Nat.ofDigitChars_ten_toDigits]
  intro m n h
  rw [← value m, h, value n]

theorem length_padded {width n : ℕ} (hwidth : 0 < width) (hn : n < 10 ^ width) :
    (padded width n).length = width := by
  have hlen : (Nat.toDigits 10 n).length ≤ width :=
    (Nat.length_toDigits_le_iff (by omega) hwidth).mpr hn
  unfold padded
  rw [List.length_append, List.length_replicate]
  omega

theorem not_mem_padded {c : Char} {width n : ℕ} (hc : c.isDigit = false) :
    c ∉ padded width n := by
  have hzero : c ≠ '0' := by
    rintro rfl
    exact absurd hc (by decide)
  unfold padded
  rw [List.mem_append, List.mem_replicate]
  rintro (⟨-, h⟩ | h)
  · exact hzero h
  · exact not_mem_toDigits hc h

/-! ## Trimming -/

/-- `trim_end_matches(c)`. -/
def trimEnd (c : Char) (text : List Char) : List Char := text.rdropWhile (· == c)

theorem trimEnd_append_replicate (c : Char) (text : List Char) :
    text = trimEnd c text ++ List.replicate (text.length - (trimEnd c text).length) c := by
  have hsplit : text.rdropWhile (· == c) ++ text.rtakeWhile (· == c) = text :=
    List.rdropWhile_append_rtakeWhile
  have htail : text.rtakeWhile (· == c) =
      List.replicate (text.rtakeWhile (· == c)).length c := by
    rw [List.eq_replicate_iff]
    refine ⟨rfl, fun x hx => ?_⟩
    have hx := List.mem_rtakeWhile_imp hx
    simpa using hx
  have hlen := congrArg List.length hsplit
  rw [List.length_append] at hlen
  have hcount : (text.rtakeWhile (· == c)).length = text.length - (trimEnd c text).length := by
    unfold trimEnd
    omega
  rw [← hcount, ← htail]
  exact hsplit.symm

/-- Among texts of one length nothing is lost by trimming. -/
theorem trimEnd_inj {c : Char} {s t : List Char} (hlen : s.length = t.length)
    (h : trimEnd c s = trimEnd c t) : s = t := by
  rw [trimEnd_append_replicate c s, trimEnd_append_replicate c t, h, hlen]

theorem not_mem_trimEnd {c d : Char} {text : List Char} (h : d ∉ text) : d ∉ trimEnd c text := by
  intro hmem
  exact h ((List.rdropWhile_prefix _ _).subset hmem)

/-! ## Fields -/

/-- A field that does not contain the separator ends at its first occurrence. -/
theorem field_inj {α : Type} {sep : α} {a b s t : List α} (ha : sep ∉ a) (hb : sep ∉ b)
    (h : a ++ sep :: s = b ++ sep :: t) : a = b ∧ s = t := by
  induction a generalizing b with
  | nil =>
    cases b with
    | nil => simpa using h
    | cons y b =>
      have hy : sep = y := (List.cons.inj h).1
      exact absurd (hy ▸ List.mem_cons_self) hb
  | cons x a ih =>
    cases b with
    | nil =>
      have hx : x = sep := (List.cons.inj h).1
      exact absurd (hx ▸ List.mem_cons_self) ha
    | cons y b =>
      obtain ⟨hxy, hrest⟩ := List.cons.inj h
      have ha' : sep ∉ a := fun hmem => ha (List.mem_cons_of_mem _ hmem)
      have hb' : sep ∉ b := fun hmem => hb (List.mem_cons_of_mem _ hmem)
      obtain ⟨hab, hst⟩ := ih ha' hb' hrest
      exact ⟨by rw [hxy, hab], hst⟩

/-- What stands before the digits that end a text, when a separator does. -/
theorem digits_suffix_inj {sep : Char} (hsep : sep.isDigit = false) {a b : List Char} {m n : ℕ}
    (h : a ++ sep :: Nat.toDigits 10 m = b ++ sep :: Nat.toDigits 10 n) : a = b := by
  have hnot : ∀ k : ℕ, sep ∉ (Nat.toDigits 10 k).reverse := by
    intro k hmem
    exact not_mem_toDigits hsep (List.mem_reverse.mp hmem)
  have hreverse := congrArg List.reverse h
  simp only [List.reverse_append, List.reverse_cons, List.append_assoc, List.singleton_append]
    at hreverse
  exact List.reverse_injective (field_inj (hnot m) (hnot n) hreverse).2

/-- A text that ends in a digit does not end in another character. -/
theorem append_digits_ne {c : Char} (hc : c.isDigit = false) (a b : List Char) (n : ℕ) :
    a ++ Nat.toDigits 10 n ≠ b ++ [c] := by
  intro h
  have hlast := congrArg List.getLast? h
  rw [List.getLast?_append_of_ne_nil _ Nat.toDigits_ne_nil, List.getLast?_concat] at hlast
  exact not_mem_toDigits hc (List.mem_of_getLast? hlast)

/-- A text ends in `l` when its last field does, or when the last field is the end of `l` and the
rest of `l` ends what stands before it. -/
theorem suffix_append_iff {α : Type} {l a b : List α} :
    l <:+ a ++ b ↔ l <:+ b ∨ ∃ start, l = start ++ b ∧ start <:+ a := by
  constructor
  · rintro ⟨front, h⟩
    rcases List.append_eq_append_iff.mp h with ⟨start, ha, hl⟩ | ⟨middle, -, hb⟩
    · exact .inr ⟨start, hl, ⟨front, ha.symm⟩⟩
    · exact .inl ⟨middle, hb.symm⟩
  · rintro (⟨front, rfl⟩ | ⟨start, rfl, front, rfl⟩)
    · exact ⟨a ++ front, List.append_assoc a front l⟩
    · exact ⟨front, (List.append_assoc front start b).symm⟩

/-! ## Letter case -/

/-- ASCII lower-casing, as code points. -/
theorem toNat_toLower (c : Char) :
    c.toLower.toNat = if 65 ≤ c.toNat ∧ c.toNat ≤ 90 then c.toNat + 32 else c.toNat := by
  have hrange : (c.val ≥ 'A'.val ∧ c.val ≤ 'Z'.val) ↔ 65 ≤ c.toNat ∧ c.toNat ≤ 90 := by
    rw [ge_iff_le, UInt32.le_iff_toNat_le, UInt32.le_iff_toNat_le]
    rfl
  unfold Char.toLower
  by_cases hupper : c.val ≥ 'A'.val ∧ c.val ≤ 'Z'.val
  · rw [dif_pos hupper, if_pos (hrange.mp hupper)]
    have hle := (hrange.mp hupper).2
    show (c.val + 32).toNat = c.toNat + 32
    rw [UInt32.toNat_add]
    exact Nat.mod_eq_of_lt (show c.toNat + 32 < 2 ^ 32 by omega)
  · rw [dif_neg hupper, if_neg (mt hrange.mpr hupper)]

theorem toLower_toLower (c : Char) : c.toLower.toLower = c.toLower := by
  have hone := toNat_toLower c
  have htwo := toNat_toLower c.toLower
  refine Char.toNat_inj.mp ?_
  split_ifs at hone htwo <;> omega

theorem toLower_eq_zero_iff {c : Char} : c.toLower = '0' ↔ c = '0' := by
  have hlower := toNat_toLower c
  rw [← Char.toNat_inj, ← Char.toNat_inj]
  show c.toLower.toNat = 48 ↔ c.toNat = 48
  split_ifs at hlower <;> omega

theorem toLower_eq_x_iff {c : Char} : c.toLower = 'x' ↔ c = 'x' ∨ c = 'X' := by
  have hlower := toNat_toLower c
  rw [← Char.toNat_inj, ← Char.toNat_inj, ← Char.toNat_inj]
  show c.toLower.toNat = 120 ↔ c.toNat = 120 ∨ c.toNat = 88
  split_ifs at hlower <;> omega

end DigWallet.Text
