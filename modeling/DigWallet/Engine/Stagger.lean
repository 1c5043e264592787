import DigWallet.Engine.BuildExtended
import Mathlib.Tactic.Ring
import Mathlib.Algebra.Order.Ring.Nat
import Mathlib.Data.List.Nodup

/-!
# DigWallet.Engine.Stagger — the amounts of a split

`staggeredAmounts_eq_some`: the amounts are `base, base + 1, …`, the last raised by the remainder, and
nothing of it overflows.  Their total is the divisible amount, and they are strictly increasing.
`staggeredAmounts_cases`: they exist exactly from the floor on.
-/

namespace DigWallet

open Totals

/-- The `n + 1` amounts from `base` up, the last raised by `remainder`. -/
def staggered (base remainder n : ℕ) : List ℕ :=
  (List.range n).map (base + ·) ++ [base + n + remainder]

theorem sum_range_add (base n : ℕ) :
    2 * ((List.range n).map (base + ·)).sum + n = n * (2 * base) + n * n := by
  induction n with
  | zero => simp
  | succ n ih =>
    rw [List.range_succ, List.map_append, List.sum_append]
    simp only [List.map_cons, List.map_nil, List.sum_cons, List.sum_nil]
    calc 2 * (((List.range n).map (base + ·)).sum + (base + n + 0)) + (n + 1)
        = (2 * ((List.range n).map (base + ·)).sum + n) + (2 * base + 2 * n + 1) := by ring
      _ = (n * (2 * base) + n * n) + (2 * base + 2 * n + 1) := by rw [ih]
      _ = (n + 1) * (2 * base) + (n + 1) * (n + 1) := by ring

/-- Twice the sum, without division. -/
theorem sum_staggered (base remainder n : ℕ) :
    2 * (staggered base remainder n).sum = (n + 1) * (2 * base) + (n + 1) * n + 2 * remainder := by
  have hrange := sum_range_add base n
  have hsum : (staggered base remainder n).sum =
      ((List.range n).map (base + ·)).sum + (base + n + remainder) := by
    rw [staggered, List.sum_append, List.sum_singleton]
  have hexpand : (n + 1) * (2 * base) + (n + 1) * n = n * (2 * base) + n * n + 2 * base + n := by
    ring
  omega

theorem last_le_sum_staggered (base remainder n : ℕ) :
    base + n + remainder ≤ (staggered base remainder n).sum := by
  rw [staggered, List.sum_append, List.sum_singleton]
  exact Nat.le_add_left _ _

/-- Strictly increasing: the remainder is on the last. -/
theorem pairwise_staggered (base remainder n : ℕ) :
    (staggered base remainder n).Pairwise (· < ·) := by
  have hrange : ((List.range n).map (base + ·)).Pairwise (· < ·) :=
    List.pairwise_lt_range.map (base + ·) fun _ _ hlt => Nat.add_lt_add_left hlt base
  refine List.pairwise_append.mpr ⟨hrange, List.pairwise_singleton _ _, ?_⟩
  intro amount hamount last hlast
  obtain ⟨index, hindex, rfl⟩ := List.mem_map.mp hamount
  have hlt := List.mem_range.mp hindex
  have heq := List.mem_singleton.mp hlast
  omega

theorem base_le_of_mem_staggered {base remainder n amount : ℕ}
    (h : amount ∈ staggered base remainder n) : base ≤ amount := by
  rcases List.mem_append.mp h with h | h
  · obtain ⟨index, -, rfl⟩ := List.mem_map.mp h
    exact Nat.le_add_right _ _
  · have heq := List.mem_singleton.mp h
    omega

theorem length_staggered (base remainder n : ℕ) : (staggered base remainder n).length = n + 1 := by
  rw [staggered, List.length_append, List.length_map, List.length_range]
  rfl

theorem mapM_eq_some_map {α β : Type} {f : α → Option β} {g : α → β} {l : List α}
    (h : ∀ a ∈ l, f a = some (g a)) : l.mapM f = some (l.map g) := by
  induction l with
  | nil => rfl
  | cons a l ih =>
    have htail := ih fun a ha => h a (List.mem_cons_of_mem _ ha)
    rw [List.mapM_cons, h a List.mem_cons_self, htail]
    rfl

variable {overflowChecks : Bool}

theorem addU64_of_lt {a b : UInt64} (h : a.toNat + b.toNat < 2 ^ 64) :
    addU64 overflowChecks a b = some (a + b) := if_neg fun hover => by omega

/-- Induction on the amounts before the last. -/
theorem addToLast_append (remainder last : UInt64) (amounts : List UInt64) :
    addToLast overflowChecks remainder (amounts ++ [last]) =
      (addU64 overflowChecks last remainder).map fun last => amounts ++ [last] := by
  induction amounts with
  | nil =>
    cases hadd : addU64 overflowChecks last remainder <;> simp [addToLast, hadd]
  | cons amount amounts ih =>
    obtain ⟨next, rest, heq⟩ : ∃ next rest, amounts ++ [last] = next :: rest := by
      cases amounts with
      | nil => exact ⟨last, [], rfl⟩
      | cons next rest => exact ⟨next, rest ++ [last], rfl⟩
    rw [List.cons_append, heq, addToLast, ← heq, ih]
    cases addU64 overflowChecks last remainder <;> rfl

/-- The checked offset and floor, exactly. -/
theorem staggerAndFloor_eq_some {parts stagger floor : UInt64}
    (h : staggerAndFloor parts = some (stagger, floor)) :
    1 ≤ parts.toNat ∧ stagger.toNat = parts.toNat * (parts.toNat - 1) / 2 ∧
      floor.toNat = parts.toNat + stagger.toNat := by
  unfold staggerAndFloor checkedMul checkedSub checkedAdd at h
  simp only [Option.bind_eq_bind, Option.bind_eq_some_iff] at h
  obtain ⟨less, hless, product, hproduct, least, hleast, h⟩ := h
  split_ifs at hless hproduct hleast with hpos hmul hadd
  cases hless
  cases hproduct
  cases hleast
  cases h
  have hone : 1 ≤ parts.toNat := UInt64.le_iff_toNat_le.mp hpos
  have hsub : (parts - 1).toNat = parts.toNat - 1 := UInt64.toNat_sub_of_le _ _ hpos
  rw [hsub] at hmul
  refine ⟨hone, ?_, toNat_add_of_lt hadd⟩
  rw [UInt64.toNat_div, UInt64.toNat_mul, hsub, Nat.mod_eq_of_lt hmul]
  rfl

/-- Below `2 ^ 32` parts neither overflows. -/
theorem staggerAndFloor_of_lt {parts : UInt64} (hone : 1 ≤ parts.toNat) (hlt : parts.toNat < 2 ^ 32) :
    ∃ stagger floor, staggerAndFloor parts = some (stagger, floor) := by
  have hpos : 1 ≤ parts := UInt64.le_iff_toNat_le.mpr hone
  have hsub : (parts - 1).toNat = parts.toNat - 1 := UInt64.toNat_sub_of_le _ _ hpos
  have hproduct : parts.toNat * (parts - 1).toNat ≤ (2 ^ 32 - 1) * (2 ^ 32 - 2) := by
    rw [hsub]
    exact Nat.mul_le_mul (by omega) (by omega)
  have hmul : parts.toNat * (parts - 1).toNat < 2 ^ 64 := by omega
  have hhalf : (parts * (parts - 1) / 2).toNat = parts.toNat * (parts - 1).toNat / 2 := by
    rw [UInt64.toNat_div, UInt64.toNat_mul, Nat.mod_eq_of_lt hmul]
    rfl
  have hadd : parts.toNat + (parts * (parts - 1) / 2).toNat < 2 ^ 64 := by omega
  refine ⟨parts * (parts - 1) / 2, parts + parts * (parts - 1) / 2, ?_⟩
  unfold staggerAndFloor checkedSub checkedMul checkedAdd
  rw [if_pos hpos, Option.bind_eq_bind, Option.bind_some, if_pos hmul, Option.bind_some]
  dsimp only
  rw [if_pos hadd]
  rfl

/-- The base and the remainder of the division give back the divisible amount. -/
theorem sum_staggered_division (divisible : ℕ) {offset n : ℕ} (hoffset : offset = (n + 1) * n / 2)
    (hfloor : n + 1 + offset ≤ divisible) :
    1 ≤ (divisible - offset) / (n + 1) ∧
      (staggered ((divisible - offset) / (n + 1)) ((divisible - offset) % (n + 1)) n).sum =
        divisible := by
  have hdivision := Nat.div_add_mod (divisible - offset) (n + 1)
  refine ⟨(Nat.one_le_div_iff (Nat.succ_pos n)).mpr (by omega), ?_⟩
  generalize (divisible - offset) / (n + 1) = base at *
  generalize (divisible - offset) % (n + 1) = remainder at *
  have heven : 2 * offset = (n + 1) * n := by
    rw [hoffset, Nat.mul_comm (n + 1) n]
    exact Nat.mul_div_cancel' (Nat.even_mul_succ_self n).two_dvd
  have htwice := sum_staggered base remainder n
  have hscale : (n + 1) * (2 * base) = 2 * ((n + 1) * base) := by ring
  omega

variable (overflowChecks) in
/-- The loop over the parts, when its last addition does not overflow. -/
theorem stagger_loop (base : UInt64) {n : ℕ} (h : base.toNat + n < 2 ^ 64) :
    ((List.range (n + 1)).mapM fun index => addU64 overflowChecks base (UInt64.ofNat index)) =
      some ((List.range (n + 1)).map fun index => base + UInt64.ofNat index) ∧
    ∀ index < n + 1, (base + UInt64.ofNat index).toNat = base.toNat + index := by
  have hindex : ∀ index < n + 1, (UInt64.ofNat index).toNat = index := fun index hlt =>
    UInt64.toNat_ofNat_of_lt' (by show index < 2 ^ 64; omega)
  constructor
  · refine mapM_eq_some_map fun index hmem => addU64_of_lt ?_
    have hlt := List.mem_range.mp hmem
    rw [hindex index hlt]
    omega
  · intro index hlt
    rw [toNat_add_of_lt (by rw [hindex index hlt]; omega), hindex index hlt]

/-- The loop, and the last amount raised: nothing overflows while the last one fits. -/
theorem stagger_amounts {base remainder : UInt64} {n : ℕ}
    (h : base.toNat + n + remainder.toNat < 2 ^ 64) :
    ∃ loop amounts, ((List.range (n + 1)).mapM fun index =>
        addU64 overflowChecks base (UInt64.ofNat index)) = some loop ∧
      addToLast overflowChecks remainder loop = some amounts ∧
      amounts.map UInt64.toNat = staggered base.toNat remainder.toNat n := by
  obtain ⟨hall, htoNat⟩ := stagger_loop overflowChecks base (by omega : base.toNat + n < 2 ^ 64)
  have htop := htoNat n (Nat.lt_succ_self n)
  have hraised := @addToLast_append overflowChecks remainder (base + UInt64.ofNat n)
    ((List.range n).map fun index => base + UInt64.ofNat index)
  rw [addU64_of_lt (by omega), Option.map_some] at hraised
  rw [List.range_succ, List.map_append, List.map_cons, List.map_nil, ← List.range_succ] at hall
  refine ⟨_, _, hall, hraised, ?_⟩
  rw [staggered, List.map_append, List.map_map, List.map_cons, List.map_nil,
    toNat_add_of_lt (by omega), htop]
  congr 1
  refine List.map_congr_left fun index hmem => htoNat index ?_
  have hlt := List.mem_range.mp hmem
  omega

variable (overflowChecks) in
/-- From the floor on, the amounts are staggered from a positive base, with nothing lost. -/
theorem staggeredAmounts_of_le {divisible parts stagger floor : UInt64}
    (hstagger : staggerAndFloor parts = some (stagger, floor)) (hcovers : floor ≤ divisible) :
    ∃ amounts base remainder n, staggeredAmounts overflowChecks divisible parts = some (some amounts) ∧
      parts.toNat = n + 1 ∧ 1 ≤ base ∧ remainder ≤ n ∧
      amounts.map UInt64.toNat = staggered base remainder n ∧
      (staggered base remainder n).sum = divisible.toNat := by
  obtain ⟨hone, hoffset, hfloor⟩ := staggerAndFloor_eq_some hstagger
  obtain ⟨n, hn⟩ : ∃ n, parts.toNat = n + 1 := ⟨parts.toNat - 1, by omega⟩
  have hle : floor.toNat ≤ divisible.toNat := UInt64.le_iff_toNat_le.mp hcovers
  have hover : stagger ≤ divisible := UInt64.le_iff_toNat_le.mpr (by omega)
  rw [hn, Nat.add_sub_cancel] at hoffset
  obtain ⟨hpositive, hsum⟩ := sum_staggered_division divisible.toNat hoffset (by omega)
  have hspread : subU64 overflowChecks divisible stagger = some (divisible - stagger) :=
    if_neg fun hbelow => absurd hover (UInt64.not_le.mpr hbelow.2)
  have hdifference : (divisible - stagger).toNat = divisible.toNat - stagger.toNat :=
    UInt64.toNat_sub_of_le _ _ hover
  have hbase : ((divisible - stagger) / parts).toNat =
      (divisible.toNat - stagger.toNat) / (n + 1) := by rw [UInt64.toNat_div, hdifference, hn]
  have hremainder : ((divisible - stagger) % parts).toNat =
      (divisible.toNat - stagger.toNat) % (n + 1) := by rw [UInt64.toNat_mod, hdifference, hn]
  have hrest := Nat.mod_lt (divisible.toNat - stagger.toNat) (Nat.succ_pos n)
  rw [← hbase, ← hremainder] at hsum
  rw [← hbase] at hpositive
  rw [← hremainder] at hrest
  -- every amount is at most the last one, which is at most the sum
  have hlast := last_le_sum_staggered ((divisible - stagger) / parts).toNat
    ((divisible - stagger) % parts).toNat n
  rw [hsum] at hlast
  obtain ⟨loop, amounts, hloop, hraised, hvalues⟩ := @stagger_amounts overflowChecks
    ((divisible - stagger) / parts) ((divisible - stagger) % parts) n
    (lt_of_le_of_lt hlast divisible.toNat_lt)
  refine ⟨amounts, _, _, n, ?_, hn, hpositive, Nat.le_of_lt_succ hrest, hvalues, hsum⟩
  unfold staggeredAmounts
  rw [hstagger]
  simp only [if_neg (UInt64.not_lt.mpr hcovers), hspread, hn, hloop, hraised,
    Option.bind_eq_bind, Option.bind_some]

/-- **The amounts of a split**: staggered, from a positive base, with nothing lost. -/
theorem staggeredAmounts_eq_some {divisible parts : UInt64} {amounts : List UInt64}
    (h : staggeredAmounts overflowChecks divisible parts = some (some amounts)) :
    ∃ base remainder n, parts.toNat = n + 1 ∧ 1 ≤ base ∧ remainder ≤ n ∧
      amounts.map UInt64.toNat = staggered base remainder n ∧
      (staggered base remainder n).sum = divisible.toNat := by
  have hfound := h
  unfold staggeredAmounts at hfound
  split at hfound
  · cases hfound
  rename_i stagger floor hstagger
  by_cases hbelow : divisible < floor
  · rw [if_pos hbelow] at hfound
    cases hfound
  obtain ⟨amounts', base, remainder, n, hamounts, hfacts⟩ :=
    staggeredAmounts_of_le overflowChecks hstagger (UInt64.not_lt.mp hbelow)
  obtain rfl := Option.some.inj (Option.some.inj (h.symm.trans hamounts))
  exact ⟨base, remainder, n, hfacts⟩

theorem total_of_staggeredAmounts {divisible parts : UInt64} {amounts : List UInt64}
    (h : staggeredAmounts overflowChecks divisible parts = some (some amounts)) :
    total amounts = divisible.toNat := by
  obtain ⟨base, remainder, n, -, -, -, hamounts, hsum⟩ := staggeredAmounts_eq_some h
  rw [total, hamounts, hsum]

theorem length_of_staggeredAmounts {divisible parts : UInt64} {amounts : List UInt64}
    (h : staggeredAmounts overflowChecks divisible parts = some (some amounts)) :
    amounts.length = parts.toNat := by
  obtain ⟨base, remainder, n, hparts, -, -, hamounts, -⟩ := staggeredAmounts_eq_some h
  have hlength := congrArg List.length hamounts
  rw [List.length_map, length_staggered] at hlength
  rw [hlength, hparts]

theorem pairwise_of_staggeredAmounts {divisible parts : UInt64} {amounts : List UInt64}
    (h : staggeredAmounts overflowChecks divisible parts = some (some amounts)) :
    amounts.Pairwise (· < ·) := by
  obtain ⟨base, remainder, n, -, -, -, hamounts, -⟩ := staggeredAmounts_eq_some h
  have hpairwise := pairwise_staggered base remainder n
  rw [← hamounts, List.pairwise_map] at hpairwise
  exact hpairwise.imp UInt64.lt_iff_toNat_lt.mpr

theorem nodup_of_staggeredAmounts {divisible parts : UInt64} {amounts : List UInt64}
    (h : staggeredAmounts overflowChecks divisible parts = some (some amounts)) : amounts.Nodup :=
  (pairwise_of_staggeredAmounts h).imp fun hlt heq => absurd (heq ▸ hlt) (UInt64.lt_irrefl _)

theorem one_le_of_staggeredAmounts {divisible parts : UInt64} {amounts : List UInt64}
    (h : staggeredAmounts overflowChecks divisible parts = some (some amounts)) :
    ∀ amount ∈ amounts, 1 ≤ amount := by
  obtain ⟨base, remainder, n, -, hbase, -, hamounts, -⟩ := staggeredAmounts_eq_some h
  intro amount hamount
  have hmem : amount.toNat ∈ staggered base remainder n := hamounts ▸ List.mem_map_of_mem hamount
  exact UInt64.le_iff_toNat_le.mpr (hbase.trans (base_le_of_mem_staggered hmem))

variable (overflowChecks) in
/-- No amounts exactly below the floor; and never an overflow. -/
theorem staggeredAmounts_cases {divisible parts : UInt64} (hone : 1 ≤ parts.toNat)
    (hlt : parts.toNat < 2 ^ 32) :
    (staggeredAmounts overflowChecks divisible parts = some none ∧
      divisible.toNat < parts.toNat + parts.toNat * (parts.toNat - 1) / 2) ∨
    ∃ amounts, staggeredAmounts overflowChecks divisible parts = some (some amounts) ∧
      parts.toNat + parts.toNat * (parts.toNat - 1) / 2 ≤ divisible.toNat := by
  obtain ⟨stagger, floor, hstagger⟩ := staggerAndFloor_of_lt hone hlt
  obtain ⟨-, hoffset, hfloor⟩ := staggerAndFloor_eq_some hstagger
  rw [← hoffset, ← hfloor]
  by_cases hbelow : divisible < floor
  · refine .inl ⟨?_, UInt64.lt_iff_toNat_lt.mp hbelow⟩
    unfold staggeredAmounts
    rw [hstagger]
    exact if_pos hbelow
  · have hcovers := UInt64.not_lt.mp hbelow
    obtain ⟨amounts, -, -, -, hamounts, -⟩ :=
      staggeredAmounts_of_le overflowChecks hstagger hcovers
    exact .inr ⟨amounts, hamounts, UInt64.le_iff_toNat_le.mp hcovers⟩

end DigWallet
