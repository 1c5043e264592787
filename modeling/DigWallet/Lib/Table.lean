import Mathlib.Data.List.Nodup
import Mathlib.Data.List.Perm.Basic

/-!
# DigWallet.Lib.Table — finite tables with a primary key

Rows under distinct keys: a SQL table, or a hash map with the order of its iteration.  Every
operation comes with what it makes of `get?`, and two tables with one `get?` have the same rows up
to order.
-/

namespace DigWallet

/-- Rows under distinct keys. -/
structure Table (K V : Type) where
  rows : List (K × V)
  unique : (rows.map Prod.fst).Nodup
deriving DecidableEq

namespace Table

variable {K V : Type}

def empty : Table K V := ⟨[], List.nodup_nil⟩

theorem ext {t t' : Table K V} (h : t.rows = t'.rows) : t = t' := by
  cases t
  cases t'
  cases h
  rfl

section Keyed

variable [DecidableEq K] {t t' : Table K V} {k k' : K} {v v' : V}

/-- `get`, `SELECT … WHERE key = k`. -/
def get? (t : Table K V) (k : K) : Option V := (t.rows.find? fun row => row.1 = k).map Prod.snd

theorem mem_rows : (k, v) ∈ t.rows ↔ t.get? k = some v := by
  have hunique := List.inj_on_of_nodup_map t.unique
  unfold get?
  rw [Option.map_eq_some_iff]
  constructor
  · intro h
    cases hfind : t.rows.find? fun row => row.1 = k with
    | none =>
      have hnone := List.find?_eq_none.mp hfind (k, v) h
      exact absurd (decide_eq_true rfl) hnone
    | some row =>
      have hkey : row.1 = k := by simpa using List.find?_some hfind
      have hrow : row = (k, v) := hunique (List.mem_of_find?_eq_some hfind) h hkey
      exact ⟨row, rfl, congrArg Prod.snd hrow⟩
  · rintro ⟨row, hfind, rfl⟩
    have hkey : row.1 = k := by simpa using List.find?_some hfind
    rw [← hkey]
    exact List.mem_of_find?_eq_some hfind

@[simp] theorem get?_empty : (empty : Table K V).get? k = none := rfl

/-- Tables with the same rows under every key are permutations of each other. -/
theorem perm_of_get? (h : ∀ k, t.get? k = t'.get? k) : t.rows.Perm t'.rows := by
  have hnodup := List.Nodup.of_map Prod.fst t.unique
  have hnodup' := List.Nodup.of_map Prod.fst t'.unique
  rw [List.perm_ext_iff_of_nodup hnodup hnodup']
  rintro ⟨k, v⟩
  rw [mem_rows, mem_rows, h]

/-! ## Upsert -/

def putRows (k : K) (v : V) : List (K × V) → List (K × V)
  | [] => [(k, v)]
  | row :: rows => if row.1 = k then (k, v) :: rows else row :: putRows k v rows

theorem map_fst_putRows (k : K) (v : V) (rows : List (K × V)) :
    (putRows k v rows).map Prod.fst =
      if k ∈ rows.map Prod.fst then rows.map Prod.fst else rows.map Prod.fst ++ [k] := by
  induction rows with
  | nil => rfl
  | cons row rows ih =>
    unfold putRows
    by_cases hk : row.1 = k
    · rw [if_pos hk, List.map_cons, List.map_cons, hk, if_pos List.mem_cons_self]
    · have hne : k ≠ row.1 := Ne.symm hk
      rw [if_neg hk, List.map_cons, List.map_cons, ih]
      by_cases hmem : k ∈ rows.map Prod.fst
      · rw [if_pos hmem, if_pos (List.mem_cons_of_mem _ hmem)]
      · have hnot : k ∉ row.1 :: rows.map Prod.fst := by
          rw [List.mem_cons]
          exact not_or.mpr ⟨hne, hmem⟩
        rw [if_neg hmem, if_neg hnot, List.cons_append]

theorem nodup_putRows {rows : List (K × V)} (k : K) (v : V) (h : (rows.map Prod.fst).Nodup) :
    ((putRows k v rows).map Prod.fst).Nodup := by
  rw [map_fst_putRows]
  by_cases hmem : k ∈ rows.map Prod.fst
  · rwa [if_pos hmem]
  · rw [if_neg hmem]
    refine List.nodup_append.mpr ⟨h, List.nodup_singleton k, ?_⟩
    rintro x hx y hy rfl
    obtain rfl : x = k := List.mem_singleton.mp hy
    exact hmem hx

/-- `insert` of a map, `INSERT … ON CONFLICT DO UPDATE`. -/
def put (t : Table K V) (k : K) (v : V) : Table K V := ⟨putRows k v t.rows, nodup_putRows k v t.unique⟩

theorem find?_putRows (k k' : K) (v : V) (rows : List (K × V)) :
    (putRows k v rows).find? (fun row => row.1 = k') =
      if k = k' then some (k, v) else rows.find? fun row => row.1 = k' := by
  induction rows with
  | nil =>
    by_cases hk : k = k'
    · simp [putRows, hk]
    · simp [putRows, hk]
  | cons row rows ih =>
    unfold putRows
    by_cases hrow : row.1 = k
    · rw [if_pos hrow]
      by_cases hk : k = k'
      · simp [hk]
      · simp [hk, hrow]
    · rw [if_neg hrow, List.find?_cons, List.find?_cons, ih]
      by_cases hk : k = k'
      · have hne : ¬ row.1 = k' := fun h => hrow (h.trans hk.symm)
        simp [hk, hne]
      · simp [hk]

theorem get?_put : (t.put k v).get? k' = if k = k' then some v else t.get? k' := by
  unfold get? put
  rw [find?_putRows]
  by_cases hk : k = k'
  · rw [if_pos hk, if_pos hk, Option.map_some]
  · rw [if_neg hk, if_neg hk]

@[simp] theorem get?_put_self : (t.put k v).get? k = some v := by
  rw [get?_put, if_pos rfl]

theorem putRows_eq_self {rows : List (K × V)} (hunique : (rows.map Prod.fst).Nodup)
    (h : (k, v) ∈ rows) : putRows k v rows = rows := by
  induction rows with
  | nil => cases h
  | cons row rows ih =>
    rw [List.map_cons, List.nodup_cons] at hunique
    unfold putRows
    rcases List.mem_cons.mp h with rfl | hmem
    · rw [if_pos rfl]
    · have hne : row.1 ≠ k := by
        rintro rfl
        exact hunique.1 (List.mem_map.mpr ⟨_, hmem, rfl⟩)
      rw [if_neg hne, ih hunique.2 hmem]

/-- An upsert changes nothing exactly when the row is there already. -/
theorem put_eq_self : t.put k v = t ↔ t.get? k = some v := by
  constructor
  · intro h
    rw [← h, get?_put_self]
  · intro h
    exact ext (putRows_eq_self t.unique (mem_rows.mpr h))

/-- `INSERT … ON CONFLICT DO NOTHING`. -/
def insertNew (t : Table K V) (k : K) (v : V) : Table K V :=
  if h : k ∈ t.rows.map Prod.fst then t
  else ⟨t.rows ++ [(k, v)], by
    rw [List.map_append, List.nodup_append]
    refine ⟨t.unique, List.nodup_singleton k, ?_⟩
    rintro x hx y hy rfl
    obtain rfl : x = k := List.mem_singleton.mp hy
    exact h hx⟩

theorem rows_insertNew_of_notMem (h : k ∉ t.rows.map Prod.fst) :
    (t.insertNew k v).rows = t.rows ++ [(k, v)] := by
  unfold insertNew
  rw [dif_neg h]

/-! ## Deletion and update -/

/-- `retain`, `DELETE … WHERE NOT p`. -/
def keep (t : Table K V) (p : K → V → Bool) : Table K V :=
  ⟨t.rows.filter fun row => p row.1 row.2, t.unique.sublist (List.filter_sublist.map _)⟩

omit [DecidableEq K] in
theorem mem_rows_keep {p : K → V → Bool} :
    (k, v) ∈ (t.keep p).rows ↔ (k, v) ∈ t.rows ∧ p k v = true :=
  List.mem_filter

/-- The keys of the rows a predicate holds of. -/
theorem mem_keysWhere {p : V → Bool} :
    k ∈ (t.rows.filter fun row => p row.2).map Prod.fst ↔ ∃ v, t.get? k = some v ∧ p v = true := by
  rw [List.mem_map]
  constructor
  · rintro ⟨⟨_, v⟩, hrow, rfl⟩
    obtain ⟨hmem, hp⟩ := List.mem_filter.mp hrow
    exact ⟨v, mem_rows.mp hmem, hp⟩
  · rintro ⟨v, hget, hp⟩
    exact ⟨(k, v), List.mem_filter.mpr ⟨mem_rows.mpr hget, hp⟩, rfl⟩

theorem get?_keep {p : K → V → Bool} : (t.keep p).get? k = (t.get? k).filter (p k) := by
  apply Option.ext
  intro v
  rw [← mem_rows, mem_rows_keep, mem_rows, Option.filter_eq_some_iff]

omit [DecidableEq K] in
theorem keep_eq_self {p : K → V → Bool} :
    t.keep p = t ↔ ∀ row ∈ t.rows, p row.1 row.2 = true := by
  rw [← List.filter_eq_self]
  constructor
  · exact fun h => congrArg rows h
  · exact fun h => ext h

/-- `iter_mut`, `UPDATE … SET`; the values may change type. -/
def alter {V' : Type} (t : Table K V) (f : K → V → V') : Table K V' :=
  ⟨t.rows.map fun row => (row.1, f row.1 row.2), by
    rw [List.map_map]
    exact t.unique⟩

theorem get?_alter {V' : Type} {f : K → V → V'} : (t.alter f).get? k = (t.get? k).map (f k) := by
  unfold get? alter
  rw [List.find?_map, Option.map_map, Option.map_map]
  cases hfind : t.rows.find? ((fun row => decide (row.1 = k)) ∘ fun row => (row.1, f row.1 row.2)) with
  | none =>
    have hfind' : t.rows.find? (fun row => decide (row.1 = k)) = none := hfind
    rw [hfind']
    rfl
  | some row =>
    have hfind' : t.rows.find? (fun row => decide (row.1 = k)) = some row := hfind
    have hkey : row.1 = k := by simpa using List.find?_some hfind'
    rw [hfind', ← hkey]
    rfl

theorem map_putRows {V' : Type} (f : K → V → V') (rows : List (K × V)) :
    (putRows k v rows).map (fun row => (row.1, f row.1 row.2)) =
      putRows k (f k v) (rows.map fun row => (row.1, f row.1 row.2)) := by
  induction rows with
  | nil => rfl
  | cons row rows ih =>
    rw [List.map_cons]
    unfold putRows
    by_cases hk : row.1 = k
    · rw [if_pos hk, if_pos hk, List.map_cons]
    · rw [if_neg hk, if_neg hk, List.map_cons, ih]

theorem alter_put {V' : Type} {f : K → V → V'} : (t.put k v).alter f = (t.alter f).put k (f k v) :=
  ext (map_putRows f t.rows)

omit [DecidableEq K] in
theorem alter_eq_self {f : K → V → V} :
    t.alter f = t ↔ ∀ row ∈ t.rows, f row.1 row.2 = row.2 := by
  have hmap : t.rows.map (fun row => (row.1, f row.1 row.2)) = t.rows ↔
      ∀ row ∈ t.rows, (row.1, f row.1 row.2) = row := by
    conv_lhs => rhs; rw [← List.map_id t.rows]
    exact List.map_inj_left
  constructor
  · intro h row hrow
    exact congrArg Prod.snd (hmap.mp (congrArg rows h) row hrow)
  · intro h
    exact ext (hmap.mpr fun row hrow => Prod.ext rfl (h row hrow))

end Keyed

/-! ## Slices -/

section Slice

variable {W I : Type} [DecidableEq W] {t : Table (W × I) V}

/-- The rows under one first key. -/
def sliceRows (w : W) (rows : List ((W × I) × V)) : List (I × V) :=
  rows.filterMap fun row => if row.1.1 = w then some (row.1.2, row.2) else none

theorem mem_sliceRows {w : W} {i : I} {v : V} {rows : List ((W × I) × V)} :
    (i, v) ∈ sliceRows w rows ↔ ((w, i), v) ∈ rows := by
  unfold sliceRows
  rw [List.mem_filterMap]
  constructor
  · rintro ⟨⟨⟨w', i'⟩, v'⟩, hmem, hrow⟩
    by_cases hw : w' = w
    · rw [if_pos hw] at hrow
      obtain ⟨rfl, rfl⟩ := Prod.mk.inj (Option.some.inj hrow)
      exact hw ▸ hmem
    · rw [if_neg hw] at hrow
      cases hrow
  · intro hmem
    exact ⟨_, hmem, if_pos rfl⟩

theorem nodup_sliceRows {w : W} {rows : List ((W × I) × V)} (h : (rows.map Prod.fst).Nodup) :
    ((sliceRows w rows).map Prod.fst).Nodup := by
  induction rows with
  | nil => exact List.nodup_nil
  | cons row rows ih =>
    rw [List.map_cons, List.nodup_cons] at h
    obtain ⟨⟨w', i⟩, v⟩ := row
    by_cases hw : w' = w
    · have hcons : sliceRows w (((w', i), v) :: rows) = (i, v) :: sliceRows w rows :=
        List.filterMap_cons_some (if_pos hw)
      rw [hcons, List.map_cons, List.nodup_cons]
      refine ⟨?_, ih h.2⟩
      intro hmem
      obtain ⟨⟨_, v'⟩, hrow, rfl⟩ := List.mem_map.mp hmem
      exact h.1 (List.mem_map.mpr ⟨_, mem_sliceRows.mp hrow, by rw [hw]⟩)
    · have hcons : sliceRows w (((w', i), v) :: rows) = sliceRows w rows :=
        List.filterMap_cons_none (if_neg hw)
      rw [hcons]
      exact ih h.2

/-- `SELECT … WHERE first key = w`, as a table under the second key. -/
def slice (t : Table (W × I) V) (w : W) : Table I V := ⟨sliceRows w t.rows, nodup_sliceRows t.unique⟩

theorem get?_slice [DecidableEq I] {w : W} {i : I} : (t.slice w).get? i = t.get? (w, i) := by
  apply Option.ext
  intro v
  rw [← mem_rows, ← mem_rows]
  exact mem_sliceRows

end Slice

end Table

end DigWallet
