import Mathlib.Data.List.Induction
import DigWallet.Lib.Table

/-!
# DigWallet.Lib.Expiry — a table whose rows expire

Every value carries the time it was put at.  A sweep drops what is `ttl` old or older, and an access
sweeps first.  `Follows` ties the table to the accesses made of it: what any later sweep leaves under
a key is the last value put there and not removed since, while it is fresh.
-/

namespace DigWallet

section Expiry

variable {K V : Type} [DecidableEq K] {stamp : V → ℕ} {ttl : ℕ}

/-- Younger than `ttl`; a stamp ahead of `now` has age 0. -/
def isFresh (stamp : V → ℕ) (ttl now : ℕ) (v : V) : Bool := now - stamp v < ttl

theorem isFresh_of_le {now now' : ℕ} {v : V} (hle : now ≤ now')
    (h : isFresh stamp ttl now' v = true) : isFresh stamp ttl now v = true := by
  have hage := of_decide_eq_true h
  apply decide_eq_true
  omega

/-- Sweeping twice is sweeping the second time. -/
theorem filter_isFresh {now now' : ℕ} (hle : now ≤ now') (held : Option V) :
    (held.filter (isFresh stamp ttl now)).filter (isFresh stamp ttl now') =
      held.filter (isFresh stamp ttl now') := by
  rw [Option.filter_filter]
  congr 1
  funext v
  by_cases hlater : isFresh stamp ttl now' v = true
  · simp [hlater, isFresh_of_le hle hlater]
  · simp [hlater]

/-! ## The table -/

namespace Table

variable {t : Table K V}

/-- `retain` of the fresh rows. -/
def sweep (stamp : V → ℕ) (ttl now : ℕ) (t : Table K V) : Table K V :=
  t.keep fun _ v => isFresh stamp ttl now v

/-- `remove`. -/
def erase (t : Table K V) (k : K) : Table K V := t.keep fun k' _ => k' ≠ k

theorem get?_sweep {now : ℕ} {k : K} :
    (t.sweep stamp ttl now).get? k = (t.get? k).filter (isFresh stamp ttl now) :=
  get?_keep

theorem get?_erase {k k' : K} : (t.erase k).get? k' = if k = k' then none else t.get? k' := by
  unfold erase
  rw [get?_keep]
  by_cases hk : k = k'
  · simp [hk]
  · rw [if_neg hk]
    cases t.get? k' <;> simp [Option.filter, Ne.symm hk]

omit [DecidableEq K] in
theorem isFresh_of_mem_sweep {now : ℕ} {row : K × V} (h : row ∈ (t.sweep stamp ttl now).rows) :
    now - stamp row.2 < ttl :=
  of_decide_eq_true (List.mem_filter.mp h).2

end Table

/-! ## The accesses -/

inductive Access (K V : Type)
  | put (k : K) (v : V)
  | remove (k : K)

def Access.key : Access K V → K
  | put k _ => k
  | remove k => k

/-- What one more access leaves under a key. -/
def Access.leave (k : K) (held : Option V) : Access K V → Option V
  | put k' v => if k' = k then some v else held
  | remove k' => if k' = k then none else held

/-- What the accesses left under a key, were nothing swept. -/
def held (accesses : List (Access K V)) (k : K) : Option V :=
  accesses.foldl (Access.leave k) none

variable {accesses : List (Access K V)} {k : K}

theorem held_concat (access : Access K V) :
    held (accesses ++ [access]) k = access.leave k (held accesses k) := by
  unfold held
  rw [List.foldl_append]
  rfl

theorem leave_of_ne {access : Access K V} (h : access.key ≠ k) (kept : Option V) :
    access.leave k kept = kept := by
  cases access with
  | put k' v => exact if_neg h
  | remove k' => exact if_neg h

/-- The last access of the key put the value there. -/
theorem held_eq_some {v : V} :
    held accesses k = some v ↔
      ∃ earlier later, accesses = earlier ++ .put k v :: later ∧
        ∀ access ∈ later, access.key ≠ k := by
  induction accesses using List.reverseRecOn with
  | nil =>
    constructor
    · intro h
      cases h
    · rintro ⟨earlier, later, h, -⟩
      exact absurd h.symm (by simp)
  | append_singleton accesses access ih =>
    rw [held_concat]
    constructor
    · intro h
      by_cases hkey : access.key = k
      · cases access with
        | put k' v' =>
          obtain rfl : k' = k := hkey
          obtain rfl : v' = v := Option.some.inj ((if_pos rfl).symm.trans h)
          exact ⟨accesses, [], rfl, fun access hmem => absurd hmem List.not_mem_nil⟩
        | remove k' => exact nomatch (if_pos hkey).symm.trans h
      · rw [leave_of_ne hkey] at h
        obtain ⟨earlier, later, rfl, hlater⟩ := ih.mp h
        refine ⟨earlier, later ++ [access], by simp, ?_⟩
        intro other hother
        rcases List.mem_append.mp hother with hother | hother
        · exact hlater other hother
        · rw [List.mem_singleton.mp hother]
          exact hkey
    · rintro ⟨earlier, later, hsplit, hlater⟩
      rcases List.eq_nil_or_concat' later with rfl | ⟨later, last, rfl⟩
      · obtain ⟨-, hlast⟩ := List.append_inj' hsplit rfl
        obtain rfl := List.singleton_inj.mp hlast
        exact if_pos rfl
      · have hsplit' : accesses ++ [access] = (earlier ++ .put k v :: later) ++ [last] := by
          rw [hsplit]
          simp
        obtain ⟨haccesses, hlast⟩ := List.append_inj' hsplit' rfl
        obtain rfl := List.singleton_inj.mp hlast
        rw [leave_of_ne (hlater access (by simp))]
        exact ih.mpr ⟨earlier, later, haccesses,
          fun other hother => hlater other (List.mem_append_left _ hother)⟩

/-! ## The table follows its accesses -/

/-- What any sweep from `clock` on leaves is what is held and fresh. -/
def Follows (stamp : V → ℕ) (ttl : ℕ) (t : Table K V) (accesses : List (Access K V)) (clock : ℕ) :
    Prop :=
  ∀ now, clock ≤ now → ∀ k,
    (t.sweep stamp ttl now).get? k = (held accesses k).filter (isFresh stamp ttl now)

variable {t : Table K V} {clock : ℕ}

theorem follows_empty : Follows stamp ttl (.empty : Table K V) [] clock := by
  intro now _ k
  rfl

theorem Follows.later {clock' : ℕ} (h : Follows stamp ttl t accesses clock) (hle : clock ≤ clock') :
    Follows stamp ttl t accesses clock' := by
  intro now hnow k
  exact h now (Nat.le_trans hle hnow) k

/-- A sweep at the clock and any later one. -/
theorem Follows.get?_sweep_sweep (h : Follows stamp ttl t accesses clock) {now : ℕ}
    (hnow : clock ≤ now) (k : K) :
    ((t.sweep stamp ttl clock).get? k).filter (isFresh stamp ttl now) =
      (held accesses k).filter (isFresh stamp ttl now) := by
  rw [h clock (Nat.le_refl _) k, filter_isFresh hnow]

theorem Follows.sweep (h : Follows stamp ttl t accesses clock) :
    Follows stamp ttl (t.sweep stamp ttl clock) accesses clock := by
  intro now hnow k
  rw [Table.get?_sweep]
  exact h.get?_sweep_sweep hnow k

/-- An access sweeps, and leaves `after` under its key. -/
theorem Follows.access (h : Follows stamp ttl t accesses clock) {t' : Table K V} {k : K}
    {after : Option V} (access : Access K V)
    (htable : ∀ k', t'.get? k' = if k = k' then after else (t.sweep stamp ttl clock).get? k')
    (hleave : ∀ k' kept, access.leave k' kept = if k = k' then after else kept) :
    Follows stamp ttl t' (accesses ++ [access]) clock := by
  intro now hnow k'
  rw [Table.get?_sweep, htable, held_concat, hleave]
  by_cases hk : k = k'
  · rw [if_pos hk, if_pos hk]
  · rw [if_neg hk, if_neg hk]
    exact h.get?_sweep_sweep hnow k'

theorem Follows.put (h : Follows stamp ttl t accesses clock) (k : K) (v : V) :
    Follows stamp ttl ((t.sweep stamp ttl clock).put k v) (accesses ++ [.put k v]) clock :=
  h.access (.put k v) (fun _ => Table.get?_put) fun _ _ => rfl

theorem Follows.remove (h : Follows stamp ttl t accesses clock) (k : K) :
    Follows stamp ttl ((t.sweep stamp ttl clock).erase k) (accesses ++ [.remove k]) clock :=
  h.access (.remove k) (fun _ => Table.get?_erase) fun _ _ => rfl

end Expiry

end DigWallet
