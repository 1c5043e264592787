import Mathlib.Data.Fintype.Card
import Mathlib.Logic.Relation

/-!
# DigWallet.Lib.Search — a stack search with a visited set

`search goal next visited stack` pops a node, skips it when it was visited, answers `true` on a
goal, and otherwise marks it and pushes `next`.  `search_iff`: started on one node it answers
whether a goal is reachable, on every finite graph, cyclic or not.
-/

namespace DigWallet.Search

variable {α : Type} [DecidableEq α] (goal : α → Bool) (next : α → List α)

def search [Fintype α] (visited : Finset α) : List α → Bool
  | [] => false
  | i :: stack =>
    if i ∈ visited then search visited stack
    else if goal i then true
    else search (insert i visited) (next i ++ stack)
termination_by stack => (Fintype.card α - visited.card, stack.length)
decreasing_by
  · exact Prod.Lex.right _ (by simp)
  · rename_i hi _
    have hlt : visited.card < Fintype.card α :=
      Finset.card_lt_univ_of_notMem hi
    have hins : (insert i visited).card = visited.card + 1 := Finset.card_insert_of_notMem hi
    exact Prod.Lex.left _ _ (by omega)

/-- `t` can be reached from `s`. -/
abbrev Reach (s t : α) : Prop := Relation.ReflTransGen (fun i j => j ∈ next i) s t

variable {goal next} [Fintype α]

theorem exists_of_search {visited : Finset α} {stack : List α}
    (h : search goal next visited stack = true) :
    ∃ s ∈ stack, ∃ t, Reach next s t ∧ goal t = true := by
  fun_induction search goal next visited stack with
  | case1 => cases h
  | case2 visited i stack _ ih =>
    obtain ⟨s, hs, ht⟩ := ih h
    exact ⟨s, by simp [hs], ht⟩
  | case3 visited i stack _ hg => exact ⟨i, by simp, i, .refl, hg⟩
  | case4 visited i stack _ _ ih =>
    obtain ⟨s, hs, t, hst, ht⟩ := ih h
    rcases List.mem_append.mp hs with hs | hs
    · exact ⟨i, by simp, t, .head hs hst, ht⟩
    · exact ⟨s, by simp [hs], t, hst, ht⟩

/-- Visited nodes are no goals, and each of their successors is visited or waiting. -/
def Closed (goal : α → Bool) (next : α → List α) (visited : Finset α) (stack : List α) : Prop :=
  ∀ i ∈ visited, goal i = false ∧ ∀ j ∈ next i, j ∈ visited ∨ j ∈ stack

theorem not_goal_of_search {visited : Finset α} {stack : List α}
    (hc : Closed goal next visited stack) (h : search goal next visited stack = false) :
    ∀ s, s ∈ visited ∨ s ∈ stack → ∀ t, Reach next s t → goal t = false := by
  fun_induction search goal next visited stack with
  | case1 visited =>
    intro s hs t hst
    have hs : s ∈ visited := by simpa using hs
    have hmem : t ∈ visited := by
      induction hst with
      | refl => exact hs
      | tail _ hjk ih => simpa using (hc _ ih).2 _ hjk
    exact (hc t hmem).1
  | case2 visited i stack hi ih =>
    intro s hs
    refine ih (fun j hj => ⟨(hc j hj).1, fun k hk => ?_⟩) h s ?_
    · rcases (hc j hj).2 k hk with hk | hk
      · exact .inl hk
      · rcases List.mem_cons.mp hk with rfl | hk
        · exact .inl hi
        · exact .inr hk
    · rcases hs with hs | hs
      · exact .inl hs
      · rcases List.mem_cons.mp hs with rfl | hs
        · exact .inl hi
        · exact .inr hs
  | case3 => cases h
  | case4 visited i stack hi hg ih =>
    intro s hs
    refine ih (fun j hj => ?_) h s ?_
    · rcases Finset.mem_insert.mp hj with rfl | hj
      · exact ⟨by simpa using hg, fun k hk => .inr (by simp [hk])⟩
      · refine ⟨(hc j hj).1, fun k hk => ?_⟩
        rcases (hc j hj).2 k hk with hk | hk
        · exact .inl (by simp [hk])
        · rcases List.mem_cons.mp hk with rfl | hk
          · exact .inl (by simp)
          · exact .inr (by simp [hk])
    · rcases hs with hs | hs
      · exact .inl (by simp [hs])
      · rcases List.mem_cons.mp hs with rfl | hs
        · exact .inl (by simp)
        · exact .inr (by simp [hs])

/-- **The search decides reachability of a goal.** -/
theorem search_iff {s : α} :
    search goal next ∅ [s] = true ↔ ∃ t, Reach next s t ∧ goal t = true := by
  constructor
  · intro h
    obtain ⟨s', hs', ht⟩ := exists_of_search h
    obtain rfl : s' = s := by simpa using hs'
    exact ht
  · rintro ⟨t, hst, ht⟩
    by_contra h
    have hc : Closed goal next ∅ [s] := by simp [Closed]
    have hf := not_goal_of_search hc (by simpa using h) s (by simp) t hst
    rw [ht] at hf
    cases hf

end DigWallet.Search
