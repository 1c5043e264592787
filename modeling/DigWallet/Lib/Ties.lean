import Mathlib.Data.Nat.Find
import Mathlib.Logic.Relation
import Mathlib.Order.Basic

/-!
# DigWallet.Lib.Ties — reaching a goal through keys that several nodes hold

A node is tied when it is a goal, when a `free` edge leads to a tied node, or when it asks for a key
that resolves to a tied node.  A resolution picks one holder for each key.

Rules: `Must.tied` and `exists_resolution_must` (a node is tied under every resolution iff `Must`),
`Tied.may` and `exists_resolution_may` (one resolution ties every node that some resolution ties),
`tied_iff_reach` (where no key has two holders, a node is tied iff it reaches a goal).
-/

namespace DigWallet.Ties

variable {α κ : Type}

structure Graph (α κ : Type) where
  goal : α → Prop
  free : α → α → Prop
  asks : α → κ → Prop
  holds : κ → α → Prop

/-- `ρ` picks a holder for each key that has one. -/
structure Resolves (G : Graph α κ) (ρ : κ → Option α) : Prop where
  sound : ∀ {k a}, ρ k = some a → G.holds k a
  total : ∀ {k a}, G.holds k a → ∃ b, ρ k = some b

inductive Tied (G : Graph α κ) (ρ : κ → Option α) : α → Prop
  | goal {a} (h : G.goal a) : Tied G ρ a
  | free {a b} (h : G.free a b) (hb : Tied G ρ b) : Tied G ρ a
  | ask {a b k} (h : G.asks a k) (hk : ρ k = some b) (hb : Tied G ρ b) : Tied G ρ a

/-- Tied whichever holders are picked. -/
inductive Must (G : Graph α κ) : α → Prop
  | goal {a} (h : G.goal a) : Must G a
  | free {a b} (h : G.free a b) (hb : Must G b) : Must G a
  | ask {a b k} (h : G.asks a k) (hb : G.holds k b) (hall : ∀ c, G.holds k c → Must G c) : Must G a

/-- Tied for some choice of holders, within `n` steps. -/
inductive MayWithin (G : Graph α κ) : ℕ → α → Prop
  | goal {n a} (h : G.goal a) : MayWithin G n a
  | free {n a b} (h : G.free a b) (hb : MayWithin G n b) : MayWithin G (n + 1) a
  | ask {n a b k} (h : G.asks a k) (hk : G.holds k b) (hb : MayWithin G n b) : MayWithin G (n + 1) a

/-- Tied for some choice of holders. -/
def May (G : Graph α κ) (a : α) : Prop := ∃ n, MayWithin G n a

section

variable {G : Graph α κ} {ρ : κ → Option α} {a : α}

theorem Must.tied (hρ : Resolves G ρ) (h : Must G a) : Tied G ρ a := by
  induction h with
  | goal h => exact .goal h
  | free h _ ih => exact .free h ih
  | ask h hb _ ih =>
    obtain ⟨c, hc⟩ := hρ.total hb
    exact .ask h hc (ih c (hρ.sound hc))

theorem Tied.may (hρ : Resolves G ρ) (h : Tied G ρ a) : May G a := by
  induction h with
  | goal h => exact ⟨0, .goal h⟩
  | free h _ ih =>
    obtain ⟨n, hn⟩ := ih
    exact ⟨n + 1, .free h hn⟩
  | ask h hk _ ih =>
    obtain ⟨n, hn⟩ := ih
    exact ⟨n + 1, .ask h (hρ.sound hk) hn⟩

/-- A choice of holders with a property, where there is one. -/
theorem exists_resolves (G : Graph α κ) (P : κ → α → Prop) : ∃ ρ, Resolves G ρ ∧
    ∀ {k a}, ρ k = some a → (∃ b, G.holds k b ∧ P k b) → P k a := by
  classical
  refine ⟨fun k => if h : ∃ b, G.holds k b ∧ P k b then some h.choose
    else if h : ∃ b, G.holds k b then some h.choose else none, ⟨?_, ?_⟩, ?_⟩
  · intro k a hk
    split_ifs at hk with hP hh
    · cases hk
      exact hP.choose_spec.1
    · cases hk
      exact hh.choose_spec
  · intro k a ha
    split_ifs with hP hh
    · exact ⟨_, rfl⟩
    · exact ⟨_, rfl⟩
    · exact absurd ⟨a, ha⟩ hh
  · intro k a hk hP
    simp only [dif_pos hP] at hk
    cases hk
    exact hP.choose_spec.2

/-- The adversary's resolution: it picks holders that need not be tied. -/
theorem exists_resolution_must (G : Graph α κ) :
    ∃ ρ, Resolves G ρ ∧ ∀ a, Tied G ρ a → Must G a := by
  obtain ⟨ρ, hρ, hpick⟩ := exists_resolves G fun _ a => ¬ Must G a
  refine ⟨ρ, hρ, fun a h => ?_⟩
  induction h with
  | goal h => exact .goal h
  | free h _ ih => exact .free h ih
  | ask h hk _ ih =>
    refine .ask h (hρ.sound hk) ?_
    intro c hc
    by_contra hnot
    exact hpick hk ⟨c, hc, hnot⟩ ih

theorem MayWithin.mono {n m : ℕ} (h : MayWithin G n a) (hnm : n ≤ m) : MayWithin G m a := by
  induction h generalizing m with
  | goal h => exact .goal h
  | free h _ ih =>
    obtain ⟨m, rfl⟩ : ∃ m', m = m' + 1 := ⟨m - 1, by omega⟩
    exact .free h (ih (by omega))
  | ask h hk _ ih =>
    obtain ⟨m, rfl⟩ : ∃ m', m = m' + 1 := ⟨m - 1, by omega⟩
    exact .ask h hk (ih (by omega))

/-- `a` is as close to a goal as any holder of `k`. -/
def Closest (G : Graph α κ) (k : κ) (a : α) : Prop :=
  ∀ n b, G.holds k b → MayWithin G n b → MayWithin G n a

theorem exists_closest {k : κ} (h : G.holds k a) : ∃ b, G.holds k b ∧ Closest G k b := by
  classical
  by_cases hmay : ∃ n b, G.holds k b ∧ MayWithin G n b
  · obtain ⟨b, hb, hwithin⟩ := Nat.find_spec hmay
    refine ⟨b, hb, fun n c hc hn => hwithin.mono ?_⟩
    exact Nat.find_min' hmay ⟨c, hc, hn⟩
  · exact ⟨a, h, fun n c hc hn => absurd ⟨n, c, hc, hn⟩ hmay⟩

/-- The best resolution: each key goes to the holder closest to a goal. -/
theorem exists_resolution_may (G : Graph α κ) :
    ∃ ρ, Resolves G ρ ∧ ∀ a, May G a → Tied G ρ a := by
  obtain ⟨ρ, hρ, hpick⟩ := exists_resolves G (Closest G)
  have key : ∀ n a, MayWithin G n a → Tied G ρ a := by
    intro n
    induction n with
    | zero =>
      rintro a (h | _ | _)
      exact .goal h
    | succ n ih =>
      intro a h
      cases h with
      | goal h => exact .goal h
      | free h hb => exact .free h (ih _ hb)
      | ask h hk hb =>
        obtain ⟨c, hc⟩ := hρ.total hk
        have hclosest := hpick hc (exists_closest hk)
        exact .ask h hc (ih c (hclosest n _ hk hb))
  refine ⟨ρ, hρ, fun a h => ?_⟩
  obtain ⟨n, hn⟩ := h
  exact key n a hn

/-- Both kinds of steps, a key leading to each of its holders. -/
def Graph.Edge (G : Graph α κ) (a b : α) : Prop := G.free a b ∨ ∃ k, G.asks a k ∧ G.holds k b

theorem tied_iff_reach (hρ : Resolves G ρ)
    (hunique : ∀ {k a b}, G.holds k a → G.holds k b → a = b) :
    Tied G ρ a ↔ ∃ t, Relation.ReflTransGen G.Edge a t ∧ G.goal t := by
  constructor
  · intro h
    induction h with
    | @goal a h => exact ⟨a, .refl, h⟩
    | free h _ ih =>
      obtain ⟨t, hreach, hgoal⟩ := ih
      exact ⟨t, .head (.inl h) hreach, hgoal⟩
    | ask h hk _ ih =>
      obtain ⟨t, hreach, hgoal⟩ := ih
      exact ⟨t, .head (.inr ⟨_, h, hρ.sound hk⟩) hreach, hgoal⟩
  · rintro ⟨t, hreach, hgoal⟩
    induction hreach using Relation.ReflTransGen.head_induction_on with
    | refl => exact .goal hgoal
    | head hstep _ ih =>
      rcases hstep with hfree | ⟨k, hasks, hholds⟩
      · exact .free hfree ih
      · obtain ⟨c, hc⟩ := hρ.total hholds
        obtain rfl := hunique (hρ.sound hc) hholds
        exact .ask hasks hc ih

end

end DigWallet.Ties
