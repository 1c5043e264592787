import Mathlib.Algebra.BigOperators.Group.List.Basic
import Mathlib.Algebra.Group.Prod
import Mathlib.Algebra.GroupWithZero.Nat
import Mathlib.Tactic.SplitIfs

/-!
# DigWallet.Lib.Checked — checked loops as refinements of additive increments

A checked loop threads a state `σ` through steps that may refuse.  `abs : σ → M` reads the state as
an element of an additive monoid, `Fits` says which elements the machine state can hold.

`Posts abs Fits E f R`: the step `f` adds an increment of `R`, and it refuses only when there is no
such increment or when the sum no longer fits; every refusal satisfies `E`.

Rules: `Posts.ok`, `Posts.error`, `Posts.congr`, `Posts.checked` (one checked addition),
`Posts.after` (an unchecked update), `Posts.bind` (increments add), `Posts.read` and `Posts.guard`
(a computation, a test that does not touch the state), `Posts.tick` and `Posts.counted` (a local counter, bounded while it
runs and tested at the end), `Posts.foldlM` (one increment for each element).
-/

namespace DigWallet.Checked

variable {σ ε M : Type} [AddMonoid M]

/-- `f` adds to the state an increment of `R`, whenever the sum fits. -/
structure Posts (abs : σ → M) (Fits : M → Prop) (E : ε → Prop) (f : σ → Except ε σ)
    (R : M → Prop) : Prop where
  sound : ∀ {s s'}, Fits (abs s) → f s = .ok s' →
    ∃ d, R d ∧ abs s' = abs s + d ∧ Fits (abs s')
  complete : ∀ {s d}, R d → Fits (abs s + d) → ∃ s', f s = .ok s' ∧ abs s' = abs s + d
  fails : ∀ {s e}, f s = .error e → E e

variable {abs : σ → M} {Fits : M → Prop} {E : ε → Prop}

theorem Posts.congr {f : σ → Except ε σ} {R R' : M → Prop} (h : Posts abs Fits E f R)
    (hR : ∀ d, R d ↔ R' d) : Posts abs Fits E f R' := by
  obtain rfl : R = R' := funext fun d => propext (hR d)
  exact h

/-- The step that changes nothing adds zero. -/
theorem Posts.ok : Posts abs Fits E (.ok : σ → Except ε σ) (· = 0) where
  sound := by
    rintro s s' hs ⟨⟩
    exact ⟨0, rfl, by simp, hs⟩
  complete := by
    rintro s d rfl -
    exact ⟨s, rfl, by simp⟩
  fails := by simp

/-- A step that always refuses has no increment. -/
theorem Posts.error {e : ε} (he : E e) :
    Posts abs Fits E (fun _ => .error e) (fun _ => False) where
  sound := by simp
  complete := by simp
  fails := by
    rintro s e' ⟨⟩
    exact he

/-- A single checked addition: the test says that the sum fits. -/
theorem Posts.checked {f : σ → Except ε σ} (g : σ → σ) (test : σ → Prop) [DecidablePred test]
    (e : σ → ε) {δ : M} (hf : ∀ s, f s = if test s then .ok (g s) else .error (e s))
    (htest : ∀ s, test s ↔ Fits (abs s + δ)) (hg : ∀ s, test s → abs (g s) = abs s + δ)
    (he : ∀ s, E (e s)) : Posts abs Fits E f (· = δ) where
  sound := by
    intro s s' _ h
    rw [hf] at h
    split_ifs at h with ht
    cases h
    exact ⟨δ, rfl, hg s ht, by rw [hg s ht]; exact (htest s).mp ht⟩
  complete := by
    rintro s d rfl hfit
    have ht := (htest s).mpr hfit
    exact ⟨g s, by rw [hf, if_pos ht], hg s ht⟩
  fails := by
    intro s e' h
    rw [hf] at h
    split_ifs at h
    cases h
    exact he s

/-- An unchecked update before a step. -/
theorem Posts.after {f : σ → Except ε σ} {R : M → Prop} (g : σ → σ) (δ : M)
    (hg : ∀ s, abs (g s) = abs s + δ) (hfit : ∀ s, Fits (abs s) → Fits (abs s + δ))
    (hf : Posts abs Fits E f R) :
    Posts abs Fits E (fun s => f (g s)) (fun d => ∃ b, R b ∧ d = δ + b) where
  sound := by
    intro s s' hs h
    obtain ⟨b, hb, hb', hs'⟩ := hf.sound (hg s ▸ hfit s hs) h
    exact ⟨δ + b, ⟨b, hb, rfl⟩, by rw [hb', hg, add_assoc], hs'⟩
  complete := by
    rintro s d ⟨b, hb, rfl⟩ hd
    rw [← add_assoc, ← hg] at hd
    obtain ⟨s', hs', hb'⟩ := hf.complete hb hd
    exact ⟨s', hs', by rw [hb', hg, add_assoc]⟩
  fails := fun h => hf.fails h

/-- An unchecked update alone. -/
theorem Posts.pure (g : σ → σ) (δ : M) (hg : ∀ s, abs (g s) = abs s + δ)
    (hfit : ∀ s, Fits (abs s) → Fits (abs s + δ)) :
    Posts abs Fits E (fun s => .ok (g s)) (· = δ) :=
  (Posts.after g δ hg hfit Posts.ok).congr fun d => by simp

/-- **Sequencing**: the increments add up. -/
theorem Posts.bind {f g : σ → Except ε σ} {R S : M → Prop}
    (hmono : ∀ a b, Fits (a + b) → Fits a) (hf : Posts abs Fits E f R)
    (hg : Posts abs Fits E g S) :
    Posts abs Fits E (fun s => f s >>= g) (fun d => ∃ a b, R a ∧ S b ∧ d = a + b) where
  sound := by
    intro s s' hs h
    cases hfs : f s with
    | error e => rw [hfs] at h; cases h
    | ok t =>
      rw [hfs] at h
      obtain ⟨a, ha, hta, ht⟩ := hf.sound hs hfs
      obtain ⟨b, hb, hsb, hs'⟩ := hg.sound ht h
      exact ⟨a + b, ⟨a, b, ha, hb, rfl⟩, by rw [hsb, hta, add_assoc], hs'⟩
  complete := by
    rintro s d ⟨a, b, ha, hb, rfl⟩ hfit
    rw [← add_assoc] at hfit
    obtain ⟨t, hft, hta⟩ := hf.complete ha (hmono _ _ hfit)
    obtain ⟨s', hgs, hsb⟩ := hg.complete hb (hta ▸ hfit)
    refine ⟨s', ?_, by rw [hsb, hta, add_assoc]⟩
    rw [hft]
    exact hgs
  fails := by
    intro s e h
    cases hfs : f s with
    | error e' =>
      rw [hfs] at h
      cases h
      exact hf.fails hfs
    | ok t =>
      rw [hfs] at h
      exact hg.fails h

/-- `Posts.bind` after a step that ends in a pure update. -/
theorem Posts.update {α : Type} {c : σ → Except ε α} {u : σ → α → σ} {g : σ → Except ε σ}
    {R S : M → Prop} (hmono : ∀ a b, Fits (a + b) → Fits a)
    (hf : Posts abs Fits E (fun s => c s >>= fun x => .ok (u s x)) R)
    (hg : Posts abs Fits E g S) :
    Posts abs Fits E (fun s => c s >>= fun x => g (u s x))
      (fun d => ∃ a b, R a ∧ S b ∧ d = a + b) := by
  have hfun : (fun s => c s >>= fun x => g (u s x)) =
      fun s => (c s >>= fun x => .ok (u s x)) >>= g := by
    funext s
    cases c s <;> rfl
  rw [hfun]
  exact Posts.bind hmono hf hg

/-- A computation that does not touch the state, followed by a step that uses its result. -/
theorem Posts.read {α : Type} {c : Except ε α} {f : α → σ → Except ε σ} {R : α → M → Prop}
    (hc : ∀ e, c = .error e → E e) (hf : ∀ x, c = .ok x → Posts abs Fits E (f x) (R x)) :
    Posts abs Fits E (fun s => c >>= fun x => f x s) (fun d => ∃ x, c = .ok x ∧ R x d) := by
  cases c with
  | error e =>
    exact (Posts.error (hc e rfl)).congr (by simp)
  | ok x =>
    exact (hf x rfl).congr (by simp)

/-- A test before a step. -/
theorem Posts.guard {c : Except ε Unit} {f : σ → Except ε σ} {R : M → Prop} {P : Prop}
    (hc : ∀ e, c = .error e → E e) (hP : c = .ok () ↔ P) (hf : P → Posts abs Fits E f R) :
    Posts abs Fits E (fun s => c >>= fun _ => f s) (fun d => P ∧ R d) := by
  refine (Posts.read (f := fun _ => f) hc fun _ hx => hf (hP.mp hx)).congr ?_
  intro d
  simp [hP]

/-- Count one step, refusing past `bound`. -/
theorem Posts.tick {g : σ → Except ε σ} {R : M → Prop} (bound : ℕ) {e : ε} (he : E e)
    (hg : Posts abs Fits E g R) :
    Posts (fun p : σ × ℕ => (abs p.1, p.2)) (fun m => Fits m.1 ∧ m.2 ≤ bound) E
      (fun p => if p.2 + 1 ≤ bound then g p.1 >>= fun s => .ok (s, p.2 + 1) else .error e)
      (fun d => R d.1 ∧ d.2 = 1) where
  sound := by
    rintro ⟨s, n⟩ p hs h
    dsimp only at h
    split_ifs at h with hn
    cases hgs : g s with
    | error e' => rw [hgs] at h; cases h
    | ok t =>
      rw [hgs] at h
      cases h
      obtain ⟨d, hR, hd, hfit⟩ := hg.sound hs.1 hgs
      exact ⟨(d, 1), ⟨hR, rfl⟩, by rw [hd, Prod.mk_add_mk], hfit, hn⟩
  complete := by
    rintro ⟨s, n⟩ ⟨d, k⟩ ⟨hR, rfl⟩ hfit
    obtain ⟨t, hgs, hd⟩ := hg.complete hR hfit.1
    have hn : n + 1 ≤ bound := hfit.2
    refine ⟨(t, n + 1), ?_, by rw [hd, Prod.mk_add_mk]⟩
    dsimp only at hgs ⊢
    rw [if_pos hn, hgs]
    rfl
  fails := by
    rintro ⟨s, n⟩ e' h
    dsimp only at h
    split_ifs at h with hn
    · cases hgs : g s with
      | error e'' =>
        rw [hgs] at h
        cases h
        exact hg.fails hgs
      | ok t => rw [hgs] at h; cases h
    · cases h
      exact he

/-- **Local counter**: it starts at 0, the step keeps it within `bound`, a test reads it at the end. -/
theorem Posts.counted {f : σ × ℕ → Except ε (σ × ℕ)} {R : M × ℕ → Prop} {bound : ℕ}
    (test : ℕ → Bool) {e : ε} (he : E e)
    (hf : Posts (fun p : σ × ℕ => (abs p.1, p.2)) (fun m => Fits m.1 ∧ m.2 ≤ bound) E f R) :
    Posts abs Fits E
      (fun s => f (s, 0) >>= fun p => if test p.2 then .ok p.1 else .error e)
      (fun d => ∃ n, R (d, n) ∧ n ≤ bound ∧ test n = true) where
  sound := by
    intro s s' hs h
    cases hfs : f (s, 0) with
    | error e' => rw [hfs] at h; cases h
    | ok p =>
      obtain ⟨t, n⟩ := p
      rw [hfs] at h
      obtain ⟨⟨d, k⟩, hR, hadd, hfit⟩ := hf.sound ⟨hs, Nat.zero_le _⟩ hfs
      simp only [Prod.mk_add_mk, Prod.mk.injEq, Nat.zero_add] at hadd
      obtain ⟨hd, rfl⟩ := hadd
      simp only [Bind.bind, Except.bind] at h
      split_ifs at h with ht
      cases h
      exact ⟨d, ⟨n, hR, hfit.2, ht⟩, hd, hfit.1⟩
  complete := by
    rintro s d ⟨n, hR, hn, ht⟩ hfit
    obtain ⟨⟨s', k⟩, hfs, hadd⟩ :=
      hf.complete (s := (s, 0)) hR ⟨hfit, by simpa using hn⟩
    simp only [Prod.mk_add_mk, Prod.mk.injEq, Nat.zero_add] at hadd
    obtain ⟨hd, rfl⟩ := hadd
    refine ⟨s', ?_, hd⟩
    rw [hfs]
    simp [Bind.bind, Except.bind, ht]
  fails := by
    intro s e' h
    cases hfs : f (s, 0) with
    | error e'' =>
      rw [hfs] at h
      cases h
      exact hf.fails hfs
    | ok p =>
      rw [hfs] at h
      simp only [Bind.bind, Except.bind] at h
      split_ifs at h
      cases h
      exact he

/-- **Loop**: one increment for each element, summed in order. -/
theorem Posts.foldlM {α : Type} {f : σ → α → Except ε σ} {R : α → M → Prop}
    (hmono : ∀ a b, Fits (a + b) → Fits a) (l : List α)
    (hf : ∀ x ∈ l, Posts abs Fits E (f · x) (R x)) :
    Posts abs Fits E (fun s => l.foldlM f s) (fun d => ∃ ds, List.Forall₂ R l ds ∧ d = ds.sum) := by
  induction l with
  | nil => exact Posts.ok.congr (by simp)
  | cons x l ih =>
    have hx : Posts abs Fits E (f · x) (R x) := hf x (by simp)
    have hl := ih fun y hy => hf y (by simp [hy])
    refine (Posts.bind hmono hx hl).congr ?_
    intro d
    constructor
    · rintro ⟨a, b, ha, ⟨ds, hds, rfl⟩, rfl⟩
      exact ⟨a :: ds, .cons ha hds, by simp⟩
    · rintro ⟨_, hds, rfl⟩
      cases hds with
      | cons ha hds => exact ⟨_, _, ha, ⟨_, hds, rfl⟩, by simp⟩

/-- The loop rule when each element has at most one increment. -/
theorem Posts.foldlM_map {α : Type} {f : σ → α → Except ε σ} {P : α → Prop} {δ : α → M}
    (hmono : ∀ a b, Fits (a + b) → Fits a) (l : List α)
    (hf : ∀ x ∈ l, Posts abs Fits E (f · x) (fun d => P x ∧ d = δ x)) :
    Posts abs Fits E (fun s => l.foldlM f s) (fun d => (∀ x ∈ l, P x) ∧ d = (l.map δ).sum) := by
  refine (Posts.foldlM hmono l hf).congr ?_
  intro d
  have key : ∀ (l : List α) (ds : List M),
      List.Forall₂ (fun x d => P x ∧ d = δ x) l ds ↔ (∀ x ∈ l, P x) ∧ ds = l.map δ := by
    intro l
    induction l with
    | nil => simp
    | cons x l ih =>
      intro ds
      cases ds with
      | nil => simp
      | cons d ds =>
        simp only [List.forall₂_cons, ih, List.forall_mem_cons, List.map_cons, List.cons.injEq]
        tauto
  constructor
  · rintro ⟨ds, hds, rfl⟩
    obtain ⟨hP, rfl⟩ := (key l ds).mp hds
    exact ⟨hP, rfl⟩
  · rintro ⟨hP, rfl⟩
    exact ⟨_, (key l _).mpr ⟨hP, rfl⟩, rfl⟩

end DigWallet.Checked
