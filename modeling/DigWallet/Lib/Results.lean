import Mathlib.Data.List.Forall2
import Mathlib.Data.List.Perm.Basic

/-!
# DigWallet.Lib.Results — when a computation in `Except` succeeds

One equivalence for each way of sequencing: `bind_eq_ok`, `guard_bind_eq_ok`, `forM_eq_ok` and
`mapM_eq_ok`, the last as a `Forall₂` between the inputs and the outputs.  `ErrorsIn` bounds the
errors instead, and passes through the same sequencing.
-/

namespace DigWallet

variable {ε α β : Type}

theorem toOption_eq_some {c : Except ε α} {a : α} : c.toOption = some a ↔ c = .ok a := by
  cases c <;> simp [Except.toOption]

theorem bind_eq_ok {c : Except ε α} {f : α → Except ε β} {b : β} :
    (c >>= f) = .ok b ↔ ∃ a, c = .ok a ∧ f a = .ok b := by
  cases c <;> simp [bind, Except.bind]

theorem bind_eq_error {c : Except ε α} {f : α → Except ε β} {e : ε} :
    (c >>= f) = .error e ↔ c = .error e ∨ ∃ a, c = .ok a ∧ f a = .error e := by
  cases c <;> simp [bind, Except.bind]

theorem guard_bind_eq_ok {c : Except ε Unit} {f : Except ε α} {a : α} :
    (c >>= fun _ => f) = .ok a ↔ c = .ok () ∧ f = .ok a := by
  rw [bind_eq_ok]
  constructor
  · rintro ⟨_, h⟩
    exact h
  · intro h
    exact ⟨(), h⟩

theorem forM_eq_ok {f : α → Except ε Unit} {l : List α} {u : Unit} :
    l.forM f = .ok u ↔ ∀ a ∈ l, f a = .ok () := by
  induction l with
  | nil => simp [pure, Except.pure]
  | cons a l ih =>
    show (f a >>= fun _ => l.forM f) = .ok u ↔ _
    rw [guard_bind_eq_ok, ih, List.forall_mem_cons]

theorem map_eq_ok {f : α → β} {r : Except ε α} {b : β} :
    r.map f = .ok b ↔ ∃ a, r = .ok a ∧ f a = b := by
  cases r <;> simp [Except.map]

theorem mapM_eq_ok {f : α → Except ε β} {l : List α} {out : List β} :
    l.mapM f = .ok out ↔ List.Forall₂ (fun a b => f a = .ok b) l out := by
  induction l generalizing out with
  | nil => cases out <;> simp [pure, Except.pure]
  | cons a l ih =>
    rw [List.mapM_cons, bind_eq_ok]
    simp only [bind_eq_ok, pure, Except.pure, Except.ok.injEq, ih]
    constructor
    · rintro ⟨b, hb, bs, hbs, rfl⟩
      exact .cons hb hbs
    · rintro (_ | ⟨hb, hbs⟩)
      exact ⟨_, hb, _, hbs, rfl⟩

theorem mapM_singleton_eq_ok {f : α → Except ε β} {a : α} {out : List β} :
    [a].mapM f = .ok out ↔ ∃ b, f a = .ok b ∧ out = [b] := by
  rw [mapM_eq_ok, List.forall₂_cons_left_iff]
  constructor
  · rintro ⟨b, rest, hb, hrest, rfl⟩
    rw [List.forall₂_nil_left_iff.mp hrest]
    exact ⟨b, hb, rfl⟩
  · rintro ⟨b, hb, rfl⟩
    exact ⟨b, [], hb, .nil, rfl⟩

theorem exists_mem_left {R : α → β → Prop} {l : List α} {l' : List β} (h : List.Forall₂ R l l')
    {b : β} (hb : b ∈ l') : ∃ a ∈ l, R a b := by
  induction h with
  | nil => cases hb
  | @cons a b' l l' hab _ ih =>
    rcases List.mem_cons.mp hb with rfl | hb
    · exact ⟨a, List.mem_cons_self, hab⟩
    · obtain ⟨a', ha', hab'⟩ := ih hb
      exact ⟨a', List.mem_cons_of_mem _ ha', hab'⟩

theorem exists_mem_right {R : α → β → Prop} {l : List α} {l' : List β} (h : List.Forall₂ R l l')
    {a : α} (ha : a ∈ l) : ∃ b ∈ l', R a b := exists_mem_left h.flip ha

theorem exists_mem_of_mapM {f : α → Except ε β} {l : List α} {out : List β} {b : β}
    (h : l.mapM f = .ok out) (hb : b ∈ out) : ∃ a ∈ l, f a = .ok b :=
  exists_mem_left (mapM_eq_ok.mp h) hb

/-- Equal outputs come from equal inputs when each one does. -/
theorem mapM_inj {f : α → Except ε β} {l l' : List α} {out : List β}
    (hinj : ∀ {a a' b}, f a = .ok b → f a' = .ok b → a = a') (h : l.mapM f = .ok out)
    (h' : l'.mapM f = .ok out) : l = l' := by
  rw [mapM_eq_ok] at h h'
  induction h generalizing l' with
  | nil =>
    cases h'
    rfl
  | cons hab _ ih =>
    cases h' with
    | cons hab' htail => rw [hinj hab hab', ih htail]

/-- Permuting the inputs permutes the outputs. -/
theorem mapM_perm {f : α → Except ε β} {l l' : List α} {out : List β} (hperm : l.Perm l')
    (h : l.mapM f = .ok out) : ∃ out', l'.mapM f = .ok out' ∧ out'.Perm out := by
  obtain ⟨out', hout, hperm'⟩ := List.perm_comp_forall₂ hperm.symm (mapM_eq_ok.mp h)
  exact ⟨out', mapM_eq_ok.mpr hout, hperm'⟩

theorem mapM_of_perm_map {γ : Type} {f : β → Except ε γ} {l : List β} {xs : List α} {g : α → β}
    {out : α → γ} (hperm : l.Perm (xs.map g)) (hf : ∀ x ∈ xs, f (g x) = .ok (out x)) :
    ∃ outs, l.mapM f = .ok outs ∧ outs.Perm (xs.map out) := by
  have hall : (xs.map g).mapM f = .ok (xs.map out) := by
    rw [mapM_eq_ok, List.forall₂_map_left_iff, List.forall₂_map_right_iff, List.forall₂_same]
    exact hf
  exact mapM_perm hperm.symm hall

/-- What the related elements agree on. -/
theorem map_eq_of_forall₂ {γ : Type} {R : α → β → Prop} {f : α → γ} {g : β → γ} {l : List α}
    {l' : List β} (h : ∀ a b, R a b → g b = f a) (hall : List.Forall₂ R l l') :
    l'.map g = l.map f := by
  induction hall with
  | nil => rfl
  | cons hab _ ih => rw [List.map_cons, List.map_cons, h _ _ hab, ih]

/-! ## The errors of a computation -/

/-- Every error is in `P`. -/
def ErrorsIn (P : ε → Prop) (c : Except ε α) : Prop := ∀ e, c = .error e → P e

section ErrorsIn

variable {P : ε → Prop}

theorem errorsIn_ok (a : α) : ErrorsIn P (.ok a : Except ε α) := by
  rintro e ⟨⟩

theorem errorsIn_error {e : ε} (h : P e) : ErrorsIn P (.error e : Except ε α) := by
  rintro e' ⟨⟩
  exact h

theorem ErrorsIn.bind {c : Except ε α} {f : α → Except ε β} (hc : ErrorsIn P c)
    (hf : ∀ a, ErrorsIn P (f a)) : ErrorsIn P (c >>= f) := by
  cases c with
  | ok a => exact hf a
  | error e =>
    rintro e' ⟨⟩
    exact hc e rfl

theorem ErrorsIn.forM {f : α → Except ε Unit} (hf : ∀ a, ErrorsIn P (f a)) (l : List α) :
    ErrorsIn P (l.forM f) := by
  induction l with
  | nil => exact errorsIn_ok ()
  | cons a l ih =>
    show ErrorsIn P (f a >>= fun _ => l.forM f)
    exact (hf a).bind fun _ => ih

theorem ErrorsIn.foldlM {f : β → α → Except ε β} (hf : ∀ b a, ErrorsIn P (f b a)) (l : List α)
    (b : β) : ErrorsIn P (l.foldlM f b) := by
  induction l generalizing b with
  | nil => exact errorsIn_ok b
  | cons a l ih =>
    rw [List.foldlM_cons]
    exact (hf b a).bind ih

theorem ErrorsIn.mapM {f : α → Except ε β} (hf : ∀ a, ErrorsIn P (f a)) (l : List α) :
    ErrorsIn P (l.mapM f) := by
  induction l with
  | nil => exact errorsIn_ok []
  | cons a l ih =>
    rw [List.mapM_cons]
    exact (hf a).bind fun b => ih.bind fun bs => errorsIn_ok _

end ErrorsIn

end DigWallet
