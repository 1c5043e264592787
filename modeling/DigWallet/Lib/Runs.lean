import Mathlib.Data.List.Basic
import Mathlib.Data.List.Infix

/-!
# DigWallet.Lib.Runs — runs of a guarded step function

A step is `step s a = some t`.  `Run step allowed s t` is a run from `s` to `t` whose every step is
`allowed` where it is taken, so a result about all runs that meet a condition is a result about
`Run` with that condition.  `AllAlong` is the same of a list of actions that never fail.  The last
lemma is for what a log says of each event after those before it.
-/

namespace DigWallet

variable {S A : Type} {step : S → A → Option S} {allowed : S → A → Prop}

inductive Run (step : S → A → Option S) (allowed : S → A → Prop) : S → S → Prop
  | refl (s : S) : Run step allowed s s
  | snoc {s t u : S} {a : A} : Run step allowed s t → allowed t a → step t a = some u →
      Run step allowed s u

/-- A step taken only where it is allowed. -/
def guarded (step : S → A → Option S) (allowed : S → A → Prop) [∀ s a, Decidable (allowed s a)]
    (s : S) (a : A) : Option S :=
  if allowed s a then step s a else none

namespace Run

/-- What every allowed step preserves holds along the run. -/
theorem invariant {Inv : S → Prop}
    (hstep : ∀ {s a t}, Inv s → allowed s a → step s a = some t → Inv t) {s t : S}
    (hrun : Run step allowed s t) (hs : Inv s) : Inv t := by
  induction hrun with
  | refl => exact hs
  | snoc _ hallowed hnext ih => exact hstep ih hallowed hnext

theorem trans {s t u : S} (hst : Run step allowed s t) (htu : Run step allowed t u) :
    Run step allowed s u := by
  induction htu with
  | refl => exact hst
  | snoc _ hallowed hnext ih => exact ih.snoc hallowed hnext

/-- A list of actions that replays is a run. -/
theorem of_replay [∀ s a, Decidable (allowed s a)] {actions : List A} {s t : S}
    (h : actions.foldlM (guarded step allowed) s = some t) : Run step allowed s t := by
  induction actions generalizing s with
  | nil =>
    obtain rfl := Option.some.inj h
    exact .refl s
  | cons a actions ih =>
    rw [List.foldlM_cons] at h
    obtain ⟨u, hu, h⟩ := Option.bind_eq_some_iff.mp h
    unfold guarded at hu
    by_cases hallowed : allowed s a
    · rw [if_pos hallowed] at hu
      exact ((Run.refl s).snoc hallowed hu).trans (ih h)
    · rw [if_neg hallowed] at hu
      cases hu

end Run

/-! ## Lists of actions -/

section AllAlong

variable {after : S → A → S}

/-- Every action is allowed in the state the ones before it lead to. -/
def AllAlong (after : S → A → S) (allowed : S → A → Prop) : S → List A → Prop
  | _, [] => True
  | s, a :: actions => allowed s a ∧ AllAlong after allowed (after s a) actions

instance decidableAllAlong [∀ s a, Decidable (allowed s a)] :
    (s : S) → (actions : List A) → Decidable (AllAlong after allowed s actions)
  | _, [] => inferInstanceAs (Decidable True)
  | s, a :: actions =>
    have := decidableAllAlong (after s a) actions
    inferInstanceAs (Decidable (allowed s a ∧ _))

/-- What every allowed action preserves holds after all of them. -/
theorem AllAlong.invariant {Inv : S → Prop} (hstep : ∀ {s a}, Inv s → allowed s a → Inv (after s a))
    {actions : List A} {s : S} (hall : AllAlong after allowed s actions) (hs : Inv s) :
    Inv (actions.foldl after s) := by
  induction actions generalizing s with
  | nil => exact hs
  | cons a actions ih => exact ih hall.2 (hstep hs hall.1)

end AllAlong

/-! ## Logs -/

/-- What every event of a log is, given those before it. -/
theorem forall_prefix_concat {E : Type} {P : List E → E → Prop} {log : List E} {event : E} :
    (∀ before other, before ++ [other] <+: log ++ [event] → P before other) ↔
      (∀ before other, before ++ [other] <+: log → P before other) ∧ P log event := by
  constructor
  · intro h
    refine ⟨fun before other hother => h before other ?_, h log event (List.prefix_refl _)⟩
    exact hother.trans (List.prefix_append _ _)
  · rintro ⟨hlog, hevent⟩ before other hother
    rcases List.prefix_concat_iff.mp hother with heq | hbefore
    · obtain ⟨rfl, hlast⟩ := List.append_inj' heq rfl
      obtain rfl := List.singleton_inj.mp hlast
      exact hevent
    · exact hlog before other hbefore

end DigWallet
