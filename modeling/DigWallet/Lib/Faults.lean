import DigWallet.Lib.Results
import Mathlib.Tactic.Choose
import Mathlib.Tactic.SplitIfs

/-!
# DigWallet.Lib.Faults — calls that return an error or panic

A `Call` ends with a value, with an error it returns, or with a panic.  `ofResult` passes on what a
callee returns, `orPanic` panics where the callee has no value to give, `refuseIf` returns an error on
a condition.
-/

namespace DigWallet.Faults

/-- How a call ends without a value. -/
inductive Fault (ε : Type)
  | refused (error : ε)
  | panicked
deriving DecidableEq

abbrev Call (ε α : Type) := Except (Fault ε) α

variable {ε α : Type}

def ofResult : Except ε α → Call ε α
  | .ok a => .ok a
  | .error e => .error (.refused e)

def orPanic : Option α → Call ε α
  | some a => .ok a
  | none => .error .panicked

/-- `if c { return Err(error) }`. -/
def refuseIf (c : Prop) [Decidable c] (error : ε) : Call ε Unit :=
  if c then .error (.refused error) else .ok ()

@[simp] theorem ofResult_ok (a : α) : ofResult (.ok a : Except ε α) = .ok a := rfl

@[simp] theorem ofResult_error (e : ε) : ofResult (.error e : Except ε α) = .error (.refused e) := rfl

@[simp] theorem orPanic_some (a : α) : (orPanic (some a) : Call ε α) = .ok a := rfl

@[simp] theorem orPanic_none : (orPanic none : Call ε α) = .error .panicked := rfl

@[simp] theorem ofResult_eq_ok {r : Except ε α} {a : α} : ofResult r = .ok a ↔ r = .ok a := by
  cases r <;> simp

@[simp] theorem refuseIf_eq_ok {c : Prop} [Decidable c] {error : ε} {u : Unit} :
    refuseIf c error = .ok u ↔ ¬ c := by
  unfold refuseIf
  split_ifs with h <;> simp [h]

@[simp] theorem orPanic_eq_ok {o : Option α} {a : α} :
    (orPanic o : Call ε α) = .ok a ↔ o = some a := by
  cases o <;> simp

theorem ofResult_eq_error {r : Except ε α} {fault : Fault ε} :
    ofResult r = .error fault ↔ ∃ e, r = .error e ∧ fault = .refused e := by
  cases r <;> simp [eq_comm]

theorem orPanic_eq_error {o : Option α} {fault : Fault ε} :
    orPanic o = .error fault ↔ o = none ∧ fault = .panicked := by
  cases o <;> simp [eq_comm]

theorem refuseIf_eq_error {c : Prop} [Decidable c] {error : ε} {fault : Fault ε} :
    refuseIf c error = .error fault ↔ c ∧ fault = .refused error := by
  unfold refuseIf
  split_ifs with h <;> simp [h, eq_comm]

/-! ## The errors a call returns -/

/-- Every error the call returns is in `P`. -/
def RefusedWith {α : Type} (P : ε → Prop) (c : Call ε α) : Prop := ∀ e, c = .error (.refused e) → P e

section RefusedWith

variable {β : Type} {P : ε → Prop}

theorem RefusedWith.bind {c : Call ε α} {f : α → Call ε β} (hc : RefusedWith P c)
    (hf : ∀ a, RefusedWith P (f a)) : RefusedWith P (c >>= f) := by
  cases c with
  | ok a => exact hf a
  | error fault =>
    rintro e ⟨⟩
    exact hc e rfl

/-- The same, knowing what the first call returned. -/
theorem RefusedWith.bind_of_ok {c : Call ε α} {f : α → Call ε β} (hc : RefusedWith P c)
    (hf : ∀ a, c = .ok a → RefusedWith P (f a)) : RefusedWith P (c >>= f) := by
  cases c with
  | ok a => exact hf a rfl
  | error fault =>
    rintro e ⟨⟩
    exact hc e rfl

theorem refusedWith_ok (a : α) : RefusedWith P (.ok a : Call ε α) := by
  rintro e ⟨⟩

theorem refusedWith_ofResult {r : Except ε α} (h : ErrorsIn P r) : RefusedWith P (ofResult r) := by
  cases r with
  | ok a => exact refusedWith_ok a
  | error error =>
    rintro e ⟨⟩
    exact h error rfl

theorem refusedWith_of_ok {r : Except ε α} {a : α} (h : r = .ok a) : RefusedWith P (ofResult r) := by
  subst h
  exact refusedWith_ok a

theorem refusedWith_orPanic (o : Option α) : RefusedWith P (orPanic o : Call ε α) := by
  cases o with
  | some a => exact refusedWith_ok a
  | none => rintro e ⟨⟩

theorem refusedWith_refuseIf (c : Prop) [Decidable c] {error : ε} (h : P error) :
    RefusedWith P (refuseIf c error) := by
  unfold refuseIf
  split_ifs
  · rintro e ⟨⟩
    exact h
  · exact refusedWith_ok ()

end RefusedWith

/-! ## Calls that do not panic -/

def NoPanic {α : Type} (c : Call ε α) : Prop := c ≠ .error .panicked

section NoPanic

variable {β : Type}

theorem NoPanic.bind {c : Call ε α} {f : α → Call ε β} (hc : NoPanic c)
    (hf : ∀ a, c = .ok a → NoPanic (f a)) : NoPanic (c >>= f) := by
  cases c with
  | ok a => exact hf a rfl
  | error fault =>
    rintro ⟨⟩
    exact hc rfl

theorem noPanic_ok (a : α) : NoPanic (.ok a : Call ε α) := by
  rintro ⟨⟩

theorem noPanic_refused (e : ε) : NoPanic (.error (.refused e) : Call ε α) := by
  rintro ⟨⟩

theorem noPanic_ofResult (r : Except ε α) : NoPanic (ofResult r) := by
  cases r with
  | ok a => exact noPanic_ok a
  | error e => exact noPanic_refused e

theorem noPanic_orPanic {o : Option α} {a : α} (h : o = some a) :
    NoPanic (orPanic o : Call ε α) := by
  subst h
  exact noPanic_ok a

theorem noPanic_refuseIf (c : Prop) [Decidable c] (error : ε) : NoPanic (refuseIf c error) := by
  unfold refuseIf
  split_ifs
  · exact noPanic_refused error
  · exact noPanic_ok ()

end NoPanic

/-! ## Calls that differ in their last step -/

/-- Up to the last step the calls of a family are one. -/
def SharesFront {ι β : Type} (last : ι → β → Call ε α) (call : ι → Call ε α) : Prop :=
  ∃ front : Call ε β, ∀ i, call i = front >>= last i

section SharesFront

variable {ι β γ : Type} {last : ι → β → Call ε α} {call : ι → Call ε α}

theorem sharesFront_last (b : β) : SharesFront last fun i => last i b := ⟨.ok b, fun _ => rfl⟩

/-- A step that is the same in every call. -/
theorem SharesFront.bind {step : ι → Call ε γ} {rest : ι → γ → Call ε α}
    (hstep : ∀ i j, step i = step j) (hrest : ∀ c, SharesFront last fun i => rest i c) :
    SharesFront last fun i => step i >>= rest i := by
  choose fronts hfronts using hrest
  by_cases hsome : Nonempty ι
  · obtain ⟨i₀⟩ := hsome
    refine ⟨step i₀ >>= fronts, fun i => ?_⟩
    show step i >>= rest i = _
    rw [hstep i i₀, bind_assoc]
    exact congrArg (step i₀ >>= ·) (funext fun c => hfronts c i)
  · exact ⟨.error .panicked, fun i => absurd ⟨i⟩ hsome⟩

/-- When one call returns, all of them reach the last step, with one value. -/
theorem SharesFront.last_of_ok (h : SharesFront last call) {i : ι} {a : α} (hok : call i = .ok a) :
    ∃ b, last i b = .ok a ∧ ∀ j, call j = last j b := by
  obtain ⟨front, hfront⟩ := h
  rw [hfront i, bind_eq_ok] at hok
  obtain ⟨b, hb, hlast⟩ := hok
  refine ⟨b, hlast, fun j => ?_⟩
  rw [hfront j, hb]
  rfl

end SharesFront

end DigWallet.Faults
