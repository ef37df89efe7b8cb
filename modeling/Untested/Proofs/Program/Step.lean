/-
# Steps on a computer as a state

When the computer is a state that actions change, an action yields a result and leaves a state.
A step that succeeds is a chain of actions that succeed, and it is taken apart from its first
action on.
-/

import Untested.Program
import Mathlib.Logic.Basic

namespace Untested.Program

variable {σ α β : Type}

/-- Carried out in one state, an action has the result and leaves the other state. -/
def Yields (action : StateM σ α) (before : σ) (result : α) (after : σ) : Prop :=
  (action.run before).run = (result, after)

/-- Carried out in one state, a step succeeds with the result and leaves the other state. -/
def Gives (step : Step (StateM σ) α) (before : σ) (result : α) (after : σ) : Prop :=
  Yields step.run before (.ok result) after

/-! ## Actions -/

/-- An action yields a single result and leaves a single state. -/
theorem Yields.unique {action : StateM σ α} {before after other : σ} {first second : α}
    (hfirst : Yields action before first after) (hsecond : Yields action before second other) :
    first = second ∧ after = other := by
  rw [Yields] at hfirst hsecond
  rw [hfirst] at hsecond
  exact Prod.mk.inj hsecond

theorem yields_pure_iff {value result : α} {before after : σ} :
    Yields (pure value) before result after ↔ value = result ∧ before = after :=
  iff_of_eq (Prod.mk.injEq ..)

/-- Two actions one after the other. -/
theorem yields_bind_iff {action : StateM σ α} {next : α → StateM σ β} {before after : σ}
    {result : β} :
    Yields (action >>= next) before result after ↔
      ∃ value between, Yields action before value between ∧
        Yields (next value) between result after := by
  constructor
  · intro h
    exact ⟨_, _, rfl, h⟩
  · rintro ⟨value, between, hvalue, hnext⟩
    rw [Yields] at hvalue hnext ⊢
    rw [← hnext]
    show ((next (action.run before).run.1).run (action.run before).run.2).run = _
    rw [hvalue]

theorem yields_map_iff {action : StateM σ α} {f : α → β} {before after : σ} {result : β} :
    Yields (f <$> action) before result after ↔
      ∃ value, Yields action before value after ∧ f value = result := by
  constructor
  · intro h
    have h' : (f (action.run before).run.1, (action.run before).run.2) = (result, after) := h
    obtain ⟨hresult, hafter⟩ := Prod.mk.inj h'
    exact ⟨_, by rw [Yields, ← hafter], hresult⟩
  · rintro ⟨value, hvalue, rfl⟩
    rw [Yields] at hvalue ⊢
    show (f (action.run before).run.1, (action.run before).run.2) = _
    rw [hvalue]

/-! ## Steps -/

/-- A step succeeds with a single result and leaves a single state. -/
theorem Gives.unique {step : Step (StateM σ) α} {before after other : σ} {first second : α}
    (hfirst : Gives step before first after) (hsecond : Gives step before second other) :
    first = second ∧ after = other := by
  obtain ⟨hresult, hafter⟩ := Yields.unique hfirst hsecond
  exact ⟨Except.ok.inj hresult, hafter⟩

theorem gives_pure_iff {value result : α} {before after : σ} :
    Gives (pure value) before result after ↔ value = result ∧ before = after := by
  rw [Gives, ExceptT.run_pure, yields_pure_iff, Except.ok.injEq]

theorem not_gives_throw {failure : Failure} {result : α} {before after : σ} :
    ¬ Gives (throw failure) before result after := by
  intro h
  have h' : (Except.error failure, before) = (Except.ok result, after) := h
  cases h'

/-- A step of two parts succeeds when both do, one after the other. -/
theorem gives_bind_iff {step : Step (StateM σ) α} {next : α → Step (StateM σ) β}
    {before after : σ} {result : β} :
    Gives (step >>= next) before result after ↔
      ∃ value between, Gives step before value between ∧
        Gives (next value) between result after := by
  rw [Gives, ExceptT.run_bind, yields_bind_iff]
  constructor
  · rintro ⟨value?, between, hvalue, hnext⟩
    cases value? with
    | error failure =>
        rw [yields_pure_iff] at hnext
        cases hnext.1
    | ok value => exact ⟨value, between, hvalue, hnext⟩
  · rintro ⟨value, between, hvalue, hnext⟩
    exact ⟨.ok value, between, hvalue, hnext⟩

/-- An action that is no step by itself always succeeds. -/
theorem gives_lift_iff {action : StateM σ α} {before after : σ} {result : α} :
    Gives (monadLift action) before result after ↔ Yields action before result after := by
  have hlift : (monadLift action : Step (StateM σ) α).run = Except.ok <$> action := rfl
  rw [Gives, hlift, yields_map_iff]
  constructor
  · rintro ⟨value, hvalue, heq⟩
    exact Except.ok.inj heq ▸ hvalue
  · intro h
    exact ⟨result, h, rfl⟩

/-- An action that may meet a fault succeeds when it does not. -/
theorem gives_unlessFault_iff {action : StateM σ (Except Fault α)} {before after : σ}
    {result : α} :
    Gives (unlessFault action) before result after ↔
      Yields action before (.ok result) after := by
  rw [unlessFault, gives_bind_iff]
  constructor
  · rintro ⟨value?, between, hvalue, hresult⟩
    cases value? with
    | error fault => exact absurd hresult not_gives_throw
    | ok value =>
        obtain ⟨rfl, rfl⟩ := gives_pure_iff.1 hresult
        exact gives_lift_iff.1 hvalue
  · intro h
    exact ⟨.ok result, after, gives_lift_iff.2 h, gives_pure_iff.2 ⟨rfl, rfl⟩⟩

end Untested.Program
