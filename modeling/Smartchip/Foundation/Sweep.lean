import Mathlib.Data.List.Basic

/-!
# Sweeps over a list

A value is carried along a list and changes together with each element.  Where each step can be
undone, the sweep is undone from the other end.
-/

namespace Smartchip.Foundation

section Sweep

variable {α β : Type*}

/-- From the first element to the last; the steps are numbered from `t` on. -/
def sweep (step : Nat → α × β → α × β) : Nat → α → List β → α × List β
  | _, a, [] => (a, [])
  | t, a, b :: bs =>
      let first := step t (a, b)
      let rest := sweep step (t + 1) first.1 bs
      (rest.1, first.2 :: rest.2)

/-- From the last element to the first. -/
def sweepBack (step : Nat → α × β → α × β) : Nat → α → List β → α × List β
  | _, a, [] => (a, [])
  | t, a, b :: bs =>
      let rest := sweepBack step (t + 1) a bs
      let first := step t (rest.1, b)
      (first.1, first.2 :: rest.2)

variable {step back : Nat → α × β → α × β}

theorem sweepBack_sweep (undone : ∀ t s, back t (step t s) = s) (t : Nat) (a : α) (bs : List β) :
    sweepBack back t (sweep step t a bs).1 (sweep step t a bs).2 = (a, bs) := by
  induction bs generalizing t a with
  | nil => rfl
  | cons b bs ih =>
      have rest := ih (t + 1) (step t (a, b)).1
      simp only [sweep, sweepBack, rest, undone]

theorem sweep_sweepBack (redone : ∀ t s, step t (back t s) = s) (t : Nat) (a : α) (bs : List β) :
    sweep step t (sweepBack back t a bs).1 (sweepBack back t a bs).2 = (a, bs) := by
  induction bs generalizing t a with
  | nil => rfl
  | cons b bs ih =>
      have rest := ih (t + 1) a
      simp only [sweep, sweepBack, redone, rest]

theorem length_sweep (t : Nat) (a : α) (bs : List β) :
    (sweep step t a bs).2.length = bs.length := by
  induction bs generalizing t a with
  | nil => rfl
  | cons b bs ih => simp [sweep, ih]

theorem length_sweepBack (t : Nat) (a : α) (bs : List β) :
    (sweepBack back t a bs).2.length = bs.length := by
  induction bs generalizing t a with
  | nil => rfl
  | cons b bs ih => simp [sweepBack, ih]

end Sweep

section Passes

variable {ι σ : Type*} {pass back : ι → σ → σ}

/-- Passes one after the other are undone in the opposite order. -/
theorem foldl_undo (undone : ∀ i s, back i (pass i s) = s) (passes : List ι) (s : σ) :
    passes.reverse.foldl (fun s i => back i s) (passes.foldl (fun s i => pass i s) s) = s := by
  induction passes generalizing s with
  | nil => rfl
  | cons i passes ih =>
      simp only [List.reverse_cons, List.foldl_append, List.foldl_cons, List.foldl_nil, ih, undone]

theorem foldl_redo (redone : ∀ i s, pass i (back i s) = s) (passes : List ι) (s : σ) :
    passes.foldl (fun s i => pass i s) (passes.reverse.foldl (fun s i => back i s) s) = s := by
  have mirrored := foldl_undo redone passes.reverse s
  rwa [List.reverse_reverse] at mirrored

end Passes

end Smartchip.Foundation
