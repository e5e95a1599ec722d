import Smartchip.Foundation.Memory

/-!
# Blocks one behind the other

Things that are written into a memory one after the other, each with its bytes at the start
of a stretch of its own.
-/

namespace Smartchip.Foundation

universe u

variable {α : Type u}

section Blocks

variable (bytes : α → List UInt8) (stride : α → Nat)

/-- How far the stretches of some things reach. -/
def extent (xs : List α) : Nat := (xs.map stride).sum

/-- The bytes of each thing stand at the start of its stretch. -/
def Laid (mem : Mem) : Nat → List α → Prop
  | _, [] => True
  | base, x :: xs => mem.read base (bytes x).length = bytes x ∧ Laid mem (base + stride x) xs

end Blocks

section Spec

variable {bytes : α → List UInt8} {stride : α → Nat} {mem other : Mem} {base : Nat}
  {xs ys : List α} {x : α}

@[simp] theorem extent_nil : extent stride [] = 0 := rfl

@[simp] theorem extent_cons : extent stride (x :: xs) = stride x + extent stride xs := by
  simp [extent]

@[simp] theorem extent_append :
    extent stride (xs ++ ys) = extent stride xs + extent stride ys := by
  simp [extent]

/-- One more stretch in front of stretches that are in order. -/
theorem pairwise_behind {start stop : α → Nat} {next : Nat} (before : stop x ≤ next)
    (behind : ∀ y ∈ xs, next ≤ start y) (ordered : xs.Pairwise fun a b => stop a ≤ start b) :
    (x :: xs).Pairwise fun a b => stop a ≤ start b := by
  apply List.Pairwise.cons
  · intro y member
    exact Nat.le_trans before (behind y member)
  · exact ordered

theorem laid_append :
    Laid bytes stride mem base (xs ++ ys) ↔
      Laid bytes stride mem base xs ∧
        Laid bytes stride mem (base + extent stride xs) ys := by
  induction xs generalizing base with
  | nil => simp [Laid]
  | cons x xs ih => simp [Laid, ih, and_assoc, Nat.add_assoc]

/-- What is laid out is not touched by a change elsewhere. -/
theorem Laid.transport (laid : Laid bytes stride mem base xs)
    (fits : ∀ x ∈ xs, (bytes x).length ≤ stride x)
    (same : ∀ i, base ≤ i → i < base + extent stride xs → other i = mem i) :
    Laid bytes stride other base xs := by
  induction xs generalizing base with
  | nil => trivial
  | cons x xs ih =>
      obtain ⟨here, rest⟩ := laid
      have fit := fits x (by simp)
      rw [extent_cons] at same
      refine ⟨?_, ih rest (fun y member => fits y (by simp [member])) ?_⟩
      · refine Eq.trans ?_ here
        apply List.map_congr_left
        intro i member
        have bound := List.mem_range.mp member
        exact same (base + i) (by omega) (by omega)
      · intro i low high
        exact same i (by omega) (by omega)

/-- One more thing is written behind the others. -/
theorem Laid.snoc (laid : Laid bytes stride mem base xs)
    (fits : ∀ x ∈ xs, (bytes x).length ≤ stride x) :
    Laid bytes stride (mem.write (base + extent stride xs) (bytes x)) base (xs ++ [x]) := by
  rw [laid_append]
  refine ⟨laid.transport fits ?_, Mem.read_write_self mem _ _, trivial⟩
  intro i _ high
  exact Mem.write_before mem _ high

/-- The bytes of a thing stand behind the stretches of those before it. -/
theorem Laid.at {front back : List α} (laid : Laid bytes stride mem base xs)
    (split : xs = front ++ x :: back) :
    mem.read (base + extent stride front) (bytes x).length = bytes x := by
  subst split
  exact (laid_append.mp laid).2.1

end Spec

end Smartchip.Foundation
