import Mathlib.Data.List.Nodup
import Smartchip.Foundation.Memory

/-!
# Blocks one over the other

Blocks that are written to the start of one memory, the last one first in the list.  A short
block leaves what a longer one before it has put behind its end.
-/

namespace Smartchip.Foundation

universe u

variable {Label : Type u}

def overlay (mem : Mem) : List (Label × List UInt8) → Mem
  | [] => mem
  | block :: older => (overlay mem older).write 0 block.2

/-- The block that a byte comes from. -/
def writerOf (blocks : List (Label × List UInt8)) (i : Nat) : Option Label :=
  (blocks.find? fun block => i < block.2.length).map Prod.fst

/-- The block is there as far as `size`, and none after it has reached byte `start`. -/
def Uncovered (blocks : List (Label × List UInt8)) (label : Label) (bytes : List UInt8)
    (start size : Nat) : Prop :=
  ∃ newer older, blocks = newer ++ (label, bytes) :: older ∧ size ≤ bytes.length ∧
    ∀ block ∈ newer, block.2.length ≤ start

section Spec

variable {mem : Mem} {blocks newer older : List (Label × List UInt8)} {label : Label}
  {bytes : List UInt8} {start size i : Nat}

@[simp] theorem overlay_cons {block : Label × List UInt8} :
    overlay mem (block :: blocks) = (overlay mem blocks).write 0 block.2 := rfl

theorem overlay_newer (short : ∀ block ∈ newer, block.2.length ≤ i) :
    overlay mem (newer ++ older) i = overlay mem older i := by
  induction newer with
  | nil => rfl
  | cons block newer ih =>
      simp only [List.forall_mem_cons] at short
      rw [List.cons_append, overlay_cons, Mem.write_after _ (by simpa using short.1)]
      exact ih short.2

theorem Uncovered.read (shown : Uncovered blocks label bytes start size) {n : Nat}
    (inside : start + n ≤ size) :
    (overlay mem blocks).read start n = (bytes.drop start).take n := by
  obtain ⟨newer, older, rfl, long, short⟩ := shown
  have block : ((overlay mem older).write 0 bytes).read (0 + start) n =
      (bytes.drop start).take n := Mem.read_write_inside _ (by omega)
  rw [← block, Nat.zero_add]
  apply List.map_congr_left
  intro i _
  rw [overlay_newer, overlay_cons]
  intro block member
  exact Nat.le_add_right_of_le (short block member)

theorem Uncovered.writerOf (shown : Uncovered blocks label bytes start size)
    (low : start ≤ i) (high : i < size) : writerOf blocks i = some label := by
  obtain ⟨newer, older, rfl, long, short⟩ := shown
  have none : newer.find? (fun block => decide (i < block.2.length)) = none := by
    rw [List.find?_eq_none]
    intro block member
    have bound := short block member
    simp only [decide_eq_true_eq, not_lt]
    omega
  have here : i < bytes.length := by omega
  simp [Foundation.writerOf, List.find?_append, none, here]

/-- When each label is written once, the bytes of one label are those of one block that
nothing has covered. -/
theorem uncovered_of_writerOf (once : (blocks.map Prod.fst).Nodup) (some_byte : start < size)
    (whole : ∀ i, start ≤ i → i < size → Foundation.writerOf blocks i = some label) :
    ∃ bytes, Uncovered blocks label bytes start size := by
  have first := whole start (Nat.le_refl _) some_byte
  have last := whole (size - 1) (by omega) (by omega)
  simp only [Foundation.writerOf, Option.map_eq_some_iff, Prod.exists, exists_and_right,
    exists_eq_right] at first last
  obtain ⟨bytes, found⟩ := first
  obtain ⟨bytes', found'⟩ := last
  obtain ⟨-, newer, older, split, short⟩ := List.find?_eq_some_iff_append.mp found
  obtain ⟨long, -⟩ := List.find?_eq_some_iff_append.mp found'
  have same : bytes' = bytes := by
    have member := List.mem_of_find?_eq_some found
    have member' := List.mem_of_find?_eq_some found'
    have pairs := List.inj_on_of_nodup_map once member' member rfl
    simpa using pairs
  subst same
  refine ⟨bytes', newer, older, split, ?_, ?_⟩
  · simp only [decide_eq_true_eq] at long
    omega
  · intro block member
    simpa using short block member

end Spec

end Smartchip.Foundation
