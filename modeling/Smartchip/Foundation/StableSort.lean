import Mathlib.Data.List.Perm.Basic
import Mathlib.Order.Lattice

/-!
# Stable sorting by insertion

A list that is sorted by a key, with the things of one key in the order in which they
came.  One more thing goes behind all whose key is not greater.
-/

namespace Smartchip.Foundation

universe u v

variable {α : Type u} {κ : Type v} [LinearOrder κ]

structure StableSort (key : α → κ) (came sorted : List α) : Prop where
  perm : sorted.Perm came
  ordered : sorted.Pairwise fun a b => key a ≤ key b
  stable : ∀ k, (sorted.filter fun a => key a = k) = came.filter fun a => key a = k

section Insert

variable {key : α → κ} {came sorted xs ys : List α} {a : α}

theorem StableSort.nil : StableSort key [] [] :=
  ⟨.nil, .nil, fun _ => rfl⟩

/-- A thing is put between two parts of a sorted list. -/
theorem pairwise_insert {r : α → α → Prop} (ordered : (xs ++ ys).Pairwise r)
    (front : ∀ x ∈ xs, r x a) (back : ∀ y ∈ ys, r a y) :
    (xs ++ a :: ys).Pairwise r := by
  rw [List.pairwise_append] at ordered ⊢
  obtain ⟨first, second, apart⟩ := ordered
  refine ⟨first, List.pairwise_cons.mpr ⟨back, second⟩, ?_⟩
  intro x inFront y behind
  rcases List.mem_cons.mp behind with rfl | behind
  · exact front x inFront
  · exact apart x inFront y behind

theorem perm_insert (perm : (xs ++ ys).Perm came) :
    (xs ++ a :: ys).Perm (came ++ [a]) :=
  calc (xs ++ a :: ys).Perm (a :: (xs ++ ys)) := List.perm_middle
    _ |>.Perm (a :: came) := perm.cons a
    _ |>.Perm (came ++ [a]) := (List.perm_append_singleton a came).symm

theorem StableSort.insert (sorts : StableSort key came (xs ++ ys))
    (front : ∀ x ∈ xs, key x ≤ key a) (back : ∀ y ∈ ys, key a < key y) :
    StableSort key (came ++ [a]) (xs ++ a :: ys) where
  perm := perm_insert sorts.perm
  ordered := pairwise_insert sorts.ordered front fun y member => le_of_lt (back y member)
  stable := by
    intro k
    have same := sorts.stable k
    rw [List.filter_append] at same
    rw [List.filter_append, List.filter_append, ← same]
    by_cases mine : key a = k
    · have none : (ys.filter fun b => key b = k) = [] := by
        rw [List.filter_eq_nil_iff]
        intro y member
        have later := back y member
        rw [mine] at later
        simpa using ne_of_gt later
      simp [mine, none]
    · simp [mine]

theorem StableSort.erase [DecidableEq α] (sorts : StableSort key came sorted) (a : α) :
    StableSort key (came.erase a) (sorted.erase a) where
  perm := sorts.perm.erase a
  ordered := sorts.ordered.sublist List.erase_sublist
  stable := by
    intro k
    rw [← List.erase_filter, ← List.erase_filter, sorts.stable k]

end Insert

/-! ## The one stable sort -/

section Unique

variable {key : α → κ} {came xs ys : List α} {a b : α}

/-- Two sorted lists that agree key by key start with one thing. -/
theorem head_eq_of_filter_eq (first : (a :: xs).Pairwise fun a b => key a ≤ key b)
    (second : (b :: ys).Pairwise fun a b => key a ≤ key b)
    (same : ∀ k, ((a :: xs).filter fun a => key a = k) =
      (b :: ys).filter fun a => key a = k) : a = b := by
  have least : ∀ {c d : α} {zs ws : List α}, (c :: zs).Pairwise (fun a b => key a ≤ key b) →
      (∀ k, ((c :: zs).filter fun a => key a = k) = (d :: ws).filter fun a => key a = k) →
      key c ≤ key d := by
    intro c d zs ws sorted agree
    have member : d ∈ (c :: zs).filter fun a => key a = key d := by
      rw [agree]
      simp
    rcases List.mem_cons.mp (List.mem_of_mem_filter member) with rfl | inside
    · exact le_rfl
    · exact (List.pairwise_cons.mp sorted).1 d inside
  have keys : key a = key b := le_antisymm (least first same)
    (least second fun k => (same k).symm)
  have agree := same (key b)
  simp only [keys, decide_true, List.filter_cons_of_pos] at agree
  exact (List.cons.inj agree).1

theorem eq_of_filter_eq :
    ∀ {xs ys : List α}, xs.Pairwise (fun a b => key a ≤ key b) →
      ys.Pairwise (fun a b => key a ≤ key b) →
      (∀ k, (xs.filter fun a => key a = k) = ys.filter fun a => key a = k) → xs = ys := by
  intro xs
  induction xs with
  | nil =>
      intro ys _ _ same
      cases ys with
      | nil => rfl
      | cons b ys => simpa using same (key b)
  | cons a xs ih =>
      intro ys first second same
      cases ys with
      | nil => simpa using same (key a)
      | cons b ys =>
          obtain rfl := head_eq_of_filter_eq first second same
          congr 1
          apply ih (List.pairwise_cons.mp first).2 (List.pairwise_cons.mp second).2
          intro k
          have agree := same k
          by_cases mine : key a = k <;> simpa [mine] using agree

theorem mergeSort_stableSort (key : α → κ) (came : List α) :
    StableSort key came (came.mergeSort fun a b => key a ≤ key b) := by
  have trans : ∀ a b c : α, decide (key a ≤ key b) = true → decide (key b ≤ key c) = true →
      decide (key a ≤ key c) = true := by
    intro a b c low high
    simp only [decide_eq_true_eq] at *
    exact low.trans high
  have total : ∀ a b : α, (decide (key a ≤ key b) || decide (key b ≤ key a)) = true := by
    intro a b
    simpa using le_total (key a) (key b)
  have perm := List.mergeSort_perm came fun a b => key a ≤ key b
  refine ⟨perm, ?_, ?_⟩
  · simpa using List.pairwise_mergeSort trans total came
  · intro k
    have alike : (came.filter fun a => key a = k).Pairwise fun a b =>
        decide (key a ≤ key b) = true := by
      apply List.pairwise_of_forall_mem_list
      intro a inside b also
      simp only [List.mem_filter, decide_eq_true_eq] at inside also
      simp [inside.2, also.2]
    have kept := (List.sublist_mergeSort trans total alike List.filter_sublist).filter
      fun a => key a = k
    rw [List.filter_filter] at kept
    simp only [Bool.and_self] at kept
    exact (kept.eq_of_length (perm.filter _).length_eq.symm).symm

theorem StableSort.eq_mergeSort (sorts : StableSort key came xs) :
    xs = came.mergeSort fun a b => key a ≤ key b := by
  have also := mergeSort_stableSort key came
  apply eq_of_filter_eq sorts.ordered also.ordered
  intro k
  rw [sorts.stable k, also.stable k]

end Unique

end Smartchip.Foundation
