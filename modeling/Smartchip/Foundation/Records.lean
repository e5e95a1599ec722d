import Mathlib.Data.List.Basic

/-!
# Records with a length in front

Records stand one behind the other: a header of a fixed size, which tells how much
follows it.  What counts are the records that are complete before the limit; the first
one that is not ends them.
-/

namespace Smartchip.Foundation

/-- The record at this offset ends before the limit. -/
def CompleteAt (hdr : Nat) (size : Nat → Nat) (limit offset : Nat) : Prop :=
  offset + (hdr + size offset) ≤ limit

instance (hdr : Nat) (size : Nat → Nat) (limit offset : Nat) :
    Decidable (CompleteAt hdr size limit offset) :=
  inferInstanceAs (Decidable (_ ≤ _))

/-- The offsets of the complete records from this one on. -/
def records (hdr : Nat) (size : Nat → Nat) (limit offset : Nat) : List Nat :=
  if CompleteAt hdr size limit offset ∧ 0 < hdr then
    offset :: records hdr size limit (offset + (hdr + size offset))
  else []
  termination_by limit - offset
  decreasing_by
    rename_i here
    have inside := here.1
    unfold CompleteAt at inside
    omega

section Spec

variable {hdr limit offset : Nat} {size : Nat → Nat}

theorem records_of_complete (some : 0 < hdr) (inside : CompleteAt hdr size limit offset) :
    records hdr size limit offset =
      offset :: records hdr size limit (offset + (hdr + size offset)) := by
  rw [records, if_pos ⟨inside, some⟩]

theorem records_of_incomplete (outside : ¬ CompleteAt hdr size limit offset) :
    records hdr size limit offset = [] := by
  rw [records, if_neg fun here => outside here.1]

/-- Induction along the complete records. -/
theorem records_induction (size : Nat → Nat) (limit : Nat) (some : 0 < hdr)
    {motive : Nat → Prop}
    (outside : ∀ offset, ¬ CompleteAt hdr size limit offset → motive offset)
    (inside : ∀ offset, CompleteAt hdr size limit offset →
      motive (offset + (hdr + size offset)) → motive offset) (offset : Nat) :
    motive offset := by
  induction left : limit - offset using Nat.strongRecOn generalizing offset with
  | ind n ih =>
      by_cases here : CompleteAt hdr size limit offset
      · apply inside offset here
        unfold CompleteAt at here
        exact ih _ (by omega) _ rfl
      · exact outside offset here

theorem mem_records (some : 0 < hdr) {start : Nat}
    (member : offset ∈ records hdr size limit start) :
    start ≤ offset ∧ CompleteAt hdr size limit offset := by
  induction start using records_induction size limit some with
  | outside start outside =>
      rw [records_of_incomplete outside] at member
      cases member
  | inside start inside ih =>
      rw [records_of_complete some inside] at member
      rcases List.mem_cons.mp member with rfl | member
      · exact ⟨Nat.le_refl _, inside⟩
      · have kept := ih member
        exact ⟨by omega, kept.2⟩

/-- Two records do not overlap. -/
theorem records_apart (some : 0 < hdr) {start o p : Nat} (first : o ∈ records hdr size limit start)
    (second : p ∈ records hdr size limit start) :
    o = p ∨ o + (hdr + size o) ≤ p ∨ p + (hdr + size p) ≤ o := by
  induction start using records_induction size limit some with
  | outside start outside =>
      rw [records_of_incomplete outside] at first
      cases first
  | inside start inside ih =>
      rw [records_of_complete some inside] at first second
      rcases List.mem_cons.mp first with rfl | first
      · rcases List.mem_cons.mp second with rfl | second
        · exact Or.inl rfl
        · exact Or.inr (Or.inl (mem_records some second).1)
      · rcases List.mem_cons.mp second with rfl | second
        · exact Or.inr (Or.inr (mem_records some first).1)
        · exact ih first second

/-- What follows a record is among the records. -/
theorem records_behind (some : 0 < hdr) {start o p : Nat}
    (member : o ∈ records hdr size limit start)
    (later : p ∈ records hdr size limit (o + (hdr + size o))) :
    p ∈ records hdr size limit start := by
  induction start using records_induction size limit some with
  | outside start outside =>
      rw [records_of_incomplete outside] at member
      cases member
  | inside start inside ih =>
      rw [records_of_complete some inside] at member ⊢
      rcases List.mem_cons.mp member with rfl | member
      · exact List.mem_cons_of_mem _ later
      · exact List.mem_cons_of_mem _ (ih member)

/-- The records fill the space up to the limit. -/
inductive Tiles (hdr : Nat) (size : Nat → Nat) (limit : Nat) : Nat → Prop where
  | done : Tiles hdr size limit limit
  | record {offset : Nat} (complete : CompleteAt hdr size limit offset)
      (rest : Tiles hdr size limit (offset + (hdr + size offset))) :
      Tiles hdr size limit offset

theorem Tiles.le {start : Nat} (tiles : Tiles hdr size limit start) : start ≤ limit := by
  induction tiles with
  | done => exact Nat.le_refl _
  | record complete rest ih => omega

theorem Tiles.behind (some : 0 < hdr) {start o : Nat} (tiles : Tiles hdr size limit start)
    (member : o ∈ records hdr size limit start) :
    Tiles hdr size limit (o + (hdr + size o)) := by
  induction tiles with
  | done =>
      have outside : ¬ CompleteAt hdr size limit limit := by
        unfold CompleteAt
        omega
      rw [records_of_incomplete outside] at member
      cases member
  | record complete rest ih =>
      rw [records_of_complete some complete] at member
      rcases List.mem_cons.mp member with rfl | member
      · exact rest
      · exact ih member

/-- Only the lengths of the records themselves count. -/
theorem Tiles.congr (some : 0 < hdr) {other : Nat → Nat} {start : Nat}
    (tiles : Tiles hdr size limit start)
    (same : ∀ o ∈ records hdr size limit start, other o = size o) :
    Tiles hdr other limit start ∧
      records hdr other limit start = records hdr size limit start := by
  induction tiles with
  | done =>
      have outside (size : Nat → Nat) : ¬ CompleteAt hdr size limit limit := by
        unfold CompleteAt
        omega
      rw [records_of_incomplete (outside size), records_of_incomplete (outside other)]
      exact ⟨.done, rfl⟩
  | @record offset complete rest ih =>
      rw [records_of_complete some complete] at same ⊢
      have here := same offset List.mem_cons_self
      have complete' : CompleteAt hdr other limit offset := by
        unfold CompleteAt at complete ⊢
        rwa [here]
      have behind := ih fun o later => same o (List.mem_cons_of_mem _ later)
      rw [records_of_complete some complete', here, behind.2]
      refine ⟨.record complete' ?_, rfl⟩
      rw [here]
      exact behind.1

/-! ## Headers -/

/-- The offsets of the complete records, and where the first one is that is not. -/
def headers (hdr : Nat) (size : Nat → Nat) (limit offset : Nat) : List Nat :=
  if CompleteAt hdr size limit offset ∧ 0 < hdr then
    offset :: headers hdr size limit (offset + (hdr + size offset))
  else [offset]
  termination_by limit - offset
  decreasing_by
    rename_i here
    have inside := here.1
    unfold CompleteAt at inside
    omega

theorem headers_of_complete (some : 0 < hdr) (inside : CompleteAt hdr size limit offset) :
    headers hdr size limit offset =
      offset :: headers hdr size limit (offset + (hdr + size offset)) := by
  rw [headers, if_pos ⟨inside, some⟩]

theorem headers_of_incomplete (outside : ¬ CompleteAt hdr size limit offset) :
    headers hdr size limit offset = [offset] := by
  rw [headers, if_neg fun here => outside here.1]

theorem le_of_mem_headers (some : 0 < hdr) {start : Nat}
    (member : offset ∈ headers hdr size limit start) : start ≤ offset := by
  induction start using records_induction size limit some with
  | outside start outside =>
      rw [headers_of_incomplete outside] at member
      exact Nat.le_of_eq (List.mem_singleton.mp member).symm
  | inside start inside ih =>
      rw [headers_of_complete some inside] at member
      rcases List.mem_cons.mp member with rfl | member
      · exact Nat.le_refl _
      · have behind := ih member
        omega

theorem mem_headers_of_records (some : 0 < hdr) {start : Nat}
    (member : offset ∈ records hdr size limit start) :
    offset ∈ headers hdr size limit start := by
  induction start using records_induction size limit some with
  | outside start outside =>
      rw [records_of_incomplete outside] at member
      cases member
  | inside start inside ih =>
      rw [records_of_complete some inside] at member
      rw [headers_of_complete some inside]
      rcases List.mem_cons.mp member with rfl | member
      · exact List.mem_cons_self
      · exact List.mem_cons_of_mem start (ih member)

/-- The first header that is taken is a given record exactly when none before it is. -/
theorem find_headers_iff (some : 0 < hdr) {taken : Nat → Bool} {start p : Nat}
    (member : p ∈ records hdr size limit start) :
    (headers hdr size limit start).find? taken = .some p ↔
      taken p = true ∧ ∀ o ∈ records hdr size limit start, o < p → taken o = false := by
  induction start using records_induction size limit some with
  | outside start outside =>
      rw [records_of_incomplete outside] at member
      cases member
  | inside start inside ih =>
      have behind {o : Nat} (later : o ∈ headers hdr size limit (start + (hdr + size start))) :
          start < o := by
        have from_next := le_of_mem_headers some later
        omega
      rw [records_of_complete some inside] at member ⊢
      rw [headers_of_complete some inside]
      cases first : taken start with
      | true =>
          rw [List.find?_cons_of_pos first]
          constructor
          · rintro ⟨⟩
            refine ⟨first, ?_⟩
            intro o among before
            rcases List.mem_cons.mp among with rfl | later
            · omega
            · have after := behind (mem_headers_of_records some later)
              omega
          · rintro ⟨-, clear⟩
            rcases List.mem_cons.mp member with rfl | later
            · rfl
            · have missed := clear start List.mem_cons_self
                (behind (mem_headers_of_records some later))
              rw [first] at missed
              cases missed
      | false =>
          rw [List.find?_cons_of_neg (by simp [first])]
          rcases List.mem_cons.mp member with rfl | later
          · constructor
            · intro found
              have after := behind (List.mem_of_find?_eq_some found)
              omega
            · rintro ⟨taken, -⟩
              rw [first] at taken
              cases taken
          · simp [ih later, first]

end Spec

end Smartchip.Foundation
