import Mathlib.Data.List.Pairwise
import Mathlib.Data.List.Perm.Basic
import Mathlib.Tactic.Linarith

/-!
# Reordering windows over unbounded positions

The purpose of a receive reordering buffer, stated on integer positions: items
arrive in any order, are handed out in increasing position, and wait while a
position in front of them is missing.  `next` is the first position that is
still expected and at most `size` positions starting there are kept open.
-/

namespace Smartchip.Foundation

structure Window (α : Type*) where
  next : ℤ
  held : List (ℤ × α)

namespace Window

variable {α : Type*}

/-- Items are held in increasing position, strictly inside the window. -/
structure Valid (size : ℤ) (window : Window α) : Prop where
  sorted : (window.held.map Prod.fst).Pairwise (· < ·)
  inside : ∀ item ∈ window.held,
    window.next < item.1 ∧ item.1 < window.next + size

/-- Insert by position; `none` when the position is already held. -/
def insertAt (position : ℤ) (value : α) :
    List (ℤ × α) → Option (List (ℤ × α))
  | [] => some [(position, value)]
  | item :: rest =>
      if position < item.1 then some ((position, value) :: item :: rest)
      else if position = item.1 then none
      else (insertAt position value rest).map (item :: ·)

def bump (next position : ℤ) : ℤ :=
  if position = next then next + 1 else next

/-- Hand out the leading items that are no longer ahead of `next`. -/
def drain : ℤ → List (ℤ × α) → ℤ × List (ℤ × α) × List (ℤ × α)
  | next, [] => (next, [], [])
  | next, item :: rest =>
      if next < item.1 then (next, [], item :: rest)
      else
        let tail := drain (bump next item.1) rest
        (tail.1, item :: tail.2.1, tail.2.2)

def advance (size next position : ℤ) : ℤ :=
  if position = next then next + 1
  else if next + size - 1 < position then position - size + 1
  else next

/-- One arrival: the new window, the items handed out, whether it was kept. -/
def arrive (size : ℤ) (window : Window α) (position : ℤ) (value : α) :
    Window α × List (ℤ × α) × Bool :=
  if position < window.next then (window, [], false)
  else
    match insertAt position value window.held with
    | none => (window, [], false)
    | some held =>
        let drained := drain (advance size window.next position) held
        (⟨drained.1, drained.2.2⟩, drained.2.1, true)

/-- Give up on the missing positions in front of the first held item. -/
def skip (window : Window α) : Window α × List (ℤ × α) :=
  match window.held with
  | [] => (window, [])
  | item :: rest =>
      let drained := drain item.1 (item :: rest)
      (⟨drained.1, drained.2.2⟩, drained.2.1)

/-! ## Insertion -/

theorem insertAt_perm {position : ℤ} {value : α} {held result : List (ℤ × α)}
    (inserted : insertAt position value held = some result) :
    result.Perm ((position, value) :: held) := by
  induction held generalizing result with
  | nil =>
      simp only [insertAt, Option.some.injEq] at inserted
      exact inserted ▸ List.Perm.refl _
  | cons item rest ih =>
      simp only [insertAt] at inserted
      split at inserted
      · rw [Option.some.injEq] at inserted
        exact inserted ▸ List.Perm.refl _
      · split at inserted
        · contradiction
        · obtain ⟨tail, htail, rfl⟩ := Option.map_eq_some_iff.mp inserted
          exact (List.Perm.cons item (ih htail)).trans (List.Perm.swap _ _ _)

theorem mem_of_insertAt {position : ℤ} {value : α}
    {held result : List (ℤ × α)}
    (inserted : insertAt position value held = some result) (item : ℤ × α) :
    item ∈ result ↔ item = (position, value) ∨ item ∈ held := by
  rw [(insertAt_perm inserted).mem_iff, List.mem_cons]

theorem insertAt_sorted {position : ℤ} {value : α}
    {held result : List (ℤ × α)}
    (sorted : (held.map Prod.fst).Pairwise (· < ·))
    (inserted : insertAt position value held = some result) :
    (result.map Prod.fst).Pairwise (· < ·) := by
  induction held generalizing result with
  | nil =>
      simp only [insertAt, Option.some.injEq] at inserted
      subst result
      simp
  | cons item rest ih =>
      simp only [List.map_cons, List.pairwise_cons] at sorted
      obtain ⟨least, tailSorted⟩ := sorted
      simp only [insertAt] at inserted
      split at inserted
      · rename_i before
        rw [Option.some.injEq] at inserted
        subst result
        simp only [List.map_cons, List.pairwise_cons, List.mem_cons]
        refine ⟨?_, least, tailSorted⟩
        rintro other (rfl | member)
        · exact before
        · exact before.trans (least other member)
      · rename_i notBefore
        split at inserted
        · contradiction
        · rename_i different
          obtain ⟨tail, htail, rfl⟩ := Option.map_eq_some_iff.mp inserted
          simp only [List.map_cons, List.pairwise_cons]
          refine ⟨?_, ih tailSorted htail⟩
          intro other member
          obtain ⟨found, hfound, rfl⟩ := List.mem_map.mp member
          rcases (mem_of_insertAt htail found).mp hfound with rfl | hrest
          · exact lt_of_le_of_ne (not_lt.mp notBefore)
              (fun same => different same.symm)
          · exact least found.1 (List.mem_map_of_mem hrest)

theorem insertAt_eq_none {position : ℤ} {value : α} {held : List (ℤ × α)}
    (rejected : insertAt position value held = none) :
    ∃ item ∈ held, item.1 = position := by
  induction held with
  | nil => simp [insertAt] at rejected
  | cons item rest ih =>
      simp only [insertAt] at rejected
      split at rejected
      · contradiction
      · split at rejected
        · rename_i same
          exact ⟨item, by simp, same.symm⟩
        · obtain ⟨found, hfound, heq⟩ := ih (Option.map_eq_none_iff.mp rejected)
          exact ⟨found, by simp [hfound], heq⟩

theorem insertAt_between {position : ℤ} {value : α}
    {low high : List (ℤ × α)} (below : ∀ item ∈ low, item.1 < position)
    (above : ∀ item ∈ high, position < item.1) :
    insertAt position value (low ++ high) =
      some (low ++ (position, value) :: high) := by
  induction low with
  | nil =>
      cases high with
      | nil => rfl
      | cons item rest => simp [insertAt, above item (by simp)]
  | cons item rest ih =>
      have hitem := below item (by simp)
      have tail := ih (fun found member => below found (by simp [member]))
      simp [insertAt, not_lt.mpr hitem.le, hitem.ne', tail]

theorem insertAt_of_mem {position : ℤ} {value : α} {held : List (ℤ × α)}
    (sorted : (held.map Prod.fst).Pairwise (· < ·))
    (present : ∃ item ∈ held, item.1 = position) :
    insertAt position value held = none := by
  induction held with
  | nil => simp at present
  | cons item rest ih =>
      simp only [List.map_cons, List.pairwise_cons] at sorted
      obtain ⟨found, member, rfl⟩ := present
      rcases List.mem_cons.mp member with rfl | member
      · simp [insertAt]
      · have hitem := sorted.1 found.1 (List.mem_map_of_mem member)
        simp [insertAt, not_lt.mpr hitem.le, hitem.ne',
          ih sorted.2 ⟨found, member, rfl⟩]

/-! ## Draining -/

theorem le_bump (next position : ℤ) : next ≤ bump next position := by
  unfold bump
  split <;> omega

theorem lt_bump {next position : ℤ} (reached : position ≤ next) :
    position < bump next position := by
  unfold bump
  split <;> omega

theorem drain_append (next : ℤ) (held : List (ℤ × α)) :
    (drain next held).2.1 ++ (drain next held).2.2 = held := by
  induction held generalizing next with
  | nil => rfl
  | cons item rest ih =>
      simp only [drain]
      split
      · rfl
      · simp [ih]

theorem le_drain (next : ℤ) (held : List (ℤ × α)) :
    next ≤ (drain next held).1 := by
  induction held generalizing next with
  | nil => exact le_refl _
  | cons item rest ih =>
      simp only [drain]
      split
      · exact le_refl _
      · exact (le_bump next item.1).trans (ih _)

theorem drain_out_lt (next : ℤ) (held : List (ℤ × α)) :
    ∀ item ∈ (drain next held).2.1, item.1 < (drain next held).1 := by
  induction held generalizing next with
  | nil => simp [drain]
  | cons item rest ih =>
      simp only [drain]
      split
      · simp
      · rename_i reached
        intro found member
        rcases List.mem_cons.mp member with rfl | member
        · exact (lt_bump (not_lt.mp reached)).trans_le (le_drain _ rest)
        · exact ih _ found member

theorem lt_drain_left {next : ℤ} {held : List (ℤ × α)}
    (sorted : (held.map Prod.fst).Pairwise (· < ·)) :
    ∀ item ∈ (drain next held).2.2, (drain next held).1 < item.1 := by
  induction held generalizing next with
  | nil => simp [drain]
  | cons item rest ih =>
      simp only [List.map_cons, List.pairwise_cons] at sorted
      simp only [drain]
      split
      · rename_i ahead
        intro found member
        rcases List.mem_cons.mp member with rfl | member
        · exact ahead
        · exact ahead.trans (sorted.1 found.1 (List.mem_map_of_mem member))
      · exact ih sorted.2

theorem drain_le {next limit : ℤ} {held : List (ℤ × α)} (start : next ≤ limit)
    (bounded : ∀ item ∈ held, item.1 < limit) :
    (drain next held).1 ≤ limit := by
  induction held generalizing next with
  | nil => exact start
  | cons item rest ih =>
      simp only [drain]
      split
      · exact start
      · refine ih ?_ (fun found member => bounded found (by simp [member]))
        have := bounded item (by simp)
        unfold bump
        split <;> omega

theorem drain_valid {size next : ℤ} {held : List (ℤ × α)}
    (sorted : (held.map Prod.fst).Pairwise (· < ·))
    (bounded : ∀ item ∈ held, item.1 < next + size) :
    Valid size ⟨(drain next held).1, (drain next held).2.2⟩ where
  sorted := by
    have split := drain_append next held
    rw [← split, List.map_append] at sorted
    exact (List.pairwise_append.mp sorted).2.1
  inside := by
    intro item member
    refine ⟨lt_drain_left sorted item member, ?_⟩
    have inHeld : item ∈ held := by
      rw [← drain_append next held]
      exact List.mem_append_right _ member
    exact lt_of_lt_of_le (bounded item inHeld)
      (by linarith [le_drain next held])

theorem length_le_of_between {low high : ℤ} {positions : List ℤ}
    (gap : low < high) (sorted : positions.Pairwise (· < ·))
    (between : ∀ position ∈ positions, low < position ∧ position < high) :
    (positions.length : ℤ) ≤ high - low - 1 := by
  induction positions generalizing low with
  | nil => simp; omega
  | cons first rest ih =>
      rw [List.pairwise_cons] at sorted
      have hfirst := between first (by simp)
      have tail := ih hfirst.2 sorted.2 (fun position member =>
        ⟨sorted.1 position member, (between position (by simp [member])).2⟩)
      push_cast [List.length_cons]
      omega

theorem Valid.length_lt {size : ℤ} {window : Window α} (positive : 0 < size)
    (valid : Valid size window) : (window.held.length : ℤ) < size := by
  have inside : ∀ position ∈ window.held.map Prod.fst,
      window.next < position ∧ position < window.next + size := by
    intro position member
    obtain ⟨item, hitem, rfl⟩ := List.mem_map.mp member
    exact valid.inside item hitem
  have bound := length_le_of_between (by omega) valid.sorted inside
  rw [List.length_map] at bound
  omega

/-! ## Arrivals and skips -/

theorem le_advance (size next position : ℤ) :
    next ≤ advance size next position := by
  unfold advance
  split
  · omega
  · split <;> omega

theorem lt_advance_add {size : ℤ} (positive : 0 < size) (next position : ℤ) :
    position < advance size next position + size := by
  unfold advance
  split
  · omega
  · split <;> omega

/-- The window and the items handed out by an arrival, in the order handed out. -/
structure Handout (size : ℤ) (before after : Window α)
    (out : List (ℤ × α)) : Prop where
  valid : Valid size after
  forward : before.next ≤ after.next
  ordered : (out.map Prod.fst).Pairwise (· < ·)
  between : ∀ item ∈ out, before.next ≤ item.1 ∧ item.1 < after.next

private theorem drain_handout {size start : ℤ} {before : Window α}
    {held : List (ℤ × α)} (forward : before.next ≤ start)
    (sorted : (held.map Prod.fst).Pairwise (· < ·))
    (known : ∀ item ∈ held, before.next ≤ item.1)
    (bounded : ∀ item ∈ held, item.1 < start + size) :
    Handout size before ⟨(drain start held).1, (drain start held).2.2⟩
      (drain start held).2.1 where
  valid := drain_valid sorted bounded
  forward := forward.trans (le_drain start held)
  ordered := by
    have split := drain_append start held
    rw [← split, List.map_append] at sorted
    exact (List.pairwise_append.mp sorted).1
  between := by
    intro item member
    refine ⟨known item ?_, drain_out_lt start held item member⟩
    rw [← drain_append start held]
    exact List.mem_append_left _ member

private theorem handout_of_unchanged {size : ℤ} {window : Window α}
    (valid : Valid size window) : Handout size window window [] where
  valid := valid
  forward := le_refl _
  ordered := by simp
  between := by simp

theorem arrive_handout {size : ℤ} {window : Window α} (positive : 0 < size)
    (valid : Valid size window) (position : ℤ) (value : α) :
    Handout size window (arrive size window position value).1
      (arrive size window position value).2.1 := by
  unfold arrive
  split
  · exact handout_of_unchanged valid
  · rename_i known
    cases hinsert : insertAt position value window.held with
    | none => exact handout_of_unchanged valid
    | some held =>
        have known' : window.next ≤ position := not_lt.mp known
        refine drain_handout (le_advance size window.next position)
          (insertAt_sorted valid.sorted hinsert) ?_ ?_
        · intro item member
          rcases (mem_of_insertAt hinsert item).mp member with rfl | member
          · exact known'
          · exact (valid.inside item member).1.le
        · intro item member
          rcases (mem_of_insertAt hinsert item).mp member with rfl | member
          · exact lt_advance_add positive window.next position
          · have := (valid.inside item member).2
            have := le_advance size window.next position
            omega

theorem arrive_perm (size : ℤ) (window : Window α) (position : ℤ)
    (value : α) :
    ((arrive size window position value).2.1 ++
        (arrive size window position value).1.held).Perm
      (if (arrive size window position value).2.2
        then (position, value) :: window.held else window.held) := by
  unfold arrive
  split
  · simp
  · cases hinsert : insertAt position value window.held with
    | none => simp
    | some held =>
        simp only [drain_append, if_true]
        exact insertAt_perm hinsert

theorem skip_handout {size : ℤ} {window : Window α}
    (valid : Valid size window) :
    Handout size window (skip window).1 (skip window).2 := by
  obtain ⟨next, held⟩ := window
  cases held with
  | nil => exact handout_of_unchanged valid
  | cons item rest =>
      have first := valid.inside item (by simp)
      refine drain_handout first.1.le valid.sorted ?_ ?_
      · intro found member
        exact (valid.inside found member).1.le
      · intro found member
        have := (valid.inside found member).2
        have := first.1
        change found.1 < item.1 + size
        omega

theorem skip_append (window : Window α) :
    (skip window).2 ++ (skip window).1.held = window.held := by
  obtain ⟨next, held⟩ := window
  cases held with
  | nil => rfl
  | cons item rest => exact drain_append item.1 (item :: rest)

theorem arrive_expected {size : ℤ} {window : Window α}
    (valid : Valid size window) (value : α) :
    ∃ released,
      (arrive size window window.next value).2 =
          ((window.next, value) :: released, true) ∧
        released ++ (arrive size window window.next value).1.held =
          window.held := by
  have hinsert : insertAt window.next value window.held =
      some ((window.next, value) :: window.held) :=
    @insertAt_between α window.next value [] window.held (by simp)
      (fun item member => (valid.inside item member).1)
  have hdrain : drain (window.next + 1) ((window.next, value) :: window.held) =
      ((drain (window.next + 1) window.held).1,
        (window.next, value) :: (drain (window.next + 1) window.held).2.1,
        (drain (window.next + 1) window.held).2.2) := by
    have passed : ¬ window.next + 1 < window.next := by omega
    have later : window.next ≠ window.next + 1 := by omega
    simp only [drain, if_neg passed, bump, if_neg later]
  refine ⟨(drain (window.next + 1) window.held).2.1, ?_, ?_⟩
  · simp [arrive, hinsert, advance, hdrain]
  · simp only [arrive, lt_irrefl, if_false, hinsert, advance, if_true, hdrain]
    exact drain_append (window.next + 1) window.held

/-! ## Arrivals and skips that hand nothing out -/

private theorem head_lt_iff {start : ℤ} {held : List (ℤ × α)}
    (sorted : (held.map Prod.fst).Pairwise (· < ·)) :
    (∀ item ∈ held.head?, start < item.1) ↔
      ∀ item ∈ held, start < item.1 := by
  constructor
  · intro head item member
    cases held with
    | nil => simp at member
    | cons first rest =>
        have hfirst := head first rfl
        simp only [List.map_cons, List.pairwise_cons] at sorted
        rcases List.mem_cons.mp member with rfl | member
        · exact hfirst
        · exact hfirst.trans (sorted.1 item.1 (List.mem_map_of_mem member))
  · intro every item member
    exact every item (List.mem_of_mem_head? member)

private theorem drain_out_eq_nil {start : ℤ} {held : List (ℤ × α)} :
    (drain start held).2.1 = [] ↔ ∀ item ∈ held.head?, start < item.1 := by
  cases held with
  | nil => simp [drain]
  | cons first rest =>
      by_cases ahead : start < first.1 <;> simp [drain, ahead]

theorem arrive_out_eq_nil {size : ℤ} {window : Window α} (wide : 1 < size)
    (valid : Valid size window) (position : ℤ) (value : α) :
    (arrive size window position value).2.1 = [] ↔
      position ≠ window.next ∧ (position < window.next + size ∨
        ∀ item ∈ window.held.head?, position - size + 1 < item.1) := by
  by_cases late : position < window.next
  · simp only [arrive, late, if_true, true_iff]
    exact ⟨by omega, Or.inl (by omega)⟩
  · cases hinsert : insertAt position value window.held with
    | none =>
        obtain ⟨item, member, rfl⟩ := insertAt_eq_none hinsert
        have inside := valid.inside item member
        simp only [arrive, late, if_false, hinsert, true_iff]
        exact ⟨by omega, Or.inl (by omega)⟩
    | some inserted =>
        have hout : (arrive size window position value).2.1 = [] ↔
            advance size window.next position < position ∧
              ∀ item ∈ window.held,
                advance size window.next position < item.1 := by
          simp only [arrive, late, if_false, hinsert]
          rw [drain_out_eq_nil,
            head_lt_iff (insertAt_sorted valid.sorted hinsert)]
          simp only [mem_of_insertAt hinsert, forall_eq_or_imp]
        rw [hout, head_lt_iff valid.sorted]
        unfold advance
        by_cases same : position = window.next
        · simp [same]
        · by_cases beyond : window.next + size - 1 < position
          · have notInside : ¬position < window.next + size := by omega
            have reached : position - size + 1 < position := by omega
            simp [same, beyond, notInside, reached]
          · have isInside : position < window.next + size := by omega
            have ahead : window.next < position := by omega
            simp only [same, beyond, if_false, isInside, ahead, true_and,
              ne_eq, not_false_eq_true, true_or, iff_true]
            exact fun item member => (valid.inside item member).1

theorem skip_out_eq_nil (window : Window α) :
    (skip window).2 = [] ↔ window.held = [] := by
  obtain ⟨next, held⟩ := window
  cases held with
  | nil => simp [skip]
  | cons item rest => simp [skip, drain]

/-! ## How far one arrival or one skip can move the window -/

theorem arrive_next_le {size limit : ℤ} {window : Window α} {position : ℤ}
    (positive : 0 < size) (valid : Valid size window)
    (below : position < limit) (room : window.next + size ≤ limit)
    (value : α) : (arrive size window position value).1.next ≤ limit := by
  have hnext : window.next ≤ limit := by omega
  unfold arrive
  split
  · exact hnext
  · cases hinsert : insertAt position value window.held with
    | none => exact hnext
    | some held =>
        apply drain_le
        · unfold advance
          split
          · omega
          · split <;> omega
        · intro item member
          rcases (mem_of_insertAt hinsert item).mp member with rfl | member
          · exact below
          · have inside := valid.inside item member
            omega

theorem skip_next_le {size : ℤ} {window : Window α} (positive : 0 < size)
    (valid : Valid size window) :
    (skip window).1.next ≤ window.next + size := by
  obtain ⟨next, held⟩ := window
  cases held with
  | nil =>
      change next ≤ next + size
      omega
  | cons item rest =>
      have inside := valid.inside
      apply drain_le
      · exact (inside item (by simp)).2.le
      · exact fun found member => (inside found member).2

end Window

end Smartchip.Foundation
