import Mathlib.Data.List.Basic

/-!
# Checked accesses

Reads of a buffer and writes to an array that have no value when they go outside, and an array
with the number of its first places that are in use.
-/

namespace Smartchip.Foundation

variable {α : Type} {size : Nat}

section Bind

variable {β : Type} {first : Option α}

/-- A step that needs something of its own, whatever the step before it has made. -/
theorem bind_isSome_iff {second : α → Option β} {here needs : Prop}
    (holds : first.isSome ↔ here) (also : ∀ a, first = some a → ((second a).isSome ↔ needs)) :
    (first >>= second).isSome ↔ here ∧ needs := by
  cases first with
  | none => simp [← holds]
  | some a => simp [← holds, also a rfl]

theorem bind_some_isSome {f : α → β} :
    (first >>= fun a => some (f a)).isSome ↔ first.isSome := by
  cases first <;> simp

/-- A step that is made only when it is called for. -/
def onlyIf (called : Prop) [Decidable called] (step : Option Unit) : Option Unit :=
  if called then step else some ()

@[simp] theorem onlyIf_isSome {called : Prop} [Decidable called] {step : Option Unit} :
    (onlyIf called step).isSome ↔ (called → step.isSome) := by
  unfold onlyIf
  split_ifs with here <;> simp [here]

@[simp] theorem then_isSome {step : Option Unit} {rest : Option β} :
    (step.bind fun _ => rest).isSome ↔ step.isSome ∧ rest.isSome := by
  cases step <;> simp

@[simp] theorem forM_isSome {xs : List α} {f : α → Option Unit} :
    (forM xs f).isSome ↔ ∀ x ∈ xs, (f x).isSome := by
  induction xs with
  | nil => simp
  | cons x xs ih =>
      rw [List.forM_cons, Option.bind_eq_bind, then_isSome, ih]
      simp

end Bind

/-- An access to `n` of the `size` places of something. -/
def inside (size ofs n : Nat) : Option Unit := if ofs + n ≤ size then some () else none

@[simp] theorem inside_isSome {ofs n : Nat} :
    (inside size ofs n).isSome ↔ ofs + n ≤ size := by
  unfold inside
  split_ifs with fits <;> simp [fits]

/-- The `n` values at an offset. -/
def fetch (buf : List α) (ofs n : Nat) : Option (List α) :=
  if ofs + n ≤ buf.length then some ((buf.drop ofs).take n) else none

@[simp] theorem fetch_isSome {buf : List α} {ofs n : Nat} :
    (fetch buf ofs n).isSome ↔ ofs + n ≤ buf.length := by
  unfold fetch
  split_ifs with inside <;> simp [inside]

theorem fetch_eq_some {buf data : List α} {ofs n : Nat} :
    fetch buf ofs n = some data ↔ ofs + n ≤ buf.length ∧ (buf.drop ofs).take n = data := by
  unfold fetch
  split_ifs with inside <;> simp [inside]

@[simp] theorem fetch_all (buf : List α) : fetch buf 0 buf.length = some buf := by
  simp [fetch]

def store (array : Vector α size) (ofs : Nat) (data : List α) : Option (Vector α size) :=
  if fits : ofs + data.length ≤ size then
    some ⟨(array.toList.take ofs ++ data ++ array.toList.drop (ofs + data.length)).toArray, by
      simp
      omega⟩
  else none

section Store

variable {array stored : Vector α size} {ofs : Nat} {data : List α}

@[simp] theorem store_isSome :
    (store array ofs data).isSome ↔ ofs + data.length ≤ size := by
  unfold store
  split_ifs with fits <;> simp [fits]

theorem toList_store (done : store array ofs data = some stored) :
    stored.toList =
      array.toList.take ofs ++ data ++ array.toList.drop (ofs + data.length) := by
  unfold store at done
  split_ifs at done
  cases done
  rfl

theorem toList_store_one {x : α} (done : store array ofs [x] = some stored) :
    stored.toList = array.toList.set ofs x := by
  have fits : (store array ofs [x]).isSome := by simp [done]
  rw [store_isSome, List.length_singleton] at fits
  rw [toList_store done, List.set_eq_take_append_cons_drop, if_pos (by simp; omega),
    List.append_assoc]
  rfl

/-- What has been stored can be stored again. -/
theorem store_stored (done : store array ofs data = some stored) :
    store stored ofs data = some stored := by
  have fits : (store array ofs data).isSome := by simp [done]
  obtain ⟨twice, again⟩ := Option.isSome_iff_exists.mp
    (store_isSome.mpr (store_isSome.mp fits) : (store stored ofs data).isSome)
  rw [store_isSome] at fits
  have front : (array.toList.take ofs).length = ofs := by
    simp
    omega
  have both : (array.toList.take ofs ++ data).length = ofs + data.length := by
    rw [List.length_append, front]
  have same : twice.toList = stored.toList := by
    rw [toList_store again, toList_store done, List.drop_left' both,
      List.append_assoc (array.toList.take ofs) data, List.take_left' front, List.append_assoc]
  rw [again, Vector.toList_inj.mp same]

/-- What is in front stays, and what is stored follows. -/
theorem take_store (done : store array ofs data = some stored) :
    stored.toList.take (ofs + data.length) = array.toList.take ofs ++ data := by
  have fits : (store array ofs data).isSome := by simp [done]
  rw [store_isSome] at fits
  have front : (array.toList.take ofs ++ data).length = ofs + data.length := by
    simp
    omega
  rw [toList_store done, ← front, List.take_left]

theorem take_store_zero (done : store array 0 data = some stored) :
    stored.toList.take data.length = data := by
  simpa using take_store done

end Store

/-- An array of which the first `len` places are in use. -/
structure Counted (α : Type) (size : Nat) where
  array : Vector α size
  len : Nat
  le : len ≤ size

namespace Counted

def held (c : Counted α size) : List α := c.array.toList.take c.len

@[simp] theorem length_held (c : Counted α size) : c.held.length = c.len := by
  simp [held, c.le]

def clear (c : Counted α size) : Counted α size := ⟨c.array, 0, Nat.zero_le _⟩

@[simp] theorem clear_len (c : Counted α size) : c.clear.len = 0 := rfl

@[simp] theorem clear_held (c : Counted α size) : c.clear.held = [] := rfl

def append (c : Counted α size) (data : List α) : Option (Counted α size) :=
  if fits : c.len + data.length ≤ size then
    (store c.array c.len data).map fun array => ⟨array, c.len + data.length, fits⟩
  else none

@[simp] theorem append_isSome {c : Counted α size} {data : List α} :
    (c.append data).isSome ↔ c.len + data.length ≤ size := by
  unfold append
  split_ifs with fits <;> simp [fits]

theorem append_len {c c' : Counted α size} {data : List α} (done : c.append data = some c') :
    c'.len = c.len + data.length := by
  unfold append at done
  split_ifs at done
  obtain ⟨array, -, rfl⟩ := Option.map_eq_some_iff.mp done
  rfl

theorem append_held {c c' : Counted α size} {data : List α} (done : c.append data = some c') :
    c'.held = c.held ++ data := by
  unfold append at done
  split_ifs at done
  obtain ⟨array, stored, rfl⟩ := Option.map_eq_some_iff.mp done
  exact take_store stored

/-- `array[len++] = x`. -/
def push (c : Counted α size) (x : α) : Option (Counted α size) := c.append [x]

/-- The values are put behind each other as long as there is room. -/
theorem pushes_isSome {c : Counted α size} {data : List α} :
    (data.foldlM push c).isSome ↔ c.len + data.length ≤ size := by
  induction data generalizing c with
  | nil => simp [c.le]
  | cons x data ih =>
      rw [List.foldlM_cons]
      cases pushed : c.push x with
      | none =>
          have full : ¬ (c.append [x]).isSome := by
            change ¬ (c.push x).isSome
            simp [pushed]
          rw [append_isSome, List.length_singleton] at full
          simp only [Option.bind_eq_bind, Option.bind_none, Option.isSome_none,
            List.length_cons, Bool.false_eq_true, false_iff]
          omega
      | some c' =>
          have len := append_len pushed
          simp only [Option.bind_eq_bind, Option.bind_some, ih, len, List.length_cons,
            List.length_nil]
          omega

theorem pushes_held {c c' : Counted α size} {data : List α}
    (done : data.foldlM push c = some c') : c'.held = c.held ++ data := by
  induction data generalizing c with
  | nil =>
      cases done
      simp
  | cons x data ih =>
      rw [List.foldlM_cons] at done
      obtain ⟨middle, pushed, done⟩ := Option.bind_eq_some_iff.mp done
      rw [ih done, append_held pushed, List.append_assoc, List.singleton_append]

end Counted

end Smartchip.Foundation
