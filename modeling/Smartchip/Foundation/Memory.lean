import Mathlib.Data.List.Basic
import Mathlib.Data.Nat.Bitwise

/-!
# Byte memory

A flat memory of bytes, with block reads and writes and the little-endian and
big-endian fields that packet formats are made of.
-/

namespace Smartchip.Foundation

abbrev Mem := Nat → UInt8

namespace Mem

def read (mem : Mem) (addr n : Nat) : List UInt8 :=
  (List.range n).map fun i => mem (addr + i)

def write (mem : Mem) (addr : Nat) (bytes : List UInt8) : Mem :=
  fun i => if addr ≤ i then (bytes[i - addr]?).getD (mem i) else mem i

/-! ## Block reads -/

@[simp] theorem length_read (mem : Mem) (addr n : Nat) :
    (read mem addr n).length = n := by
  simp [read]

@[simp] theorem read_zero (mem : Mem) (addr : Nat) : read mem addr 0 = [] := rfl

theorem getElem?_read (mem : Mem) (addr : Nat) {n i : Nat} (inside : i < n) :
    (read mem addr n)[i]? = some (mem (addr + i)) := by
  simp [read, inside]

theorem read_add (mem : Mem) (addr m n : Nat) :
    read mem addr (m + n) = read mem addr m ++ read mem (addr + m) n := by
  simp [read, List.range_add, Nat.add_assoc]

theorem drop_read (mem : Mem) (addr n k : Nat) :
    (read mem addr n).drop k = read mem (addr + k) (n - k) := by
  by_cases inside : k ≤ n
  · obtain ⟨rest, rfl⟩ := Nat.exists_eq_add_of_le inside
    rw [read_add, List.drop_left' (length_read mem addr k)]
    congr 1
    omega
  · rw [List.drop_eq_nil_of_le (by simp; omega)]
    have empty : n - k = 0 := by omega
    rw [empty, read_zero]

theorem take_read (mem : Mem) (addr : Nat) {n k : Nat} (inside : k ≤ n) :
    (read mem addr n).take k = read mem addr k := by
  obtain ⟨rest, rfl⟩ := Nat.exists_eq_add_of_le inside
  rw [read_add, List.take_left' (length_read mem addr k)]

/-! ## Block writes -/

@[simp] theorem write_nil (mem : Mem) (addr : Nat) : write mem addr [] = mem := by
  funext i
  simp [write]

theorem write_before (mem : Mem) {addr i : Nat} (bytes : List UInt8)
    (before : i < addr) : write mem addr bytes i = mem i := by
  simp [write, not_le.mpr before]

theorem write_after (mem : Mem) {addr i : Nat} {bytes : List UInt8}
    (after : addr + bytes.length ≤ i) : write mem addr bytes i = mem i := by
  have outside : bytes.length ≤ i - addr := by omega
  simp [write, List.getElem?_eq_none outside]

theorem write_inside (mem : Mem) (addr : Nat) {bytes : List UInt8} {i : Nat}
    (inside : i < bytes.length) :
    some (write mem addr bytes (addr + i)) = bytes[i]? := by
  simp [write, List.getElem?_eq_getElem inside]

theorem read_write_apart (mem : Mem) {addr start n : Nat} {bytes : List UInt8}
    (apart : start + n ≤ addr ∨ addr + bytes.length ≤ start) :
    read (write mem addr bytes) start n = read mem start n := by
  unfold read
  apply List.map_congr_left
  intro i member
  have bound := List.mem_range.mp member
  rcases apart with before | after
  · exact write_before mem bytes (by omega)
  · exact write_after mem (by omega)

theorem read_write_inside (mem : Mem) {addr k n : Nat} {bytes : List UInt8}
    (inside : k + n ≤ bytes.length) :
    read (write mem addr bytes) (addr + k) n = (bytes.drop k).take n := by
  apply List.ext_getElem?
  intro i
  by_cases bound : i < n
  · rw [getElem?_read _ _ bound, Nat.add_assoc, write_inside mem addr (by omega),
      List.getElem?_take_of_lt bound, List.getElem?_drop]
  · rw [List.getElem?_eq_none (by simp; omega),
      List.getElem?_eq_none (by simp; omega)]

theorem read_write_self (mem : Mem) (addr : Nat) (bytes : List UInt8) :
    read (write mem addr bytes) addr bytes.length = bytes := by
  have whole := @read_write_inside mem addr 0 bytes.length bytes (by omega)
  simpa using whole

theorem write_append (mem : Mem) (addr : Nat) (first second : List UInt8) :
    write (write mem addr first) (addr + first.length) second =
      write mem addr (first ++ second) := by
  funext i
  by_cases low : i < addr
  · rw [write_before _ _ (by omega), write_before _ _ low,
      write_before _ _ low]
  · obtain ⟨k, rfl⟩ := Nat.exists_eq_add_of_le (Nat.not_lt.mp low)
    by_cases inside : k < first.length
    · simp [write, inside, not_le.mpr inside, List.getElem?_append]
    · have rest : addr + k - (addr + first.length) = k - first.length := by omega
      simp [write, inside, Nat.not_lt.mp inside, rest, List.getElem?_append]

theorem write_read (mem : Mem) (addr n : Nat) :
    write mem addr (read mem addr n) = mem := by
  funext i
  by_cases low : i < addr
  · exact write_before _ _ low
  · obtain ⟨k, rfl⟩ := Nat.exists_eq_add_of_le (Nat.not_lt.mp low)
    by_cases inside : k < n
    · simp [write, getElem?_read mem addr inside]
    · exact write_after _ (by simp; omega)

theorem read_eq_iff {mem other : Mem} {addr n : Nat} :
    read mem addr n = read other addr n ↔ ∀ i < n, mem (addr + i) = other (addr + i) := by
  simp [read]

/-- A write changes nothing before an address exactly when it writes what is there. -/
theorem write_fit_iff {mem : Mem} {addr n : Nat} {bytes : List UInt8} :
    (∀ i < addr + n, write mem addr bytes i = mem i) ↔
      (read mem addr n).take bytes.length <+: bytes := by
  simp only [List.prefix_iff_getElem?, List.length_take, length_read, List.getElem_take]
  constructor
  · intro same i inside
    have here := same (addr + i) (by omega)
    have written : some (write mem addr bytes (addr + i)) = bytes[i]? :=
      write_inside mem addr (by omega)
    rw [← written, here]
    simp [read]
  · intro fit i inside
    by_cases low : i < addr
    · exact write_before mem bytes low
    · obtain ⟨k, rfl⟩ := Nat.exists_eq_add_of_le (Nat.not_lt.mp low)
      by_cases short : k < bytes.length
      · have there := fit k (by omega)
        rw [← write_inside mem addr short] at there
        simpa [read] using there
      · exact write_after mem (by omega)

theorem read_write_copy (mem : Mem) {other : Mem} {addr start len k n : Nat}
    {bytes : List UInt8} (copied : bytes.take len = read other start len)
    (inside : k + n ≤ len) :
    read (write mem addr bytes) (addr + k) n = read other (start + k) n := by
  have long : len ≤ bytes.length := by
    have count := congrArg List.length copied
    rw [List.length_take, length_read] at count
    omega
  have part := congrArg (fun block => (block.drop k).take n) copied
  simp only [drop_read, List.drop_take, List.take_take] at part
  rw [take_read _ _ (by omega), Nat.min_eq_left (by omega)] at part
  rw [read_write_inside mem (by omega), part]

/-! ## Two-byte fields -/

end Mem

def le16 (value : UInt16) : List UInt8 :=
  [UInt8.ofNat value.toNat, UInt8.ofNat (value.toNat / 256)]

def be16 (value : UInt16) : List UInt8 :=
  [UInt8.ofNat (value.toNat / 256), UInt8.ofNat value.toNat]

def le32 (value : UInt32) : List UInt8 :=
  [UInt8.ofNat value.toNat, UInt8.ofNat (value.toNat / 256),
    UInt8.ofNat (value.toNat / 65536), UInt8.ofNat (value.toNat / 16777216)]

@[simp] theorem length_le16 (value : UInt16) : (le16 value).length = 2 := rfl

@[simp] theorem length_be16 (value : UInt16) : (be16 value).length = 2 := rfl

@[simp] theorem length_le32 (value : UInt32) : (le32 value).length = 4 := rfl

/-- The value of two bytes, low byte first. -/
def ofLe16 (low high : UInt8) : UInt16 :=
  UInt16.ofNat (low.toNat + 256 * high.toNat)

def le16At (bytes : List UInt8) (i : Nat) : UInt16 :=
  ofLe16 (bytes.getD i 0) (bytes.getD (i + 1) 0)

theorem le16At_take {bytes : List UInt8} {i n : Nat} (inside : i + 1 < n) :
    le16At (bytes.take n) i = le16At bytes i := by
  unfold le16At
  simp [List.getD_eq_getElem?_getD, show i < n by omega, inside]

theorem ofLe16_toNat (value : UInt16) :
    ofLe16 (UInt8.ofNat value.toNat) (UInt8.ofNat (value.toNat / 256)) =
      value := by
  have bound := value.toNat_lt
  apply UInt16.toNat_inj.mp
  simp only [ofLe16, UInt16.toNat_ofNat', UInt8.toNat_ofNat']
  omega

theorem be16_ofLe16 (low high : UInt8) :
    be16 (ofLe16 low high) = [high, low] := by
  have lowBound := low.toNat_lt
  have highBound := high.toNat_lt
  simp only [be16, ofLe16, List.cons.injEq, and_true]
  constructor
  · apply UInt8.toNat_inj.mp
    simp only [UInt16.toNat_ofNat', UInt8.toNat_ofNat']
    omega
  · apply UInt8.toNat_inj.mp
    simp only [UInt16.toNat_ofNat', UInt8.toNat_ofNat']
    omega

namespace Mem

def readLe16 (mem : Mem) (addr : Nat) : UInt16 :=
  ofLe16 (mem addr) (mem (addr + 1))

def readBe16 (mem : Mem) (addr : Nat) : UInt16 :=
  ofLe16 (mem (addr + 1)) (mem addr)

theorem readLe16_write_self (mem : Mem) (addr : Nat) (value : UInt16) :
    readLe16 (write mem addr (le16 value)) addr = value := by
  have low : write mem addr (le16 value) addr = UInt8.ofNat value.toNat := by
    simp [write, le16]
  have high : write mem addr (le16 value) (addr + 1) =
      UInt8.ofNat (value.toNat / 256) := by
    simp [write, le16]
  rw [readLe16, low, high, ofLe16_toNat]

theorem readLe16_write_apart (mem : Mem) {addr start : Nat}
    {bytes : List UInt8}
    (apart : start + 2 ≤ addr ∨ addr + bytes.length ≤ start) :
    readLe16 (write mem addr bytes) start = readLe16 mem start := by
  rcases apart with before | after
  · rw [readLe16, write_before mem bytes (by omega),
      write_before mem bytes (by omega), readLe16]
  · rw [readLe16, write_after mem (by omega), write_after mem (by omega),
      readLe16]

theorem write_getD {mem : Mem} {addr i : Nat} {bytes : List UInt8}
    (inside : i < bytes.length) : write mem addr bytes (addr + i) = bytes.getD i 0 := by
  have byte := write_inside mem addr inside
  rw [List.getElem?_eq_getElem inside, Option.some.injEq] at byte
  rw [byte, List.getD_eq_getElem _ _ inside]

theorem readLe16_write_getD {mem : Mem} {addr i : Nat} {bytes : List UInt8}
    (inside : i + 1 < bytes.length) :
    readLe16 (write mem addr bytes) (addr + i) = le16At bytes i := by
  unfold readLe16 le16At
  rw [write_getD (by omega), Nat.add_assoc, write_getD inside]

theorem readLe16_of_read {mem : Mem} {addr : Nat} {low high : UInt8}
    (bytes : read mem addr 2 = [low, high]) :
    readLe16 mem addr = ofLe16 low high := by
  simp only [read, List.range_succ, List.range_zero, List.nil_append,
    List.map_cons, List.map_nil, List.cons_append, List.cons.injEq,
    Nat.add_zero, and_true] at bytes
  rw [readLe16, bytes.1, bytes.2]

theorem readLe16_congr {mem other : Mem} {addr start : Nat}
    (same : read mem addr 2 = read other start 2) :
    readLe16 mem addr = readLe16 other start := by
  have bytes : read other start 2 = [other start, other (start + 1)] := rfl
  rw [readLe16_of_read (same.trans bytes), readLe16]

end Mem

/-! ## Bit fields -/

theorem field_replaced (word value mask : UInt16) :
    ((word &&& ~~~mask) ||| (value &&& mask)) &&& mask = value &&& mask := by
  apply UInt16.toBitVec_inj.mp
  apply BitVec.eq_of_getLsbD_eq
  intro i inside
  simp only [UInt16.toBitVec_and, UInt16.toBitVec_or, UInt16.toBitVec_not,
    BitVec.getLsbD_and, BitVec.getLsbD_or, BitVec.getLsbD_not, inside, decide_true,
    Bool.true_and]
  cases mask.toBitVec.getLsbD i <;> simp

theorem field_kept (word value : UInt16) {mask other : UInt16}
    (apart : mask &&& other = 0) :
    ((word &&& ~~~mask) ||| (value &&& mask)) &&& other = word &&& other := by
  apply UInt16.toBitVec_inj.mp
  apply BitVec.eq_of_getLsbD_eq
  intro i inside
  have bit := congrArg (fun word => word.toBitVec.getLsbD i) apart
  simp only [UInt16.toBitVec_and, UInt16.toBitVec_ofNat, BitVec.getLsbD_and,
    BitVec.getLsbD_zero] at bit
  simp only [UInt16.toBitVec_and, UInt16.toBitVec_or, UInt16.toBitVec_not,
    BitVec.getLsbD_and, BitVec.getLsbD_or, BitVec.getLsbD_not, inside, decide_true,
    Bool.true_and]
  cases hmask : mask.toBitVec.getLsbD i with
  | false => simp
  | true =>
      rw [hmask, Bool.true_and] at bit
      rw [bit, Bool.and_false, Bool.and_false]

end Smartchip.Foundation
