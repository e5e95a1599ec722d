import Smartchip.Foundation.ShiftRegister
import Mathlib.Tactic.Linarith

/-!
# Smoothed signal strength

What the smoothing of `rssi_process` is for, in integers and with all packets of a station at hand:
a mean of the old and the new strength for each kind of packet, and a mean of the two by the number
of OFDM packets among the last 64.
-/

namespace Smartchip.Ars

open Smartchip.Foundation

/-! ## Weighted means -/

/-- The mean of `a` with weight `w` and `b` with the rest of `n`, rounded down. -/
def mean (w n a b : ℤ) : ℤ := (w * a + (n - w) * b) / n

section Mean

variable {w n a b : ℤ}

theorem mean_le {high : ℤ} (weight : 0 ≤ w ∧ w ≤ n) (total : 0 < n) (first : a ≤ high)
    (second : b ≤ high) : mean w n a b ≤ high := by
  have left : w * a ≤ w * high := Int.mul_le_mul_of_nonneg_left first weight.left
  have right : (n - w) * b ≤ (n - w) * high :=
    Int.mul_le_mul_of_nonneg_left second (by omega)
  apply Int.ediv_le_of_le_mul total
  linarith

theorem le_mean {low : ℤ} (weight : 0 ≤ w ∧ w ≤ n) (total : 0 < n) (first : low ≤ a)
    (second : low ≤ b) : low ≤ mean w n a b := by
  have left : w * low ≤ w * a := Int.mul_le_mul_of_nonneg_left first weight.left
  have right : (n - w) * low ≤ (n - w) * b :=
    Int.mul_le_mul_of_nonneg_left second (by omega)
  apply Int.le_ediv_of_mul_le total
  linarith

/-- A mean is between two of the values that have a weight. -/
theorem mean_between (weight : 0 ≤ w ∧ w ≤ n) (total : 0 < n) (value : ℤ → Prop)
    (first : 0 < w → value a) (second : w < n → value b) :
    ∃ low high, value low ∧ value high ∧ low ≤ mean w n a b ∧ mean w n a b ≤ high := by
  rcases lt_or_ge 0 w with some | none
  · rcases lt_or_ge w n with rest | all
    · rcases Int.le_total a b with le | le
      · exact ⟨a, b, first some, second rest, le_mean weight total (Int.le_refl a) le,
          mean_le weight total le (Int.le_refl b)⟩
      · exact ⟨b, a, second rest, first some, le_mean weight total le (Int.le_refl b),
          mean_le weight total (Int.le_refl a) le⟩
    · have whole : mean w n a b = a := by
        have same : w = n := by omega
        simp [mean, same, Int.mul_ediv_cancel_left a (by omega : n ≠ 0)]
      exact ⟨a, a, first some, first some, by omega, by omega⟩
  · have whole : mean w n a b = b := by
      have same : w = 0 := by omega
      simp [mean, same, Int.mul_ediv_cancel_left b (by omega : n ≠ 0)]
    exact ⟨b, b, second (by omega), second (by omega), by omega, by omega⟩

end Mean

/-! ## The smoothing -/

/-- A packet: its kind, the strength that starts a mean, and the one that goes into it. -/
structure Sample where
  ofdm : Bool
  all : ℤ
  ave : ℤ

/-- `kinds` has the newest packet first, and `true` for OFDM. -/
structure Smoothed where
  pwdb : ℤ
  cck : ℤ
  ofdm : ℤ
  kinds : List Bool
  validBit : ℤ

def Smoothed.start : Smoothed := ⟨0, 0, 0, [], 0⟩

/-- OFDM packets among the last 64. -/
def ofdmAmong (kinds : List Bool) : ℤ := ((kinds.take 64).count true : ℕ)

def nextMean (smoothed all ave : ℤ) : ℤ :=
  if smoothed ≤ 0 then all
  else if all > smoothed then mean 19 20 smoothed ave + 1
  else mean 19 20 smoothed ave

def weightOf (count : ℤ) : ℤ := if count * 16 > 64 then 64 else count * 16

def strength (count validBit ofdm cck : ℤ) : ℤ :=
  if count = 64 then ofdm
  else if validBit = 64 then mean (weightOf count) 64 ofdm cck
  else if validBit ≠ 0 then mean count validBit ofdm cck
  else 0

def nextValid (count validBit : ℤ) : ℤ :=
  if count = 64 then validBit else if validBit < 64 then validBit + 1 else validBit

def Smoothed.packet (x : Smoothed) (p : Sample) : Smoothed :=
  let kinds := p.ofdm :: x.kinds
  let cck := if p.ofdm then x.cck else nextMean x.cck p.all p.ave
  let ofdm := if p.ofdm then nextMean x.ofdm p.all p.ave else x.ofdm
  let validBit := nextValid (ofdmAmong kinds) x.validBit
  ⟨strength (ofdmAmong kinds) validBit ofdm cck, cck, ofdm, kinds, validBit⟩

/-! ## Bounds -/

/-- A signal strength. -/
def Percent (x : ℤ) : Prop := 0 ≤ x ∧ x ≤ 100

/-- `ValidBit` counts the packets up to 64, but not those that make the last 64 all OFDM. -/
inductive ValidOk (kinds : List Bool) (validBit : ℤ) : Prop
  | few (count : validBit = kinds.length) (few : kinds.length < 64)
  | allOFDM (stopped : validBit = 63) (all : ofdmAmong kinds = 64)
  | full (full : validBit = 64) (many : 64 ≤ kinds.length)

structure Smoothed.Ok (x : Smoothed) : Prop where
  cck : Percent x.cck
  ofdm : Percent x.ofdm
  valid : ValidOk x.kinds x.validBit
  pwdb : x.pwdb = strength (ofdmAmong x.kinds) x.validBit x.ofdm x.cck

theorem nextMean_percent {smoothed all ave : ℤ} (before : Percent smoothed) (start : Percent all)
    (fresh : Percent ave) : Percent (nextMean smoothed all ave) := by
  unfold Percent at *
  unfold nextMean mean
  split_ifs <;> omega

theorem ofdmAmong_range (kinds : List Bool) : 0 ≤ ofdmAmong kinds ∧ ofdmAmong kinds ≤ 64 := by
  have most := count_take_le kinds 64
  unfold ofdmAmong
  omega

theorem ofdmAmong_le_length (kinds : List Bool) : ofdmAmong kinds ≤ kinds.length := by
  have most : (kinds.take 64).count true ≤ (kinds.take 64).length := List.count_le_length
  unfold ofdmAmong
  simp only [List.length_take] at most
  omega

/-- The count without the count: what comes in less what goes out. -/
theorem ofdmAmong_cons (bit : Bool) (kinds : List Bool) :
    ofdmAmong (bit :: kinds) =
      ofdmAmong kinds + (bit.toNat : ℤ) - ((kinds.getD 63 false).toNat : ℤ) := by
  have moved : ((bit :: kinds).take 64).count true + _ = (kinds.take 64).count true + _ :=
    count_take_cons bit kinds 63
  unfold ofdmAmong
  omega

theorem mem_of_ofdmAmong {kinds : List Bool} (some : 0 < ofdmAmong kinds) : true ∈ kinds := by
  have positive : 0 < (kinds.take 64).count true := by
    unfold ofdmAmong at some
    omega
  exact List.mem_of_mem_take (List.count_pos_iff.mp positive)

theorem mem_of_rest {kinds : List Bool} (rest : ofdmAmong kinds < (kinds.take 64).length) :
    false ∈ kinds := by
  have less : (kinds.take 64).count true ≠ (kinds.take 64).length := by
    unfold ofdmAmong at rest
    omega
  by_contra none
  apply less
  rw [List.count_eq_length]
  intro bit member
  cases bit with
  | false => exact absurd (List.mem_of_mem_take member) none
  | true => rfl

theorem ValidOk.next {kinds : List Bool} {validBit : ℤ} (ok : ValidOk kinds validBit)
    (bit : Bool) : ValidOk (bit :: kinds) (nextValid (ofdmAmong (bit :: kinds)) validBit) := by
  have length : (bit :: kinds).length = kinds.length + 1 := rfl
  have most := ofdmAmong_le_length (bit :: kinds)
  have range := ofdmAmong_range (bit :: kinds)
  unfold nextValid
  cases ok with
  | few count few =>
      split_ifs with all room
      · exact .allOFDM (by omega) all
      · rcases Nat.lt_or_ge (bit :: kinds).length 64 with still | full
        · exact .few (by omega) still
        · exact .full (by omega) full
      · omega
  | allOFDM stopped all =>
      split_ifs with still room
      · exact .allOFDM stopped still
      · have long := ofdmAmong_le_length kinds
        exact .full (by omega) (by omega)
      · omega
  | full full many =>
      split_ifs with all room
      · exact .full full (by omega)
      · omega
      · exact .full full (by omega)

theorem ValidOk.le {kinds : List Bool} {validBit : ℤ} (ok : ValidOk kinds validBit) :
    0 ≤ validBit ∧ validBit ≤ 64 := by
  cases ok with
  | few count few => omega
  | allOFDM stopped _ => omega
  | full full _ => omega

theorem ValidOk.left {kinds : List Bool} {validBit : ℤ} (ok : ValidOk kinds validBit) :
    ofdmAmong kinds = 64 ∨ ofdmAmong kinds ≤ validBit := by
  have most := ofdmAmong_le_length kinds
  have range := ofdmAmong_range kinds
  cases ok with
  | few count _ => omega
  | allOFDM _ all => exact .inl all
  | full full _ => omega

theorem Smoothed.Ok.packet {x : Smoothed} {p : Sample} (ok : x.Ok) (all : Percent p.all)
    (ave : Percent p.ave) : (x.packet p).Ok where
  cck := by
    unfold Smoothed.packet
    cases p.ofdm
    · exact nextMean_percent ok.cck all ave
    · exact ok.cck
  ofdm := by
    unfold Smoothed.packet
    cases p.ofdm
    · exact ok.ofdm
    · exact nextMean_percent ok.ofdm all ave
  valid := ok.valid.next p.ofdm
  pwdb := rfl

theorem Smoothed.start_ok : Smoothed.start.Ok where
  cck := ⟨by decide, by decide⟩
  ofdm := ⟨by decide, by decide⟩
  valid := .few rfl (by decide)
  pwdb := by decide

/-- The smoothed values of the kinds of packet seen so far. -/
inductive Smoothed.Seen (x : Smoothed) : ℤ → Prop
  | cck (seen : false ∈ x.kinds) : x.Seen x.cck
  | ofdm (seen : true ∈ x.kinds) : x.Seen x.ofdm

theorem weightOf_range {count : ℤ} (range : 0 ≤ count) :
    0 ≤ weightOf count ∧ weightOf count ≤ 64 := by
  unfold weightOf
  split_ifs <;> omega

theorem Smoothed.Ok.between {x : Smoothed} (ok : x.Ok) (seen : x.kinds ≠ []) :
    ∃ low high, x.Seen low ∧ x.Seen high ∧ low ≤ x.pwdb ∧ x.pwdb ≤ high := by
  have range := ofdmAmong_range x.kinds
  have length := List.length_pos_iff.mpr seen
  rw [ok.pwdb]
  unfold strength
  split_ifs with all full any
  · have some : x.Seen x.ofdm := .ofdm (mem_of_ofdmAmong (by omega))
    exact ⟨x.ofdm, x.ofdm, some, some, by omega, by omega⟩
  · have many : 64 ≤ x.kinds.length := by
      cases ok.valid with
      | few count few => omega
      | allOFDM stopped _ => omega
      | full _ many => exact many
    refine mean_between (weightOf_range range.left) (by omega) x.Seen ?_ ?_
    · intro weight
      unfold weightOf at weight
      exact .ofdm (mem_of_ofdmAmong (by split_ifs at weight <;> omega))
    · intro weight
      refine .cck (mem_of_rest ?_)
      rw [List.length_take]
      omega
  · have count : x.validBit = x.kinds.length := by
      cases ok.valid with
      | few count _ => exact count
      | allOFDM _ all' => exact absurd all' all
      | full full' _ => exact absurd full' full
    have most := ofdmAmong_le_length x.kinds
    refine mean_between (by omega) (by omega) x.Seen ?_ ?_
    · intro some
      exact .ofdm (mem_of_ofdmAmong some)
    · intro rest
      refine .cck (mem_of_rest ?_)
      rw [List.length_take]
      omega
  · exfalso
    cases ok.valid with
    | few count _ => omega
    | allOFDM stopped _ => omega
    | full full' _ => omega

end Smartchip.Ars
