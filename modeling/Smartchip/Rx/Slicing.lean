import Smartchip.Foundation.Blocks
import Smartchip.Rx.Dispatch

/-!
# Slicing a receive buffer

`rx_work` (`os/linux/rx_linux.c`) takes one packet after the other from a
buffer, each rounded up to eight bytes, until what remains is used up or a
descriptor is not valid.
-/

namespace Smartchip.Rx

open Smartchip.Foundation

/-! ## One descriptor -/

/-- The bytes of a packet from address 0 on. -/
def packetMem (packet : List UInt8) : Mem := Mem.write (fun _ => 0) 0 packet

theorem readLe16_moved {mem other : Mem} {base start n k : Nat}
    (same : mem.read base n = other.read start n) (inside : k + 2 ≤ n) :
    mem.readLe16 (base + k) = other.readLe16 (start + k) := by
  have part := congrArg (fun bytes => (bytes.drop k).take 2) same
  simp only [Mem.drop_read] at part
  rw [Mem.take_read _ _ (by omega), Mem.take_read _ _ (by omega)] at part
  exact Mem.readLe16_congr part

section Descriptor

variable {build : RxBuild} {mem other : Mem} {base start remain : Nat}

theorem rxdBits_moved (same : mem.read base 24 = other.read start 24) {word : Nat}
    (inside : word + 4 ≤ 24) (low width : Nat) :
    rxdBits mem (base + word) low width = rxdBits other (start + word) low width := by
  have first := readLe16_moved same (show word + 2 ≤ 24 by omega)
  have second := readLe16_moved same (show word + 2 + 2 ≤ 24 by omega)
  simp only [← Nat.add_assoc] at second
  rw [rxdBits, rxdBits, first, second]

theorem chksum_moved (same : mem.read base 24 = other.read start 24) :
    wfRxdescChksum mem base = wfRxdescChksum other start := by
  have words : ∀ i ∈ List.range 11,
      mem.readLe16 (base + 2 * i) = other.readLe16 (start + 2 * i) := by
    intro i member
    have bound := List.mem_range.mp member
    exact readLe16_moved same (by omega)
  have last := readLe16_moved same (show 22 + 2 ≤ 24 by omega)
  unfold wfRxdescChksum
  rw [last]
  congr 1
  apply List.foldl_ext
  intro sum i member
  rw [words i member]

/-- What is read of a descriptor does not depend on where it stands. -/
theorem wfRxGetPktLenAndCheckValid_moved
    (same : mem.read base 24 = other.read start 24) :
    wfRxGetPktLenAndCheckValid build mem base remain =
      wfRxGetPktLenAndCheckValid build other start remain := by
  have word0 := rxdBits_moved same (show 0 + 4 ≤ 24 by omega)
  have word1 := rxdBits_moved same (show 4 + 4 ≤ 24 by omega)
  have word2 := rxdBits_moved same (show 8 + 4 ≤ 24 by omega)
  simp only [Nat.add_zero] at word0
  simp only [wfRxGetPktLenAndCheckValid, chksum_moved same, word0, word1, word2]

theorem rxdBits_lt (mem : Mem) (word low width : Nat) :
    rxdBits mem word low width < 2 ^ width :=
  Nat.mod_lt _ (Nat.two_pow_pos width)

/-- A valid packet has a descriptor and the driver information, and fits. -/
theorem valid_length
    (valid : (wfRxGetPktLenAndCheckValid build mem base remain).2 = true) :
    rxdescSize + 32 < (wfRxGetPktLenAndCheckValid build mem base remain).1 ∧
      (wfRxGetPktLenAndCheckValid build mem base remain).1 ≤ remain ∧
      (wfRxGetPktLenAndCheckValid build mem base remain).1 ≤ 16439 := by
  have len0 := rxdBits_lt mem base 0 14
  have len1 := rxdBits_lt mem (base + 4) 0 14
  have small := Nat.mod_le remain 65536
  unfold wfRxGetPktLenAndCheckValid at valid ⊢
  split_ifs at valid ⊢ with sum build200
  · obtain ⟨some, drvinfo, -, -, fits, -⟩ := of_decide_eq_true valid
    simp only [drvinfo, rxdescSize] at fits ⊢
    omega
  · obtain ⟨some, -, fits, -⟩ := of_decide_eq_true valid
    simp only [rxdescSize] at fits ⊢
    omega

end Descriptor

theorem le_wfRnd8 (x : Nat) : x ≤ wfRnd8 x := by
  unfold wfRnd8
  split <;> omega

theorem wfRnd8_lt (x : Nat) : wfRnd8 x < x + 8 := by
  unfold wfRnd8
  split <;> omega

/-! ## The loop -/

section Loop

variable {build : RxBuild} {mem : Mem}

/-- Another turn only comes when something remains, and it takes something away. -/
theorem rxLoop_fuel {fuel pbuf remain : Nat} (enough : remain < fuel) (more : Nat) :
    rxLoop build mem (fuel + more) pbuf remain = rxLoop build mem fuel pbuf remain := by
  induction fuel generalizing pbuf remain with
  | zero => omega
  | succ fuel ih =>
      rw [show fuel + 1 + more = fuel + more + 1 by omega]
      simp only [rxLoop]
      cases valid : (wfRxGetPktLenAndCheckValid build mem pbuf remain).2 with
      | false => simp
      | true =>
          have long := (valid_length valid).1
          have rounded := le_wfRnd8 (wfRxGetPktLenAndCheckValid build mem pbuf remain).1
          by_cases last :
              remain ≤ wfRnd8 (wfRxGetPktLenAndCheckValid build mem pbuf remain).1
          · simp [last]
          · simp only [Bool.true_eq_false, if_false, last]
            rw [ih (by omega)]

/-- Every packet begins behind the ones before it and ends inside the buffer. -/
structure Slices (first last : Nat) (mpdus : List RxMpdu) : Prop where
  ordered : mpdus.Pairwise fun a b => a.pbuf + a.pktLen ≤ b.pbuf
  inside : ∀ mpdu ∈ mpdus, first ≤ mpdu.pbuf ∧ 0 < mpdu.pktLen ∧
    mpdu.pktLen ≤ 16439 ∧ mpdu.pbuf + mpdu.pktLen ≤ last

theorem Slices.nil (first last : Nat) : Slices first last [] :=
  ⟨.nil, by simp⟩

theorem Slices.cons {first last next : Nat} {mpdu : RxMpdu} {mpdus : List RxMpdu}
    (rest : Slices next last mpdus) (start : first ≤ mpdu.pbuf) (some : 0 < mpdu.pktLen)
    (short : mpdu.pktLen ≤ 16439) (before : mpdu.pbuf + mpdu.pktLen ≤ next)
    (fits : mpdu.pbuf + mpdu.pktLen ≤ last) :
    Slices first last (mpdu :: mpdus) where
  ordered := pairwise_behind before (fun other member => (rest.inside other member).1)
    rest.ordered
  inside := by
    intro other member
    rcases List.mem_cons.mp member with rfl | member
    · exact ⟨start, some, short, fits⟩
    · have kept := rest.inside other member
      exact ⟨by omega, kept.2⟩

theorem rxLoop_slices (fuel pbuf remain : Nat) :
    Slices pbuf (pbuf + remain) (rxLoop build mem fuel pbuf remain) := by
  induction fuel generalizing pbuf remain with
  | zero => exact .nil _ _
  | succ fuel ih =>
      simp only [rxLoop]
      cases valid : (wfRxGetPktLenAndCheckValid build mem pbuf remain).2 with
      | false => exact .nil _ _
      | true =>
          obtain ⟨long, fits, short⟩ := valid_length valid
          have rounded := le_wfRnd8 (wfRxGetPktLenAndCheckValid build mem pbuf remain).1
          by_cases last :
              remain ≤ wfRnd8 (wfRxGetPktLenAndCheckValid build mem pbuf remain).1
          · simp only [Bool.true_eq_false, if_false, last, if_true]
            exact (Slices.nil (pbuf + remain) _).cons (Nat.le_refl _) (by simp; omega)
              (by simpa using short) (by simpa using fits) (by simpa using fits)
          · simp only [Bool.true_eq_false, if_false, last]
            have rest := ih (pbuf + wfRnd8 (wfRxGetPktLenAndCheckValid build mem pbuf remain).1)
              (remain - wfRnd8 (wfRxGetPktLenAndCheckValid build mem pbuf remain).1)
            rw [show pbuf + wfRnd8 (wfRxGetPktLenAndCheckValid build mem pbuf remain).1 +
              (remain - wfRnd8 (wfRxGetPktLenAndCheckValid build mem pbuf remain).1) =
                pbuf + remain by omega] at rest
            exact rest.cons (Nat.le_refl _) (by simp; omega) (by simpa using short)
              (by simpa using rounded) (by simpa using fits)

end Loop

/-! ## Aggregates -/

def rxdPktLen (build : RxBuild) (packet : List UInt8) : Nat :=
  rxdBits (packetMem packet) (if build.richv200 then 4 else 0) 0 14

/-- A packet whose descriptor is right; where the build has no field for the driver
information or the command index, nothing is asked of it. -/
structure ValidPacket (build : RxBuild) (packet : List UInt8) : Prop where
  checksum : build.richv300 = true → wfRxdescChksum (packetMem packet) 0 = true
  pktLen : packet.length = rxdescSize + 32 + rxdPktLen build packet
  some : rxdPktLen build packet ≠ 0
  drvinfoSize : build.richv200 = true → rxdBits (packetMem packet) 0 14 4 = 4
  cmdIndex : build.richv200 = true → rxdBits (packetMem packet) 0 2 8 = 0
  crc32 : rxdBits (packetMem packet) 0 (if build.richv200 then 19 else 14) 1 = 0
  notice : rxdBits (packetMem packet) 8 (if build.richv200 then 15 else 28) 1 = 0

/-- The packets one behind the other, each padded to eight bytes but perhaps the last. -/
def bareExtent : List (List UInt8) → Nat
  | [] => 0
  | [packet] => packet.length
  | packet :: second :: rest => wfRnd8 packet.length + bareExtent (second :: rest)

def stride (packet : List UInt8) : Nat := wfRnd8 packet.length

section Aggregate

variable {build : RxBuild} {mem : Mem} {packet : List UInt8} {base remain : Nat}

theorem ValidPacket.checked (packetOk : ValidPacket build packet)
    (fits : packet.length ≤ remain) (small : remain < 65536) :
    wfRxGetPktLenAndCheckValid build (packetMem packet) 0 remain =
      (packet.length, true) := by
  have pktLen := packetOk.pktLen
  have some := packetOk.some
  have crc32 := packetOk.crc32
  have notice := packetOk.notice
  have whole : remain % 65536 = remain := Nat.mod_eq_of_lt small
  have sum : (build.richv300 && !wfRxdescChksum (packetMem packet) 0) = false := by
    cases chip : build.richv300 with
    | false => rfl
    | true => simp [packetOk.checksum chip]
  unfold wfRxGetPktLenAndCheckValid
  rw [rxdPktLen] at pktLen some
  cases chip : build.richv200 with
  | true =>
      have drvinfoSize := packetOk.drvinfoSize chip
      have cmdIndex := packetOk.cmdIndex chip
      simp only [chip, if_true] at pktLen some crc32 notice
      simp [sum, drvinfoSize, cmdIndex, crc32, notice, some, whole]
      omega
  | false =>
      simp only [chip, Bool.false_eq_true, if_false] at pktLen some crc32 notice
      simp [sum, crc32, notice, some, whole]
      omega

theorem ValidPacket.found (packetOk : ValidPacket build packet)
    (laid : mem.read base packet.length = packet) (fits : packet.length ≤ remain)
    (small : remain < 65536) :
    wfRxGetPktLenAndCheckValid build mem base remain = (packet.length, true) := by
  have long : 24 ≤ packet.length := by
    rw [packetOk.pktLen, rxdescSize]
    omega
  rw [← packetOk.checked fits small]
  apply wfRxGetPktLenAndCheckValid_moved
  have bytes := congrArg (fun bytes => bytes.take 24) laid
  rw [← Mem.take_read mem base long, bytes]
  exact (@Mem.read_write_inside _ 0 0 24 packet (by omega)).symm

/-- The loop takes the packets of an aggregate one after the other. -/
theorem rxLoop_aggregate {packets : List (List UInt8)} {fuel : Nat}
    (valid : ∀ packet ∈ packets, ValidPacket build packet)
    (laid : Laid id stride mem base packets) (whole : bareExtent packets ≤ remain)
    (tight : remain ≤ extent stride packets) (small : remain < 65536)
    (enough : remain < fuel) :
    (rxLoop build mem fuel base remain).map (fun mpdu => mem.read mpdu.pbuf mpdu.pktLen) =
      packets := by
  induction packets generalizing base remain fuel with
  | nil =>
      -- nothing fits into what remains
      have empty : remain = 0 := by simpa using tight
      obtain ⟨fuel, rfl⟩ := Nat.exists_eq_succ_of_ne_zero (by omega : fuel ≠ 0)
      simp only [rxLoop]
      cases valid : (wfRxGetPktLenAndCheckValid build mem base remain).2 with
      | false => simp
      | true =>
          have fits := valid_length valid
          omega
  | cons packet rest ih =>
      obtain ⟨fuel, rfl⟩ := Nat.exists_eq_succ_of_ne_zero (by omega : fuel ≠ 0)
      have packetOk := valid packet (by simp)
      have rounded := le_wfRnd8 packet.length
      have long := packetOk.pktLen
      obtain ⟨here, behind⟩ := laid
      rw [extent_cons, stride] at tight
      have fits : packet.length ≤ remain := by
        cases rest with
        | nil => exact whole
        | cons second rest =>
            rw [bareExtent] at whole
            omega
      have found := packetOk.found here fits small
      simp only [rxLoop, found, Bool.true_eq_false, if_false]
      cases rest with
      | nil =>
          rw [extent_nil] at tight
          rw [if_pos (by omega)]
          simpa using here
      | cons second rest =>
          rw [bareExtent] at whole
          have next := valid second (by simp)
          have more : 0 < bareExtent (second :: rest) := by
            have length := next.pktLen
            have rounded := le_wfRnd8 second.length
            cases rest with
            | nil =>
                rw [bareExtent, length, rxdescSize]
                omega
            | cons third rest =>
                rw [bareExtent]
                rw [rxdescSize] at length
                omega
          rw [if_neg (by omega)]
          have tail := @ih (base + wfRnd8 packet.length) (remain - wfRnd8 packet.length)
            fuel (fun other member => valid other (by simp [member])) behind (by omega)
            (by omega) (by omega) (by rw [rxdescSize] at long; omega)
          rw [List.map_cons, tail]
          exact congrArg (fun first => first :: second :: rest) here

end Aggregate

/-- The slices of a buffer are disjoint and in order and lie inside it, their lengths keep
to 16 bits, more turns give no more of them, and those of an aggregate are its packets. -/
theorem rx_work_slices (build : RxBuild) (mem : Mem) (len : Nat) (small : len ≤ 65535) :
    (∀ more, rxLoop build mem (len + 1 + more) 0 len = rxMpdus build mem len) ∧
    (rxMpdus build mem len).Pairwise (fun a b => a.pbuf + a.pktLen ≤ b.pbuf) ∧
    (∀ mpdu ∈ rxMpdus build mem len, 0 < mpdu.pktLen ∧ wfRnd8 mpdu.pktLen < 65536 ∧
      mpdu.pbuf + mpdu.pktLen ≤ len) ∧
    ∀ packets : List (List UInt8), (∀ packet ∈ packets, ValidPacket build packet) →
      Laid id stride mem 0 packets → bareExtent packets ≤ len →
      len ≤ extent stride packets →
      (rxMpdus build mem len).map (fun mpdu => mem.read mpdu.pbuf mpdu.pktLen) =
        packets := by
  have slices := @rxLoop_slices build mem (len + 1) 0 len
  constructor
  · intro more
    exact rxLoop_fuel (by omega) more
  constructor
  · exact slices.ordered
  constructor
  · intro mpdu member
    have inside := slices.inside mpdu member
    have rounded := wfRnd8_lt mpdu.pktLen
    exact ⟨inside.2.1, by omega, by omega⟩
  · intro packets valid laid whole tight
    exact rxLoop_aggregate valid laid whole tight (by omega) (by omega)

/-- A descriptor of `CONFIG_RICHV200`, the driver information and a frame. -/
def packetOf (frame : List UInt8) : List UInt8 :=
  [0, 0, 1, 0, UInt8.ofNat frame.length, 0, 0, 0] ++ List.replicate 48 0 ++ frame

def richv200 : RxBuild := ⟨true, false⟩

theorem rx_work_slices_pair :
    (rxMpdus richv200 (packetMem (packetOf [1, 2, 3, 4, 5] ++ [0, 0, 0] ++ packetOf [6]))
      121).map (fun mpdu => (packetMem
        (packetOf [1, 2, 3, 4, 5] ++ [0, 0, 0] ++ packetOf [6])).read mpdu.pbuf mpdu.pktLen) =
      [packetOf [1, 2, 3, 4, 5], packetOf [6]] := by
  have valid : ∀ packet ∈ [packetOf [1, 2, 3, 4, 5], packetOf [6]],
      ValidPacket richv200 packet := by
    intro packet member
    simp only [List.mem_cons, List.not_mem_nil, or_false] at member
    rcases member with rfl | rfl
    · exact ⟨by decide, by decide, by decide, by decide, by decide, by decide, by decide⟩
    · exact ⟨by decide, by decide, by decide, by decide, by decide, by decide, by decide⟩
  have laid : Laid id stride
      (packetMem (packetOf [1, 2, 3, 4, 5] ++ [0, 0, 0] ++ packetOf [6])) 0
      [packetOf [1, 2, 3, 4, 5], packetOf [6]] :=
    ⟨by decide +kernel, by decide +kernel, trivial⟩
  exact (rx_work_slices richv200 _ 121 (by decide)).2.2.2 _ valid laid (by decide)
    (by decide)

end Smartchip.Rx
