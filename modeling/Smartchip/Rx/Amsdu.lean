import Mathlib.Data.List.Forall2
import Smartchip.Foundation.Blocks
import Smartchip.Rx.Data

/-!
# De-aggregation

`process_amsdu` (`os/linux/rx_linux.c`) takes the subframes out of an A-MSDU and
`alloc_msdu` makes an Ethernet frame of each.
-/

namespace Smartchip.Rx

open Smartchip.Foundation Smartchip.Frame

/-! ## MSDUs -/

structure Msdu where
  da : MacAddr
  sa : MacAddr
  body : List UInt8
  some : body ≠ []
  fits : body.length < 65536

/-- The subframe header and the body. -/
def Msdu.bytes (msdu : Msdu) : List UInt8 :=
  msdu.da.toList ++ (msdu.sa.toList ++ (be16 (UInt16.ofNat msdu.body.length) ++ msdu.body))

/-- The padding to four bytes. -/
def amsduPad (length : Nat) : Nat := (4 - length % 4) % 4

def Msdu.stride (msdu : Msdu) : Nat := msdu.bytes.length + amsduPad msdu.bytes.length

/-- The subframes one behind the other; the last one is not padded. -/
def amsduLength : List Msdu → Nat
  | [] => 0
  | [msdu] => msdu.bytes.length
  | msdu :: second :: rest => msdu.stride + amsduLength (second :: rest)

/-- A prefix that `is_snap_hdr` takes off: that of a bridge tunnel, or that of RFC 1042
when neither IPX nor AARP follows. -/
def HasSnapPrefix (body : List UInt8) : Prop :=
  (body.take 6 = wlRfc1042Header ∧ (body.drop 6).take 2 ≠ snapEthTypeIpx ∧
    (body.drop 6).take 2 ≠ snapEthTypeAppletalkAarp) ∨
    body.take 6 = wlBridgeTunnelHeader

instance (body : List UInt8) : Decidable (HasSnapPrefix body) :=
  inferInstanceAs (Decidable (_ ∨ _))

/-- The body alone shows whether it has a prefix: it reaches to the end of the type, or
it differs from both prefixes, or it has that of a bridge tunnel. -/
def ShowsPrefix (body : List UInt8) : Prop :=
  8 ≤ body.length ∨ body.take 6 = wlBridgeTunnelHeader ∨
    (¬ body.take 6 <+: wlRfc1042Header ∧ ¬ body.take 6 <+: wlBridgeTunnelHeader)

/-- The Ethernet frame of an MSDU. -/
def Msdu.uploaded (msdu : Msdu) : List UInt8 :=
  msdu.da.toList ++ msdu.sa.toList ++
    if HasSnapPrefix msdu.body then msdu.body.drop 6
    else be16 (UInt16.ofNat msdu.body.length) ++ msdu.body

section Prefix

variable {body : List UInt8}

theorem read_write_prefix (fresh : Mem) (start : Nat) (body : List UInt8) (n : Nat) :
    body.take n <+: (fresh.write start body).read start n := by
  have inside := @Mem.read_write_inside fresh start 0 (body.take n).length body
    ((Nat.zero_add _).trans_le (List.length_take_le' n body))
  have front := @Mem.take_read (fresh.write start body) start n (body.take n).length
    (List.length_take_le n body)
  simp only [Nat.add_zero, List.drop_zero] at inside
  rw [List.prefix_iff_eq_take, front, inside, List.length_take]
  cases Nat.le_total n body.length with
  | inl long => rw [Nat.min_eq_left long]
  | inr short => rw [Nat.min_eq_right short, List.take_of_length_le short,
      List.take_of_length_le (Nat.le_refl _)]

theorem isSnapHdr_write (fresh : Mem) (start : Nat) (shows : ShowsPrefix body) :
    isSnapHdr (fresh.write start body) start = decide (HasSnapPrefix body) := by
  have front := read_write_prefix fresh start body 6
  rcases shows with long | tunnel | other
  · have first := @Mem.read_write_inside fresh start 0 6 body (by omega)
    have second := @Mem.read_write_inside fresh start 6 2 body (by omega)
    simp only [Nat.add_zero, List.drop_zero] at first
    simp only [isSnapHdr, snapHdrSize, first, second, HasSnapPrefix]
    grind
  · rw [tunnel] at front
    have whole : (fresh.write start body).read start 6 = wlBridgeTunnelHeader :=
      (front.eq_of_length (by simp [wlBridgeTunnelHeader])).symm
    simp [isSnapHdr, snapHdrSize, whole, HasSnapPrefix, tunnel]
  · have noHeader : (fresh.write start body).read start 6 ≠ wlRfc1042Header := by
      intro same
      exact other.1 (same ▸ front)
    have noTunnel : (fresh.write start body).read start 6 ≠ wlBridgeTunnelHeader := by
      intro same
      exact other.2 (same ▸ front)
    have bodyHeader : body.take 6 ≠ wlRfc1042Header := by
      intro same
      exact other.1 (same ▸ List.prefix_refl _)
    have bodyTunnel : body.take 6 ≠ wlBridgeTunnelHeader := by
      intro same
      exact other.2 (same ▸ List.prefix_refl _)
    simp [isSnapHdr, snapHdrSize, noHeader, noTunnel, HasSnapPrefix, bodyHeader, bodyTunnel]

theorem ShowsPrefix.long (has : HasSnapPrefix body) : 6 ≤ body.length := by
  have count : (body.take 6).length = 6 := by
    rcases has with ⟨header, -⟩ | tunnel
    · rw [header]
      rfl
    · rw [tunnel]
      rfl
  rw [List.length_take] at count
  omega

theorem allocMsdu_eq (fresh : Mem) (msdu : Msdu) (shows : ShowsPrefix msdu.body) :
    allocMsdu fresh msdu.da.toList msdu.sa.toList msdu.body = msdu.uploaded := by
  simp only [allocMsdu, isSnapHdr_write fresh 14 shows, Msdu.uploaded, snapHdrSize]
  by_cases has : HasSnapPrefix msdu.body
  · have long := ShowsPrefix.long has
    simp [has, show ¬ msdu.body.length < 6 by omega]
  · simp [has]

end Prefix

/-! ## The loop -/

theorem Msdu.length_bytes (msdu : Msdu) : msdu.bytes.length = 14 + msdu.body.length := by
  simp [Msdu.bytes]
  omega

/-- The fields of a subframe that stands in memory. -/
structure SubframeAt (mem : Mem) (pdata : Nat) (msdu : Msdu) : Prop where
  da : mem.read pdata 6 = msdu.da.toList
  sa : mem.read (pdata + 6) 6 = msdu.sa.toList
  size : (mem.readBe16 (pdata + 12)).toNat = msdu.body.length
  body : mem.read (pdata + ethHlen) msdu.body.length = msdu.body

theorem subframeAt {mem : Mem} {pdata : Nat} {msdu : Msdu}
    (here : mem.read pdata msdu.bytes.length = msdu.bytes) : SubframeAt mem pdata msdu := by
  have count : msdu.bytes.length = 6 + (6 + (2 + msdu.body.length)) := by
    rw [msdu.length_bytes]
    omega
  rw [count, Mem.read_add, Mem.read_add, Mem.read_add] at here
  obtain ⟨da, rest⟩ := List.append_inj here (by simp)
  obtain ⟨sa, rest⟩ := List.append_inj rest (by simp)
  obtain ⟨size, body⟩ := List.append_inj rest (by simp)
  have value : mem.readBe16 (pdata + 12) = UInt16.ofNat msdu.body.length := by
    have bytes : [mem (pdata + 6 + 6), mem (pdata + 6 + 6 + 1)] =
        be16 (UInt16.ofNat msdu.body.length) := size
    simp only [be16, List.cons.injEq, and_true] at bytes
    rw [Mem.readBe16, bytes.1, bytes.2, ofLe16_toNat]
  constructor
  · exact da
  · exact sa
  · rw [value, UInt16.toNat_ofNat_of_lt' msdu.fits]
  · exact body

section Loop

variable {mem : Mem} {pdata : Nat} {fresh : Nat → Mem}

theorem ethHlen_lt_amsduLength (msdu : Msdu) (rest : List Msdu) :
    ethHlen < amsduLength (msdu :: rest) := by
  have length := msdu.length_bytes
  have body := List.length_pos_iff.mpr msdu.some
  cases rest with
  | nil =>
      rw [amsduLength, ethHlen]
      omega
  | cons second rest =>
      rw [amsduLength, Msdu.stride, ethHlen]
      omega

/-- The subframes of an A-MSDU are taken one after the other. -/
theorem amsduLoop_msdus {msdus : List Msdu} {fuel nrSubframes : Nat} (some : msdus ≠ [])
    (laid : Laid Msdu.bytes Msdu.stride mem pdata msdus)
    (shows : ∀ msdu ∈ msdus, ShowsPrefix msdu.body)
    (count : nrSubframes + msdus.length ≤ maxSubframeCount)
    (enough : amsduLength msdus < fuel) :
    amsduLoop (fun i => Option.some (fresh i)) mem fuel nrSubframes pdata
      (amsduLength msdus) = msdus.map Msdu.uploaded := by
  induction msdus generalizing fuel nrSubframes pdata with
  | nil => contradiction
  | cons msdu rest ih =>
      obtain ⟨fuel, rfl⟩ := Nat.exists_eq_succ_of_ne_zero (by omega : fuel ≠ 0)
      obtain ⟨here, behind⟩ := laid
      have subframe := subframeAt here
      have frame := allocMsdu_eq (fresh nrSubframes) msdu (shows msdu (by simp))
      have length := msdu.length_bytes
      have turn : ¬ maxSubframeCount < nrSubframes + 1 := by
        rw [List.length_cons] at count
        omega
      cases rest with
      | nil =>
          have whole : ¬ amsduLength [msdu] < msdu.body.length + ethHlen := by
            rw [amsduLength, ethHlen]
            omega
          have none : amsduLength [msdu] - ethHlen - msdu.body.length = 0 := by
            rw [amsduLength, ethHlen]
            omega
          simp [amsduLoop, subframe.da, subframe.sa, subframe.size, subframe.body, frame,
            turn, whole, none]
      | cons second rest =>
          have long := ethHlen_lt_amsduLength second rest
          have padding : (4 - (msdu.body.length + ethHlen) % 4) % 4 =
              amsduPad msdu.bytes.length := by
            rw [amsduPad, length, ethHlen, Nat.add_comm]
          have whole : ¬ amsduLength (msdu :: second :: rest) <
              msdu.body.length + ethHlen := by
            rw [amsduLength, Msdu.stride, ethHlen]
            omega
          have left : amsduLength (msdu :: second :: rest) - ethHlen - msdu.body.length =
              amsduPad msdu.bytes.length + amsduLength (second :: rest) := by
            rw [amsduLength, Msdu.stride, ethHlen]
            omega
          have next : pdata + ethHlen + msdu.body.length + amsduPad msdu.bytes.length =
              pdata + msdu.stride := by
            rw [Msdu.stride, length, ethHlen]
            omega
          have tail := @ih (pdata + msdu.stride) fuel (nrSubframes + 1) (by simp) behind
            (fun other member => shows other (by simp [member]))
            (by rw [List.length_cons] at count; omega)
            (by rw [amsduLength, Msdu.stride] at enough; omega)
          have some : amsduPad msdu.bytes.length + amsduLength (second :: rest) ≠ 0 := by
            omega
          have enoughPad : ¬ amsduPad msdu.bytes.length + amsduLength (second :: rest) <
              amsduPad msdu.bytes.length := by
            omega
          simp only [amsduLoop, subframe.da, subframe.sa, subframe.size, subframe.body,
            frame, turn, whole, left, if_false, some, padding, enoughPad, next,
            Nat.add_sub_cancel_left, long, if_true, tail, List.map_cons]

/-- A subframe whose body `alloc_msdu` has copied. -/
structure Subframe where
  pdata : Nat
  size : Nat

def Subframe.body (mem : Mem) (subframe : Subframe) : List UInt8 :=
  mem.read (subframe.pdata + ethHlen) subframe.size

/-- The addresses, perhaps the length, and the body with or without a prefix. -/
def UploadedFrom (mem : Mem) (frame : List UInt8) (subframe : Subframe) : Prop :=
  ∃ addrs : List UInt8, addrs = mem.read subframe.pdata 6 ++ mem.read (subframe.pdata + 6) 6 ∧
    (frame = addrs ++ subframe.body mem ∨ frame = addrs ++ (subframe.body mem).drop 6 ∨
      frame = addrs ++ be16 (UInt16.ofNat subframe.size) ++ subframe.body mem)

theorem allocMsdu_uploaded (skb : Mem) (pdata size : Nat) :
    UploadedFrom mem (allocMsdu skb (mem.read pdata 6) (mem.read (pdata + 6) 6)
      (mem.read (pdata + ethHlen) size)) ⟨pdata, size⟩ := by
  refine ⟨_, rfl, ?_⟩
  simp only [allocMsdu, Subframe.body, Mem.length_read, snapHdrSize]
  split_ifs
  · exact .inl rfl
  · exact .inr (.inl rfl)
  · exact .inr (.inr (by simp))

/-- What a turn of the loop can do: nothing, or take a subframe and end, or take one and
go on behind it. -/
theorem amsduLoop_cases (allocSkb : Nat → Option Mem) (mem : Mem)
    (nrSubframes pdata pktlen : Nat) :
    (∀ fuel, amsduLoop allocSkb mem (fuel + 1) nrSubframes pdata pktlen = []) ∨
    ∃ frame size, UploadedFrom mem frame ⟨pdata, size⟩ ∧ ethHlen + size ≤ pktlen ∧
      ((∀ fuel, amsduLoop allocSkb mem (fuel + 1) nrSubframes pdata pktlen = [frame]) ∨
      ∃ pad, ethHlen + size + pad ≤ pktlen ∧
        ∀ fuel, amsduLoop allocSkb mem (fuel + 1) nrSubframes pdata pktlen =
          frame :: amsduLoop allocSkb mem fuel (nrSubframes + 1)
            (pdata + (ethHlen + size + pad)) (pktlen - (ethHlen + size + pad))) := by
  by_cases whole : pktlen < (mem.readBe16 (pdata + 12)).toNat + ethHlen
  · left
    intro fuel
    simp [amsduLoop, whole]
  cases allocated : allocSkb nrSubframes with
  | none =>
      left
      intro fuel
      simp [amsduLoop, allocated]
  | some skb =>
      right
      generalize sizeOf : (mem.readBe16 (pdata + 12)).toNat = size at whole
      have fits : ethHlen + size ≤ pktlen := by omega
      refine ⟨_, size, allocMsdu_uploaded skb pdata size, fits, ?_⟩
      generalize padOf : (if pktlen - ethHlen - size = 0 then 0
        else (4 - (size + ethHlen) % 4) % 4) = pad
      by_cases last : maxSubframeCount < nrSubframes + 1 ∨
          pktlen - ethHlen - size < pad ∨ ¬ ethHlen < pktlen - ethHlen - size - pad
      · left
        intro fuel
        simp only [amsduLoop, sizeOf, whole, allocated, padOf, if_false]
        grind
      · right
        refine ⟨pad, by omega, ?_⟩
        intro fuel
        have next : pdata + ethHlen + size + pad = pdata + (ethHlen + size + pad) := by
          omega
        have left : pktlen - ethHlen - size - pad = pktlen - (ethHlen + size + pad) := by
          omega
        simp only [amsduLoop, sizeOf, whole, allocated, padOf, if_false]
        grind

/-- Another turn takes at least a header away. -/
theorem amsduLoop_fuel {allocSkb : Nat → Option Mem} {fuel nrSubframes pktlen : Nat}
    (enough : pktlen < fuel) (more : Nat) :
    amsduLoop allocSkb mem (fuel + more) nrSubframes pdata pktlen =
      amsduLoop allocSkb mem fuel nrSubframes pdata pktlen := by
  induction fuel generalizing nrSubframes pdata pktlen with
  | zero => omega
  | succ fuel ih =>
      rw [show fuel + 1 + more = fuel + more + 1 by omega]
      rcases amsduLoop_cases allocSkb mem nrSubframes pdata pktlen with
        none | ⟨frame, size, -, fits, last | ⟨pad, padded, next⟩⟩
      · rw [none, none]
      · rw [last, last]
      · have shorter : pktlen - (ethHlen + size + pad) < fuel := by
          rw [ethHlen] at *
          omega
        rw [next, next, ih shorter]

/-- Every body begins behind the ones before it and ends inside the input. -/
structure SubframesIn (mem : Mem) (first last : Nat) (frames : List (List UInt8))
    (subframes : List Subframe) : Prop where
  uploaded : List.Forall₂ (UploadedFrom mem) frames subframes
  ordered : subframes.Pairwise fun a b => a.pdata + ethHlen + a.size ≤ b.pdata
  inside : ∀ subframe ∈ subframes, first ≤ subframe.pdata ∧
    subframe.pdata + ethHlen + subframe.size ≤ last

theorem SubframesIn.nil (mem : Mem) (first last : Nat) : SubframesIn mem first last [] [] :=
  ⟨.nil, .nil, by simp⟩

theorem SubframesIn.cons {first next last : Nat} {frame : List UInt8}
    {frames : List (List UInt8)} {subframe : Subframe} {subframes : List Subframe}
    (rest : SubframesIn mem next last frames subframes)
    (uploaded : UploadedFrom mem frame subframe) (start : first ≤ subframe.pdata)
    (before : subframe.pdata + ethHlen + subframe.size ≤ next) (fits : next ≤ last) :
    SubframesIn mem first last (frame :: frames) (subframe :: subframes) where
  uploaded := .cons uploaded rest.uploaded
  ordered := pairwise_behind before (fun other member => (rest.inside other member).1)
    rest.ordered
  inside := by
    intro other member
    rcases List.mem_cons.mp member with rfl | member
    · exact ⟨start, by omega⟩
    · have kept := rest.inside other member
      exact ⟨by omega, kept.2⟩

theorem amsduLoop_subframes (allocSkb : Nat → Option Mem)
    (fuel nrSubframes pdata pktlen : Nat) :
    ∃ subframes, SubframesIn mem pdata (pdata + pktlen)
      (amsduLoop allocSkb mem fuel nrSubframes pdata pktlen) subframes := by
  induction fuel generalizing nrSubframes pdata pktlen with
  | zero => exact ⟨[], .nil mem _ _⟩
  | succ fuel ih =>
      rcases amsduLoop_cases allocSkb mem nrSubframes pdata pktlen with
        none | ⟨frame, size, uploaded, fits, last | ⟨pad, padded, next⟩⟩
      · rw [none]
        exact ⟨[], .nil mem _ _⟩
      · rw [last]
        exact ⟨[⟨pdata, size⟩], (SubframesIn.nil mem (pdata + pktlen) _).cons uploaded
          (Nat.le_refl _) (by simp; omega) (Nat.le_refl _)⟩
      · obtain ⟨subframes, rest⟩ := ih (nrSubframes + 1)
          (pdata + (ethHlen + size + pad)) (pktlen - (ethHlen + size + pad))
        rw [next]
        rw [show pdata + (ethHlen + size + pad) + (pktlen - (ethHlen + size + pad)) =
          pdata + pktlen by omega] at rest
        exact ⟨⟨pdata, size⟩ :: subframes, rest.cons uploaded (Nat.le_refl _)
          (by simp; omega) (by omega)⟩

end Loop

/-! ## The whole A-MSDU -/

def RxPkt.amsduOffset (pkt : RxPkt) : Nat := pkt.info.wlanHdrLen + pkt.info.ivLen

/-- The packet is a data frame that carries these MSDUs and nothing behind them. -/
structure Carries (pkt : RxPkt) (msdus : List Msdu) : Prop where
  type : getHdrType pkt.mem pkt.pdata = 0x0008
  len : pkt.len = pkt.amsduOffset + amsduLength msdus
  laid : Laid Msdu.bytes Msdu.stride pkt.mem (pkt.pdata + pkt.amsduOffset) msdus

/-- The MSDUs of a packet are uploaded in order, each as the Ethernet frame that it
shows, and whatever the packet holds, what is uploaded are disjoint parts of it. -/
theorem process_amsdu_uploads :
    (∀ (fresh : Nat → Mem) (pkt : RxPkt) (msdus : List Msdu), Carries pkt msdus →
      1 ≤ msdus.length → msdus.length ≤ 64 → (∀ msdu ∈ msdus, ShowsPrefix msdu.body) →
      processAmsdu (fun i => some (fresh i)) pkt = msdus.map Msdu.uploaded) ∧
    ∀ (allocSkb : Nat → Option Mem) (pkt : RxPkt),
      (∀ more, amsduLoop allocSkb pkt.mem (pkt.len + 1 + more) 0
          (pkt.pdata + pkt.amsduOffset) (pkt.len - pkt.amsduOffset) =
        amsduLoop allocSkb pkt.mem (pkt.len + 1) 0 (pkt.pdata + pkt.amsduOffset)
          (pkt.len - pkt.amsduOffset)) ∧
      ∃ subframes, SubframesIn pkt.mem (pkt.pdata + pkt.amsduOffset)
        (pkt.pdata + pkt.amsduOffset + (pkt.len - pkt.amsduOffset))
        (processAmsdu allocSkb pkt) subframes := by
  constructor
  · intro fresh pkt msdus carries some count shows
    have left : pkt.len - pkt.amsduOffset = amsduLength msdus := by
      rw [carries.len]
      omega
    unfold RxPkt.amsduOffset at left
    simp only [processAmsdu, carries.type, ne_eq, not_true_eq_false, if_false, left]
    exact amsduLoop_msdus (List.ne_nil_of_length_pos some) carries.laid shows
      (by rw [maxSubframeCount]; omega) (by rw [carries.len]; omega)
  · intro allocSkb pkt
    constructor
    · intro more
      exact amsduLoop_fuel (by omega) more
    · unfold processAmsdu
      split_ifs
      · exact ⟨[], .nil pkt.mem _ _⟩
      · exact amsduLoop_subframes allocSkb (pkt.len + 1) 0 _ _

/-- The Ethernet frame with every prefix of RFC 1042 taken off. -/
def Msdu.stripped (msdu : Msdu) : List UInt8 :=
  msdu.da.toList ++ msdu.sa.toList ++
    if msdu.body.take 6 = wlRfc1042Header ∨ msdu.body.take 6 = wlBridgeTunnelHeader then
      msdu.body.drop 6
    else be16 (UInt16.ofNat msdu.body.length) ++ msdu.body

def plainMsdu : Msdu where
  da := staAddr
  sa := apAddr
  body := wlRfc1042Header ++ [0x08, 0x00, 0x45]
  some := by decide
  fits := by decide

def ipxMsdu : Msdu where
  da := staAddr
  sa := apAddr
  body := wlRfc1042Header ++ snapEthTypeIpx
  some := by decide
  fits := by decide

/-- Two subframes behind a QoS header. -/
def amsduPkt (first second : Msdu) : RxPkt where
  mem := Mem.write (fun _ => 0) 0 ([0x88, 0x02] ++ List.replicate 24 0 ++ first.bytes ++
    List.replicate (amsduPad first.bytes.length) 0 ++ second.bytes)
  pdata := 0
  len := 26 + first.stride + second.bytes.length
  info := { wfRxRxdPrase ⟨1, 0, false, true, 0⟩ with wlanHdrLen := 26, amsdu := true }

theorem amsduPkt_carries : Carries (amsduPkt plainMsdu ipxMsdu) [plainMsdu, ipxMsdu] :=
  ⟨by decide +kernel, by decide +kernel, by decide +kernel, by decide +kernel, trivial⟩

theorem process_amsdu_uploads_pair :
    processAmsdu (fun _ => some fun _ => 0) (amsduPkt plainMsdu ipxMsdu) =
      [plainMsdu, ipxMsdu].map Msdu.uploaded := by
  apply process_amsdu_uploads.1 (fun _ _ => 0) (amsduPkt plainMsdu ipxMsdu)
    [plainMsdu, ipxMsdu] amsduPkt_carries (by decide) (by decide)
  intro msdu member
  simp only [List.mem_cons, List.not_mem_nil, or_false] at member
  rcases member with rfl | rfl
  · exact .inl (by decide)
  · exact .inl (by decide)

/-- An IPX packet keeps its prefix behind the length. -/
theorem ipx_prefix_not_stripped :
    Carries (amsduPkt plainMsdu ipxMsdu) [plainMsdu, ipxMsdu] ∧
      processAmsdu (fun _ => some fun _ => 0) (amsduPkt plainMsdu ipxMsdu) ≠
        [plainMsdu, ipxMsdu].map Msdu.stripped := by
  constructor
  · exact amsduPkt_carries
  · decide +kernel

end Smartchip.Rx
