import Mathlib.Algebra.BigOperators.Group.Finset.Basic
import Mathlib.Data.Fintype.Basic
import Smartchip.Foundation.Run
import Smartchip.Rx.DeliveryPaths

/-!
# Defragmentation

`rx_defrag` and `rx_recombination` of `nic/rx.c` over the pool of packet
descriptors, with the caller `rx_process_data_frame`, and `mpdu_process` of
`os/linux/rx_linux.c`, which owns the socket buffers.
-/

namespace Smartchip.Rx

open Smartchip.Foundation Smartchip.Frame

/-! ## Packets, descriptors and queues -/

/-- The parts of `rx_pkt_t` that say where the packet lies.  `pskb` names the
socket buffer, whose memory ends at `skbEnd`. -/
structure FragPkt where
  pkt : RxPkt
  ptail : Nat
  pend : Nat
  skbEnd : Nat
  pskb : Nat

def pktPut (ppkt : FragPkt) (size : Nat) : Option FragPkt :=
  if ppkt.pend < ppkt.ptail + size then none
  else some { ppkt with
    ptail := ppkt.ptail + size
    pkt := { ppkt.pkt with len := ppkt.pkt.len + size } }

def maxPktNum : Nat := 20

abbrev Descriptor := Fin maxPktNum

def firstDescriptor : Descriptor := ⟨0, by decide⟩

/-- `free_rx_pkt_list` and the contents of the descriptors, with `defrag_q` and
`defrag_flag` of every station. -/
structure Defrag where
  freeRxPktList : List Descriptor
  rxPkt : Descriptor → FragPkt
  defragQ : Nat → List Descriptor
  defragFlag : Nat → Bool

/-- The descriptors after `rx_init`, with stations as `wf_wdn_add` leaves them. -/
def poolOf (rxPkt : Descriptor → FragPkt) : Defrag where
  freeRxPktList := List.finRange maxPktNum
  rxPkt
  defragQ := fun _ => []
  defragFlag := fun _ => false

namespace Defrag

def setQ (st : Defrag) (pwdn : Nat) (queue : List Descriptor) : Defrag :=
  { st with defragQ := Function.update st.defragQ pwdn queue }

def setFlag (st : Defrag) (pwdn : Nat) (flag : Bool) : Defrag :=
  { st with defragFlag := Function.update st.defragFlag pwdn flag }

def setPkt (st : Defrag) (d : Descriptor) (ppkt : FragPkt) : Defrag :=
  { st with rxPkt := Function.update st.rxPkt d ppkt }

def freeRxPkt (st : Defrag) (d : Descriptor) : Defrag :=
  { st with freeRxPktList := st.freeRxPktList ++ [d] }

/-- The loop of `free_rx_queue` over the entries left in the queue. -/
def freeRxLoop (pwdn : Nat) : List Descriptor → Defrag → Defrag
  | [], st => st
  | d :: queue, st => freeRxLoop pwdn queue ((st.setQ pwdn queue).freeRxPkt d)

def freeRxQueue (st : Defrag) (pwdn : Nat) : Defrag :=
  freeRxLoop pwdn (st.defragQ pwdn) st

def insertTail (st : Defrag) (pwdn : Nat) (d : Descriptor) : Defrag :=
  st.setQ pwdn (st.defragQ pwdn ++ [d])

/-! ## Recombination -/

/-- The copy goes behind the room that `pkt_put` has just made. -/
def merge (first put next : FragPkt) : FragPkt :=
  { put with pkt := { put.pkt with
      mem := first.pkt.mem.write put.ptail next.pkt.skb
      info := { first.pkt.info with icvLen := next.pkt.info.icvLen } } }

/-- The loop of `rx_recombination` over the entries left in the queue. -/
def recombinationLoop (pwdn : Nat) (ppktFirst : Descriptor) :
    List Descriptor → UInt8 → Defrag → Defrag × Option Descriptor
  | [], _, st => (st, some ppktFirst)
  | ppkt :: queue, orderNum, st =>
      let st := st.setQ pwdn queue
      let first := st.rxPkt ppktFirst
      let next := st.rxPkt ppkt
      let orderNum := orderNum + 1
      if UInt8.ofNat next.pkt.info.fragNum.toNat ≠ orderNum then
        (st.freeRxPkt ppkt, none)
      else
        match pktPut first next.pkt.len with
        | none => (st.freeRxPkt ppkt, none)
        | some put => recombinationLoop pwdn ppktFirst queue orderNum
            ((st.setPkt ppktFirst (merge first put next)).freeRxPkt ppkt)

def rxRecombination (st : Defrag) (pwdn : Nat) : Defrag × Option Descriptor :=
  match st.defragQ pwdn with
  | [] => (st, none)
  | ppktFirst :: queue =>
      let st := st.setQ pwdn queue
      if (st.rxPkt ppktFirst).pkt.info.fragNum ≠ 0 then
        (st.freeRxPkt ppktFirst, none)
      else recombinationLoop pwdn ppktFirst queue 0 st

/-- The packet returned is the caller's own or the one in a descriptor. -/
def rxDefrag (st : Defrag) (pwdn : Nat) (ppkt : FragPkt) : Defrag × Option FragPkt :=
  let mfrag := ppkt.pkt.info.moreFrag
  let fragNum := ppkt.pkt.info.fragNum
  match st.freeRxPktList with
  | [] => (st.freeRxQueue pwdn, none)
  | ppktDefrag :: free =>
      let st := { st with freeRxPktList := free }.setPkt ppktDefrag ppkt
      if mfrag = false then
        if fragNum = 0 then (st, some ppkt)
        else if st.defragFlag pwdn then
          let res := (st.insertTail pwdn ppktDefrag).rxRecombination pwdn
          (res.1.setFlag pwdn false, res.2.map res.1.rxPkt)
        else (st, none)
      else if fragNum = 0 then
        (((st.setFlag pwdn true).freeRxQueue pwdn).insertTail pwdn ppktDefrag, none)
      else if st.defragFlag pwdn then (st.insertTail pwdn ppktDefrag, none)
      else (st, none)

end Defrag

/-! ## The callers -/

/-- The packet as it comes to the defragmentation. -/
def decrypted (nic : RxNic) (wdn : RxWdn) (pkt : RxPkt) : Option RxPkt :=
  let pkt := parseHeader nic wdn pkt
  if getHdrProtected pkt.mem pkt.pdata then wfSecDecryptor nic pkt else some pkt

def IsFragment (pkt : RxPkt) : Prop :=
  pkt.info.moreFrag = true ∨ pkt.info.fragNum ≠ 0

instance (pkt : RxPkt) : Decidable (IsFragment pkt) :=
  inferInstanceAs (Decidable (_ ∨ _))

/-- `rx_process_data_frame` with the state of the defragmentation: the second
component is `none` when the return value is `-1`. -/
def processDataFrame (nic : RxNic) (wdn : RxWdn) (pwdn : Nat) (st : Defrag)
    (ppkt : FragPkt) : Defrag × Option FragPkt :=
  match decrypted nic wdn ppkt.pkt with
  | none => (st, none)
  | some pkt =>
      if IsFragment pkt then ((st.rxDefrag pwdn { ppkt with pkt }).1, none)
      else (st, some { ppkt with pkt })

theorem isFragment_iff (pkt : RxPkt) :
    IsFragment pkt ↔ ¬ (!pkt.info.moreFrag && pkt.info.fragNum == 0) = true := by
  unfold IsFragment
  cases pkt.info.moreFrag with
  | true => simp
  | false => simp

theorem processDataFrame_pkt (nic : RxNic) (wdn : RxWdn) (pwdn : Nat) (st : Defrag)
    (ppkt : FragPkt) :
    (processDataFrame nic wdn pwdn st ppkt).2.map FragPkt.pkt =
      rxProcessDataFrame nic wdn ppkt.pkt := by
  have source : rxProcessDataFrame nic wdn ppkt.pkt =
      (decrypted nic wdn ppkt.pkt).filter fun pkt =>
        !pkt.info.moreFrag && pkt.info.fragNum == 0 := rfl
  rw [source]
  unfold processDataFrame
  cases decrypted nic wdn ppkt.pkt with
  | none => rfl
  | some pkt =>
      rw [Option.filter_some]
      dsimp only
      by_cases fragment : IsFragment pkt
      · rw [if_pos fragment, if_neg ((isFragment_iff pkt).mp fragment)]
        rfl
      · rw [if_neg fragment, if_pos (not_not.mp (mt (isFragment_iff pkt).mpr fragment))]
        rfl

/-! ## Socket buffers -/

/-- A data frame behind its descriptor and driver information. -/
structure RxFrame where
  rxd : RxDesc
  mem : Mem
  pdata : Nat
  len : Nat

/-- `create_skb` on a cleared `rx_pkt_t`: nothing sets `pend`. -/
def createSkb (frame : RxFrame) (pskb : Nat) : FragPkt where
  pkt := {
    mem := frame.mem
    pdata := frame.pdata
    len := frame.len
    info := wfRxRxdPrase frame.rxd }
  ptail := frame.pdata + frame.len
  pend := 0
  skbEnd := frame.pdata + frame.len + 14
  pskb

/-- The buffers are numbered as they come; `freed` are those that
`mpdu_process` has given to `wf_free_skb`. -/
structure Receiver where
  nic : RxNic
  defrag : Defrag
  skbs : Nat
  freed : List Nat

/-- The station of the frame and what `rx_check_data_frame_valid` leaves. -/
def checked (nic : RxNic) (frame : RxFrame) : Option (Nat × RxWdn × RxPkt) := do
  let pwdn ← nic.wdnFindInfo (getAddr2 frame.mem frame.pdata)
  if getHdrType frame.mem frame.pdata ≠ 0x0008 then none
  else
    let (wdn, pkt) ← rxCheckDataFrameValid nic (nic.wdn pwdn) frame.rxd
      (createSkb frame 0).pkt
    some (pwdn, wdn, pkt)

def withWdn (nic : RxNic) (pwdn : Nat) (wdn : RxWdn) : RxNic :=
  { nic with wdn := Function.update nic.wdn pwdn wdn }

def mpduProcess (s : Receiver) (frame : RxFrame) : Receiver :=
  let pskb := s.skbs
  let ppkt := createSkb frame pskb
  let dropped := { s with skbs := pskb + 1, freed := pskb :: s.freed }
  match checked s.nic frame with
  | none => dropped
  | some (pwdn, wdn, pkt) =>
      let nic := withWdn s.nic pwdn wdn
      let res := processDataFrame nic wdn pwdn s.defrag { ppkt with pkt }
      match res.2 with
      | none => { dropped with nic, defrag := res.1 }
      | some _ => { s with nic, defrag := res.1, skbs := pskb + 1 }

/-! ## A sequence of fragments -/

/-- A received packet that is a fragment. -/
structure Fragment where
  ppkt : FragPkt
  fragment : IsFragment ppkt.pkt

/-- What `rx_process_data_frame` lets through of packets of one station. -/
def delivered (nic : RxNic) (wdn : RxWdn) (pwdn : Nat) :
    Defrag → List Fragment → List FragPkt
  | _, [] => []
  | st, frag :: frags =>
      let res := processDataFrame nic wdn pwdn st frag.ppkt
      res.2.toList ++ delivered nic wdn pwdn res.1 frags

def macHeader (pkt : RxPkt) : List UInt8 := pkt.skb.take pkt.info.wlanHdrLen

/-- Behind the header and the IV, without the ICV. -/
def fragBody (pkt : RxPkt) : List UInt8 :=
  let offset := pkt.info.wlanHdrLen + pkt.info.ivLen
  let trailer := if pkt.info.bdecrypted then pkt.info.icvLen else 0
  (pkt.skb.drop offset).take (pkt.len - offset - trailer)

/-- The fragments of one MSDU, each once and in order. -/
def InOrder (frags : List Fragment) : Prop :=
  2 ≤ frags.length ∧ ∀ i (inside : i < frags.length),
    (frags.get ⟨i, inside⟩).ppkt.pkt.info.fragNum.toNat = i ∧
      ((frags.get ⟨i, inside⟩).ppkt.pkt.info.moreFrag = true ↔ i + 1 < frags.length)

/-- An MSDU that can be put together: `plain` are its decrypted fragments, there
are descriptors for them and room in the first buffer. -/
structure Complete (nic : RxNic) (wdn : RxWdn) (st : Defrag) (frags : List Fragment)
    (plain : List RxPkt) : Prop where
  inOrder : InOrder frags
  decrypts : frags.map (fun frag => decrypted nic wdn frag.ppkt.pkt) = plain.map some
  pool : frags.length ≤ st.freeRxPktList.length
  room : ∀ first ∈ frags.head?,
    first.ppkt.ptail + ((plain.tail.map fragBody).flatten).length ≤ first.ppkt.skbEnd

def Reassembled (plain : List RxPkt) (packets : List FragPkt) : Prop :=
  ∃ ppkt, packets = [ppkt] ∧
    some (macHeader ppkt.pkt) = plain.head?.map macHeader ∧
    fragBody ppkt.pkt = (plain.map fragBody).flatten

/-- A complete MSDU comes out as one packet, anything else not at all. -/
def Faithful (nic : RxNic) (wdn : RxWdn) (pwdn : Nat) (st : Defrag)
    (frags : List Fragment) : Prop :=
  (∀ plain, Complete nic wdn st frags plain →
    Reassembled plain (delivered nic wdn pwdn st frags)) ∧
  (¬ InOrder frags → delivered nic wdn pwdn st frags = [])

theorem decryptBody_info {key : List UInt8} {pkt plain : RxPkt}
    (opened : decryptBody key pkt = some plain) : plain.info = pkt.info := by
  unfold decryptBody at opened
  dsimp only at opened
  split at opened
  · cases opened
  · cases opened
    rfl

theorem wfSecDecryptor_isFragment {nic : RxNic} {pkt plain : RxPkt}
    (opened : wfSecDecryptor nic pkt = some plain) :
    IsFragment plain ↔ IsFragment pkt := by
  unfold wfSecDecryptor at opened
  rw [Option.map_eq_some_iff] at opened
  obtain ⟨body, deciphered, rfl⟩ := opened
  have same : body.info = pkt.info := by
    split at deciphered
    · exact decryptBody_info deciphered
    · exact decryptBody_info deciphered
    · unfold tkipDecrypt at deciphered
      simp only [Option.bind_eq_bind, Option.bind_eq_some_iff] at deciphered
      obtain ⟨key, -, deciphered⟩ := deciphered
      exact decryptBody_info deciphered
    · cases deciphered
      rfl
  simp [IsFragment, same]

theorem parseHeader_isFragment (nic : RxNic) (wdn : RxWdn) (pkt : RxPkt) :
    IsFragment (parseHeader nic wdn pkt) ↔ IsFragment pkt := by
  unfold parseHeader setIvIcvLen setEncryptAlgoNum rxParseHtCtrlField rxParseQosCtrlField
  dsimp only
  split_ifs <;> rfl

theorem decrypted_isFragment {nic : RxNic} {wdn : RxWdn} {pkt plain : RxPkt}
    (opened : decrypted nic wdn pkt = some plain) :
    IsFragment plain ↔ IsFragment pkt := by
  unfold decrypted at opened
  dsimp only at opened
  split at opened
  · exact (wfSecDecryptor_isFragment opened).trans (parseHeader_isFragment nic wdn pkt)
  · cases opened
    exact parseHeader_isFragment nic wdn pkt

theorem processDataFrame_fragment (nic : RxNic) (wdn : RxWdn) (pwdn : Nat) (st : Defrag)
    (frag : Fragment) : (processDataFrame nic wdn pwdn st frag.ppkt).2 = none := by
  unfold processDataFrame
  split
  · rfl
  · rename_i plain opened
    rw [if_pos ((decrypted_isFragment opened).mpr frag.fragment)]

theorem delivered_eq_nil (nic : RxNic) (wdn : RxWdn) (pwdn : Nat) (st : Defrag)
    (frags : List Fragment) : delivered nic wdn pwdn st frags = [] := by
  induction frags generalizing st with
  | nil => rfl
  | cons frag frags ih =>
      rw [delivered, processDataFrame_fragment, ih]
      rfl

/-- Fragments never come out, so exactly the sequences that make no MSDU are
treated as they should. -/
theorem defrag_faithful_iff (nic : RxNic) (wdn : RxWdn) (pwdn : Nat) (st : Defrag)
    (frags : List Fragment) :
    Faithful nic wdn pwdn st frags ↔ ¬ ∃ plain, Complete nic wdn st frags plain := by
  unfold Faithful
  rw [delivered_eq_nil]
  constructor
  · intro faithful complete
    obtain ⟨plain, complete⟩ := complete
    obtain ⟨ppkt, one, -⟩ := faithful.1 plain complete
    cases one
  · intro incomplete
    refine ⟨?_, fun _ => rfl⟩
    intro plain complete
    exact absurd ⟨plain, complete⟩ incomplete

/-- A fragment with a body of eight bytes, from the access point. -/
def fragFrame (frag : BitVec 4) (moreFrag : Bool) : RxFrame where
  rxd := { seq := 1, frag, moreFrag, qos := false, tid := 0 }
  mem := Mem.write (fun _ => 0) 0
    ([0x08, if moreFrag then 0x06 else 0x02, 0x00, 0x00] ++ staAddr.toList ++
      apAddr.toList ++ apAddr.toList ++ [UInt8.ofNat frag.toNat ||| 0x10, 0x00] ++
      [1, 2, 3, 4, 5, 6, 7, 8])
  pdata := 0
  len := 32

def twoFragments : List Fragment :=
  [⟨createSkb (fragFrame 0 true) 0, .inl rfl⟩,
    ⟨createSkb (fragFrame 1 false) 1, .inr (by decide)⟩]

def emptyPool : Defrag := poolOf fun _ => createSkb (fragFrame 0 false) 0

theorem twoFragments_complete :
    Complete openStation (openStation.wdn 0) emptyPool twoFragments
      (twoFragments.map fun frag =>
        parseHeader openStation (openStation.wdn 0) frag.ppkt.pkt) where
  inOrder := by
    unfold InOrder
    decide +kernel
  decrypts := by
    have clear : ∀ frag ∈ twoFragments,
        getHdrProtected (parseHeader openStation (openStation.wdn 0) frag.ppkt.pkt).mem
          (parseHeader openStation (openStation.wdn 0) frag.ppkt.pkt).pdata = false := by
      decide +kernel
    rw [List.map_map]
    apply List.map_congr_left
    intro frag member
    simp [decrypted, clear frag member]
  pool := by decide +kernel
  room := by
    intro first member
    cases member
    decide +kernel

/-- Two fragments of one MSDU: nothing is delivered. -/
theorem two_fragments_lost :
    ¬ Faithful openStation (openStation.wdn 0) 0 emptyPool twoFragments := by
  intro faithful
  obtain ⟨ppkt, one, -⟩ := faithful.1 _ twoFragments_complete
  rw [delivered_eq_nil] at one
  cases one

/-! ## Descriptors over a run -/

/-- Every descriptor is in one list, once, and the queued ones refer to buffers
that are still there. -/
structure Conserved (s : Receiver) : Prop where
  located : ∀ d : Descriptor,
    (d ∈ s.defrag.freeRxPktList ∧ ∀ pwdn, d ∉ s.defrag.defragQ pwdn) ∨
    (d ∉ s.defrag.freeRxPktList ∧ ∃! pwdn, d ∈ s.defrag.defragQ pwdn)
  free_nodup : s.defrag.freeRxPktList.Nodup
  queue_nodup : ∀ pwdn, (s.defrag.defragQ pwdn).Nodup
  total : ∀ stations : Finset Nat, (∀ pwdn ∉ stations, s.defrag.defragQ pwdn = []) →
    s.defrag.freeRxPktList.length +
      ∑ pwdn ∈ stations, (s.defrag.defragQ pwdn).length = maxPktNum
  alive : ∀ pwdn, ∀ d ∈ s.defrag.defragQ pwdn, (s.defrag.rxPkt d).pskb ∉ s.freed

def rxInit (nic : RxNic) (rxPkt : Descriptor → FragPkt) : Receiver where
  nic
  defrag := poolOf rxPkt
  skbs := 0
  freed := []

/-- The frame passes the checks and the decryption, and is a fragment. -/
def FragmentArrives (s : Receiver) (frame : RxFrame) : Prop :=
  ∃ pwdn wdn pkt plain, checked s.nic frame = some (pwdn, wdn, pkt) ∧
    decrypted (withWdn s.nic pwdn wdn) wdn pkt = some plain ∧ IsFragment plain

structure Untouched (st : Defrag) : Prop where
  free : st.freeRxPktList = List.finRange maxPktNum
  queues : ∀ pwdn, st.defragQ pwdn = []
  flags : ∀ pwdn, st.defragFlag pwdn = false

theorem Untouched.conserved {s : Receiver} (untouched : Untouched s.defrag) :
    Conserved s where
  located := by
    intro d
    exact .inl ⟨by simp [untouched.free], by simp [untouched.queues]⟩
  free_nodup := by
    rw [untouched.free]
    exact List.nodup_finRange maxPktNum
  queue_nodup := by simp [untouched.queues]
  total := by simp [untouched.free, untouched.queues]
  alive := by simp [untouched.queues]

theorem mpduProcess_other {s : Receiver} {frame : RxFrame}
    (other : ¬ FragmentArrives s frame) :
    (mpduProcess s frame).defrag = s.defrag := by
  unfold mpduProcess
  dsimp only
  split
  · rfl
  · rename_i pwdn wdn pkt valid
    unfold processDataFrame
    cases opened : decrypted (withWdn s.nic pwdn wdn) wdn pkt with
    | none => simp
    | some plain =>
        have whole : ¬ IsFragment plain := by
          intro fragment
          exact other ⟨pwdn, wdn, pkt, plain, valid, opened, fragment⟩
        simp [whole]

theorem mpduProcess_fragment {s : Receiver} {frame : RxFrame}
    (arrives : FragmentArrives s frame) :
    ∃ pwdn ppkt, IsFragment ppkt.pkt ∧ ppkt.pskb ∈ (mpduProcess s frame).freed ∧
      (mpduProcess s frame).defrag = (s.defrag.rxDefrag pwdn ppkt).1 := by
  obtain ⟨pwdn, wdn, pkt, plain, valid, opened, fragment⟩ := arrives
  refine ⟨pwdn, { createSkb frame s.skbs with pkt := plain }, fragment, ?_, ?_⟩
  · simp [mpduProcess, valid, processDataFrame, opened, fragment, createSkb]
  · simp [mpduProcess, valid, processDataFrame, opened, fragment]

section Untouched

variable {st : Defrag} {ppkt : FragPkt}

theorem rxDefrag_first (untouched : Untouched st) (pwdn : Nat)
    (more : ppkt.pkt.info.moreFrag = true) (first : ppkt.pkt.info.fragNum = 0) :
    (st.rxDefrag pwdn ppkt).1.defragQ pwdn = [firstDescriptor] ∧
      (st.rxDefrag pwdn ppkt).1.rxPkt firstDescriptor = ppkt := by
  have pool : st.freeRxPktList =
      firstDescriptor :: (List.finRange maxPktNum).tail := untouched.free
  unfold Defrag.rxDefrag
  rw [pool]
  simp [more, first, Defrag.setFlag, Defrag.setPkt, Defrag.insertTail, Defrag.setQ,
    Defrag.freeRxQueue, Defrag.freeRxLoop, untouched.queues]

/-- The descriptor taken from the pool goes nowhere. -/
theorem rxDefrag_later (untouched : Untouched st) (pwdn : Nat)
    (later : ppkt.pkt.info.fragNum ≠ 0) :
    firstDescriptor ∉ (st.rxDefrag pwdn ppkt).1.freeRxPktList ∧
      (st.rxDefrag pwdn ppkt).1.defragQ = st.defragQ := by
  have pool : st.freeRxPktList =
      firstDescriptor :: (List.finRange maxPktNum).tail := untouched.free
  unfold Defrag.rxDefrag
  rw [pool]
  have outside : firstDescriptor ∉ (List.finRange maxPktNum).tail := by decide
  cases ppkt.pkt.info.moreFrag with
  | false =>
      simp only [if_true, if_neg later, Defrag.setPkt, untouched.flags]
      exact ⟨outside, rfl⟩
  | true =>
      simp only [Bool.true_eq_false, if_false, if_neg later, Defrag.setPkt,
        untouched.flags]
      exact ⟨outside, rfl⟩

end Untouched

theorem mpduProcess_lost {s : Receiver} {frame : RxFrame} (untouched : Untouched s.defrag)
    (arrives : FragmentArrives s frame) : ¬ Conserved (mpduProcess s frame) := by
  intro conserved
  obtain ⟨pwdn, ppkt, fragment, freed, defrag⟩ := mpduProcess_fragment arrives
  by_cases first : ppkt.pkt.info.fragNum = 0
  · -- it is queued, and its buffer is freed
    have more : ppkt.pkt.info.moreFrag = true := by
      simpa [IsFragment, first] using fragment
    have queued := rxDefrag_first untouched pwdn more first
    rw [← defrag] at queued
    apply conserved.alive pwdn firstDescriptor
    · simp [queued.1]
    · rw [queued.2]
      exact freed
  · have leaked := rxDefrag_later untouched pwdn first
    rw [← defrag] at leaked
    cases conserved.located firstDescriptor with
    | inl free => exact leaked.1 free.1
    | inr queued =>
        obtain ⟨station, member, -⟩ := queued.2
        rw [leaked.2, untouched.queues] at member
        exact List.not_mem_nil member

/-- Over a run from the initialised driver the descriptors are conserved exactly
as long as no fragment arrives. -/
theorem descriptors_conserved_iff (nic : RxNic) (rxPkt : Descriptor → FragPkt)
    (frames : List RxFrame) :
    Throughout (fun s frame => some (mpduProcess s frame)) Conserved (rxInit nic rxPkt)
        frames ↔
      EachStep (fun s frame => some (mpduProcess s frame))
        (fun s frame => ¬ FragmentArrives s frame) (rxInit nic rxPkt) frames := by
  apply throughout_iff_of_clean (fun s => Untouched s.defrag)
  · intro s untouched
    exact untouched.conserved
  · intro s frame untouched other
    refine ⟨mpduProcess s frame, rfl, ?_⟩
    rw [mpduProcess_other other]
    exact untouched
  · intro s frame next untouched arrives hstep
    cases hstep
    exact mpduProcess_lost untouched (not_not.mp arrives)
  · exact ⟨rfl, fun _ => rfl, fun _ => rfl⟩

/-- The first fragment of an MSDU is queued with a buffer that is freed. -/
theorem first_fragment_not_conserved :
    ¬ Throughout (fun s frame => some (mpduProcess s frame)) Conserved
      (rxInit openStation emptyPool.rxPkt) [fragFrame 0 true] := by
  intro throughout
  obtain ⟨-, next, hstep, conserved⟩ := throughout
  cases hstep
  exact conserved.alive 0 firstDescriptor (by decide +kernel) (by decide +kernel)

end Smartchip.Rx
