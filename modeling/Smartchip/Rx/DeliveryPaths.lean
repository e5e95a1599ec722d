import Smartchip.Rx.Process
import Smartchip.Rx.ReorderPool

/-!
# The two ways to deliver a received frame

`mpdu_process` hands a parsed data frame to `rx_data_reorder_process` when
block-ack is enabled and to `rx_data_upload_process` otherwise.
-/

namespace Smartchip.Rx

open Smartchip.Foundation Smartchip.Frame Smartchip.Sec

def sessionOf (baCtl : Option (BaCtl (List UInt8))) (info : RxPktInfo) :
    Option (RecvBaCtrl (List UInt8)) :=
  if prio : info.qosPri.toNat < tidNum then
    (baCtl.map fun baCtl => baCtl ⟨_, prio⟩).filter
      fun ba => info.qosFlag && ba.enable
  else none

theorem sessionOf_cases {baCtl : Option (BaCtl (List UInt8))}
    {info : RxPktInfo} {ba : RecvBaCtrl (List UInt8)}
    (h : sessionOf baCtl info = some ba) :
    ∃ table ∈ baCtl, ∃ tid, ba = table tid := by
  unfold sessionOf at h
  split at h
  · rw [Option.filter_eq_some_iff, Option.map_eq_some_iff] at h
    obtain ⟨⟨table, htable, rfl⟩, -⟩ := h
    exact ⟨table, htable, _, rfl⟩
  · contradiction

section Paths

variable {baCtl : Option (BaCtl (List UInt8))} {pkt eth : RxPkt}
  {ba : RecvBaCtrl (List UInt8)}

theorem rxDataReorderProcess_uploads (processed : Processed pkt)
    (transferred : wlanToEth pkt = some eth) (info : eth.info = pkt.info) :
    (rxDataReorderProcess baCtl pkt).map Prod.fst =
      match sessionOf baCtl pkt.info with
      | none => some [eth.skb]
      | some ba => (reorderStep (withTimeout ba)
          (.frame pkt.info.seqNum eth.skb)).map
            fun next => next.uploaded.drop ba.uploaded.length := by
  have prio := processed.qosPri
  unfold rxDataReorderProcess sessionOf
  simp only [dif_pos prio, transferred, info]
  cases baCtl with
  | none => simp
  | some table =>
      cases qos : pkt.info.qosFlag with
      | false => simp
      | true =>
          cases enable : (table ⟨pkt.info.qosPri.toNat, prio⟩).enable with
          | false => simp [enable, Option.filter]
          | true =>
              simp only [enable, Option.map_some, Option.filter, Bool.and_self,
                if_true, Bool.true_eq_false, if_false, Option.map_map, reorderStep]
              rfl

theorem withTimeout_inSession {session : Option (Window (List UInt8))}
    (h : InSession ba session) : InSession (withTimeout ba) session := by
  unfold withTimeout
  split
  · cases session with
    | none =>
        have idle : Idle ba := h
        exact ⟨idle.size, idle.counted, idle.indicate, idle.pending⟩
    | some window =>
        have sim : Simulates ba window := h
        exact ⟨sim.size, sim.counted, sim.indicate, sim.pending, sim.valid⟩
  · exact h

theorem reorder_uploads_inSequence {session : Option (Window (List UInt8))}
    (processed : Processed pkt) (transferred : wlanToEth pkt = some eth)
    (info : eth.info = pkt.info) (found : sessionOf baCtl pkt.info = some ba)
    (h : InSession ba session) (inSequence : InSequence ba pkt.info.seqNum) :
    (ba.freeOrderQueue.list = [] ∧
        (rxDataReorderProcess baCtl pkt).map Prod.fst = none) ∨
      ba.freeOrderQueue.list ≠ [] ∧ ∃ released waiting,
        pendingSkbs ba = released.map some ++ waiting ∧
          (rxDataReorderProcess baCtl pkt).map Prod.fst =
            some (eth.skb :: released) := by
  rw [rxDataReorderProcess_uploads processed transferred info, found]
  have h' := withTimeout_inSession h
  have same : (withTimeout ba).indicateSeq = ba.indicateSeq ∧
      (withTimeout ba).freeOrderQueue = ba.freeOrderQueue ∧
      pendingSkbs (withTimeout ba) = pendingSkbs ba ∧
      (withTimeout ba).uploaded = ba.uploaded := by
    unfold withTimeout
    split
    · exact ⟨rfl, rfl, rfl, rfl⟩
    · exact ⟨rfl, rfl, rfl, rfl⟩
  have inSequence' : InSequence (withTimeout ba) pkt.info.seqNum := by
    unfold InSequence
    rw [same.1]
    exact inSequence
  have returns := inSequence_returns_iff h' inSequence' eth.skb
  rw [same.2.1] at returns
  simp only
  cases hstep : reorderStep (withTimeout ba)
      (.frame pkt.info.seqNum eth.skb) with
  | none =>
      left
      refine ⟨?_, rfl⟩
      by_contra pool
      obtain ⟨next, hnext⟩ := returns.mpr pool
      rw [hstep] at hnext
      contradiction
  | some next =>
      right
      refine ⟨returns.mp ⟨next, hstep⟩, ?_⟩
      obtain ⟨released, waiting, hpending, huploaded⟩ :=
        inSequence_uploaded h' inSequence' hstep
      rw [same.2.2.1] at hpending
      rw [same.2.2.2] at huploaded
      refine ⟨released, waiting, hpending, ?_⟩
      simp [huploaded]

end Paths

/-! ## Frames with a body -/

/-- An A-MSDU has its first subframe in front of the ICV and a buffer for it;
any other body can be transferred. -/
structure ValidBody (allocSkb : Nat → Option Mem) (pkt : RxPkt) : Prop where
  subframe : pkt.info.amsdu = true → pkt.bodyOffset + ethHlen +
    (pkt.mem.readBe16 (pkt.pdata + pkt.bodyOffset + 12)).toNat ≤
      (trimIcv pkt).len
  buffer : pkt.info.amsdu = true → (allocSkb 0).isSome
  msdu : pkt.info.amsdu = false → (wlanToEth pkt).isSome

section Bodies

variable {allocSkb : Nat → Option Mem} {pkt : RxPkt}

theorem length_allocMsdu_le (fresh : Mem) {da sa : List UInt8}
    (hda : da.length = 6) (hsa : sa.length = 6) (msdu : List UInt8) :
    (allocMsdu fresh da sa msdu).length ≤ msdu.length + ethHlen := by
  unfold allocMsdu ethHlen
  by_cases snap : isSnapHdr (fresh.write 14 msdu) 14 = true
  · simp only [if_pos snap, List.length_append]
    split
    · omega
    · rw [List.length_drop]
      omega
  · simp only [if_neg snap, List.length_append, length_be16]
    omega

theorem trimIcv_len_le (pkt : RxPkt) : (trimIcv pkt).len ≤ pkt.len := by
  unfold trimIcv pktTrim
  split
  · split
    · exact Nat.le_refl _
    · exact Nat.sub_le _ _
  · exact Nat.le_refl _

theorem processAmsdu_first (processed : Processed pkt)
    (amsdu : pkt.info.amsdu = true) (valid : ValidBody allocSkb pkt) :
    ∃ first rest, processAmsdu allocSkb pkt = first :: rest ∧
      first.length + pkt.bodyOffset ≤ (trimIcv pkt).len := by
  have inside := valid.subframe amsdu
  have trimmed := trimIcv_len_le pkt
  obtain ⟨fresh, hfresh⟩ := Option.isSome_iff_exists.mp (valid.buffer amsdu)
  have hoffset : pkt.bodyOffset = pkt.info.wlanHdrLen + pkt.info.ivLen := rfl
  unfold processAmsdu
  rw [if_neg (not_not.mpr processed.type), ← hoffset, amsduLoop]
  simp only
  rw [if_neg (by omega)]
  simp only [hfresh]
  refine ⟨_, _, rfl, ?_⟩
  have short := length_allocMsdu_le fresh
    (Mem.length_read pkt.mem (pkt.pdata + pkt.bodyOffset) 6)
    (Mem.length_read pkt.mem (pkt.pdata + pkt.bodyOffset + 6) 6)
    (pkt.mem.read (pkt.pdata + pkt.bodyOffset + ethHlen)
      (pkt.mem.readBe16 (pkt.pdata + pkt.bodyOffset + 12)).toNat)
  rw [Mem.length_read] at short
  omega

theorem ValidBody.transferred (processed : Processed pkt)
    (valid : ValidBody allocSkb pkt) :
    ∃ eth, wlanToEth pkt = some eth ∧ eth.info = pkt.info ∧
      (pkt.info.amsdu = true →
        (trimIcv pkt).len < eth.skb.length + pkt.bodyOffset) := by
  have hinfo : (trimIcv pkt).info = pkt.info := by rw [trimIcv_eq]
  have hoffset : (trimIcv pkt).bodyOffset = pkt.bodyOffset := by
    rw [RxPkt.bodyOffset, hinfo]
    rfl
  have isSome : (wlanToEth pkt).isSome := by
    cases amsdu : pkt.info.amsdu with
    | false => exact valid.msdu amsdu
    | true =>
        have inside := valid.subframe amsdu
        unfold ethHlen at inside
        obtain ⟨eth, heth, -, -⟩ := transferHdr_eq processed.trimIcv
          (by rw [hoffset]; omega)
        exact Option.isSome_iff_exists.mpr ⟨eth, heth⟩
  obtain ⟨eth, heth⟩ := Option.isSome_iff_exists.mp isSome
  have lengths := transferHdr_length processed.trimIcv heth
  rw [hoffset, hinfo] at lengths
  refine ⟨eth, heth, lengths.1, ?_⟩
  intro _
  rw [lengths.2]
  split
  · omega
  · omega

end Bodies

/-! ## Agreement -/

/-- The reorder path uploads what the other one does, followed by some of the
frames that waited for this one. -/
def PathsAgree (allocSkb : Nat → Option Mem)
    (baCtl : Option (BaCtl (List UInt8))) (pkt : RxPkt) : Prop :=
  ∃ released waiting,
    ((sessionOf baCtl pkt.info).map pendingSkbs).getD [] =
        released.map some ++ waiting ∧
      (rxDataReorderProcess baCtl pkt).map Prod.fst =
        some (rxDataUploadProcess allocSkb pkt ++ released)

theorem upload_first {allocSkb : Nat → Option Mem} {pkt eth : RxPkt}
    (processed : Processed pkt) (valid : ValidBody allocSkb pkt)
    (larger : pkt.info.amsdu = true →
      (trimIcv pkt).len < eth.skb.length + pkt.bodyOffset)
    {uploads released : List (List UInt8)}
    (same : eth.skb :: uploads = rxDataUploadProcess allocSkb pkt ++ released) :
    pkt.info.amsdu = false := by
  by_contra aggregated
  rw [Bool.not_eq_false] at aggregated
  obtain ⟨first, rest, hfirst, short⟩ :=
    processAmsdu_first processed aggregated valid
  have longer := larger aggregated
  rw [rxDataUploadProcess, if_pos aggregated, hfirst, List.cons_append,
    List.cons.injEq] at same
  rw [same.1] at longer
  omega

/-- The paths agree on plain MSDUs as long as the engine has a node, and never
on an A-MSDU. -/
theorem delivery_paths_agree_iff {nic nic' : RxNic} {rxd : RxDesc} {mem : Mem}
    {pdata len : Nat} {pkt : RxPkt}
    (received : wfRxCommonProcess nic rxd mem pdata len = some (nic', pkt))
    {allocSkb : Nat → Option Mem} (valid : ValidBody allocSkb pkt)
    {baCtl : Option (BaCtl (List UInt8))}
    (reached : ∀ table ∈ baCtl, ∃ kzalloc steps,
      nicRun (wfRxActionBaCtlInit kzalloc) steps = some table)
    (inSequence : ∀ ba ∈ sessionOf baCtl pkt.info,
      InSequence ba pkt.info.seqNum) :
    PathsAgree allocSkb baCtl pkt ↔
      pkt.info.amsdu = false ∧
        ∀ ba ∈ sessionOf baCtl pkt.info, ba.freeOrderQueue.list ≠ [] := by
  have processed := wfRxCommonProcess_processed received
  obtain ⟨eth, transferred, info, larger⟩ := valid.transferred processed
  have plain : pkt.info.amsdu = false →
      rxDataUploadProcess allocSkb pkt = [eth.skb] := by
    intro single
    rw [rxDataUploadProcess, single, transferred]
    rfl
  cases found : sessionOf baCtl pkt.info with
  | none =>
      have uploads := @rxDataReorderProcess_uploads baCtl _ _ processed
        transferred info
      rw [found] at uploads
      constructor
      · rintro ⟨released, waiting, -, same⟩
        rw [uploads, Option.some.injEq] at same
        exact ⟨upload_first processed valid larger same, by simp⟩
      · rintro ⟨single, -⟩
        refine ⟨[], [], by rw [found]; rfl, ?_⟩
        rw [uploads, plain single]
        rfl
  | some ba =>
      have member : ba ∈ sessionOf baCtl pkt.info := found
      obtain ⟨table, htable, tid, rfl⟩ := sessionOf_cases found
      obtain ⟨kzalloc, steps, hrun⟩ := reached table htable
      obtain ⟨session, hsession⟩ := nicRun_inSession hrun tid
      rcases reorder_uploads_inSequence processed transferred info found hsession
        (inSequence _ member) with ⟨empty, stuck⟩ |
          ⟨pool, released, waiting, hpending, uploads⟩
      · constructor
        · rintro ⟨_, _, -, same⟩
          rw [stuck] at same
          contradiction
        · rintro ⟨-, pool⟩
          exact absurd empty (pool _ rfl)
      · constructor
        · rintro ⟨released', waiting', -, same⟩
          rw [uploads, Option.some.injEq] at same
          refine ⟨upload_first processed valid larger same, ?_⟩
          rintro other ⟨⟩
          exact pool
        · rintro ⟨single, -⟩
          refine ⟨released, waiting, by rw [found]; exact hpending, ?_⟩
          rw [uploads, plain single]
          rfl

/-! A station that receives from its access point. -/

def openStation : RxNic where
  workMode := .infra
  localAddr := staAddr
  auth8021X := false
  dot118021XGrpPrivacy := .noPrivacy
  dot11PrivacyAlgrthm := .noPrivacy
  binstallGrpkey := false
  secInfo := noKeys
  wdnFindInfo := fun addr => if addr = apAddr.toList then some 0 else none
  wdn := fun _ => {
    bssid := apAddr
    dot118021XPrivacy := .noPrivacy
    dot118021xUncstKey := Vector.replicate 16 0
    seqCtrlRecorder := fun _ => 0 }

def qosDesc : RxDesc where
  seq := 7
  frag := 0
  moreFrag := false
  qos := true
  tid := 0

/-- A QoS data frame from the access point; `flags` is the low byte of the QoS
control field. -/
def qosFrame (flags : UInt8) (body : List UInt8) : List UInt8 :=
  [0x88, 0x02, 0x00, 0x00] ++ staAddr.toList ++ apAddr.toList ++
    apAddr.toList ++ [0x70, 0x00, flags, 0x00] ++ body

def arpBody : List UInt8 :=
  [0xaa, 0xaa, 0x03, 0x00, 0x00, 0x00, 0x08, 0x06, 0x00, 0x01]

def amsduBody : List UInt8 :=
  staAddr.toList ++ apAddr.toList ++ [0x00, 0x0a] ++ arpBody ++
    staAddr.toList ++ apAddr.toList ++ [0x00, 0x0a] ++ arpBody

def receiveQos (flags : UInt8) (body : List UInt8) : Option (RxNic × RxPkt) :=
  wfRxCommonProcess openStation qosDesc
    (Mem.write (fun _ => 0) 0 (qosFrame flags body)) 0
    (qosFrame flags body).length

def openTable : BaCtl (List UInt8) :=
  Function.update (wfRxActionBaCtlInit fun _ _ => true) firstTid
    (baCtlEnable 10 (baCtlInit fun _ => true))

theorem delivery_paths_differ :
    ∃ nic pkt, receiveQos 0x80 amsduBody = some (nic, pkt) ∧
      ValidBody (fun _ => some fun _ => 0) pkt ∧
        ¬ PathsAgree (fun _ => some fun _ => 0)
          (some (wfRxActionBaCtlInit fun _ _ => true)) pkt := by
  have evaluated : (receiveQos 0x80 amsduBody).map (fun result =>
      (result.2.info.amsdu,
        decide (result.2.bodyOffset + ethHlen + (result.2.mem.readBe16
          (result.2.pdata + result.2.bodyOffset + 12)).toNat ≤
            (trimIcv result.2).len),
        (rxDataUploadProcess (fun _ => some fun _ => 0) result.2).length,
        ((rxDataReorderProcess (some (wfRxActionBaCtlInit fun _ _ => true))
          result.2).map Prod.fst).map List.length)) =
            some (true, true, 2, some 1) := by
    decide +kernel
  rw [Option.map_eq_some_iff] at evaluated
  obtain ⟨⟨nic, pkt⟩, received, values⟩ := evaluated
  simp only [Prod.mk.injEq, decide_eq_true_eq] at values
  obtain ⟨amsdu, inside, uploads, reordered⟩ := values
  refine ⟨nic, pkt, received, ⟨fun _ => inside, fun _ => rfl, ?_⟩, ?_⟩
  · rw [amsdu]
    intro absent
    contradiction
  · rintro ⟨released, waiting, -, same⟩
    rw [same, Option.map_some, List.length_append, uploads,
      Option.some.injEq] at reordered
    omega

theorem delivery_paths_agree_iff_msdu :
    ∃ nic pkt, receiveQos 0x00 arpBody = some (nic, pkt) ∧
      PathsAgree (fun _ => none) (some openTable) pkt := by
  have evaluated : (receiveQos 0x00 arpBody).map (fun result =>
      (result.2.info.amsdu, (wlanToEth result.2).isSome,
        (sessionOf (some openTable) result.2.info).map fun ba =>
          (ba.indicateSeq, ba.freeOrderQueue.list.length))) =
            some (false, true, some (0xFFFF, 64)) := by
    decide +kernel
  rw [Option.map_eq_some_iff] at evaluated
  obtain ⟨⟨nic, pkt⟩, received, values⟩ := evaluated
  simp only [Prod.mk.injEq] at values
  obtain ⟨amsdu, msdu, session⟩ := values
  have block : ∀ ba ∈ sessionOf (some openTable) pkt.info,
      ba.indicateSeq = 0xFFFF ∧ ba.freeOrderQueue.list.length = 64 := by
    intro ba member
    rw [show sessionOf (some openTable) pkt.info = some ba from member,
      Option.map_some, Option.some.injEq, Prod.mk.injEq] at session
    exact session
  refine ⟨nic, pkt, received, (delivery_paths_agree_iff received
    ⟨?_, ?_, fun _ => msdu⟩ ?_ ?_).mpr ⟨amsdu, ?_⟩⟩
  · simp [amsdu]
  · simp [amsdu]
  · rintro table ⟨⟩
    exact ⟨fun _ _ => true, [.addba firstTid 10], rfl⟩
  · intro ba member
    exact .inl (block ba member).1
  · intro ba member empty
    have full := (block ba member).2
    rw [empty] at full
    contradiction

end Smartchip.Rx
