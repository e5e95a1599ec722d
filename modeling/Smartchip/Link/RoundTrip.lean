import Smartchip.Link.Receive

/-!
# From one end of a link to the other

An Ethernet frame that is sent in one piece should come out at the receiver as
it went in.
-/

namespace Smartchip.Link

open Smartchip.Foundation Smartchip.Frame Smartchip.Sec Smartchip.Tx Smartchip.Rx

def RoundTrip (tx : TxNic) (frame : XmitFrame) (msdu : List UInt8) (mem : Mem)
    (rx : RxNic) (rxd : RxDesc) (rxMem : Mem) (pdata : Nat) : Prop :=
  ∃ mpdu, transmit tx frame msdu mem = some [mpdu] ∧
    receive rx rxd rxMem pdata mpdu = some msdu

section RoundTrip

variable {tx : TxNic} {frame : XmitFrame} {msdu : List UInt8} {rx : RxNic}
  {id : Nat} {rxd : RxDesc}

/-- Without TKIP a frame comes back exactly when the descriptor knows of the
QoS field and the station does not drop it as a multicast. -/
theorem round_trip_iff (prepared : Prepared tx frame msdu)
    (linked : Linked tx rx id frame msdu) (cipher : frame.encryptAlgo ≠ .tkip)
    (fits : frame.bmcast = true ∨ frame.wholeLen msdu ≤ tx.fragThresh.toNat)
    (unfragmented : rxd.moreFrag = false ∧ rxd.frag = 0)
    (mem rxMem : Mem) (pdata : Nat) :
    RoundTrip tx frame msdu mem rx rxd rxMem pdata ↔
      rxd.qos = (tx.wdn frame.pwdn).qosOption ∧ Reaches tx rx msdu := by
  have payload : msdu.length - ethHlen + 14 = msdu.length :=
    Nat.sub_add_cancel prepared.long
  have keyed : MicKeyed tx frame := fun tkip => absurd tkip cipher
  have micLen : frame.micLen = 0 := if_neg cipher
  constructor
  · rintro ⟨mpdu, hsent, hreceived⟩
    obtain ⟨trailer, none, mpduOf⟩ :=
      transmit_single prepared linked.supported fits hsent
    obtain ⟨reaches, length⟩ := mpduOf.received_length linked prepared hreceived
    refine ⟨?_, reaches⟩
    -- a header that is taken two bytes too long or too short shifts the payload
    rw [prepared.hdrlen, List.length_append, List.length_drop, none, micLen]
      at length
    cases qos : rxd.qos with
    | true =>
        cases option : (tx.wdn frame.pwdn).qosOption with
        | true => rfl
        | false =>
            simp only [qos, option, Bool.false_eq_true, if_true, if_false] at length
            omega
    | false =>
        cases option : (tx.wdn frame.pwdn).qosOption with
        | true =>
            simp only [qos, option, Bool.false_eq_true, if_true, if_false] at length
            omega
        | false => rfl
  · rintro ⟨qos, reaches⟩
    obtain ⟨mpdus, hsent⟩ := transmit_returns prepared fits linked.receiver keyed
      mem
    obtain ⟨mpdu, trailer, rfl, none, mpduOf⟩ :=
      transmit_whole prepared linked.supported fits hsent
    refine ⟨mpdu, hsent, ?_⟩
    rw [micLen, List.length_eq_zero_iff] at none
    rw [mpduOf.received linked prepared reaches qos unfragmented, none,
      List.append_nil, List.take_append_drop]

/-- The MPDU with another MIC, encrypted again under the key of the frame. -/
def withMic (tx : TxNic) (frame : XmitFrame) (msdu mpdu mic : List UInt8) :
    List UInt8 :=
  mpdu.take (frame.hdrlen + frame.ivLen) ++ sealBody (frameKey tx frame msdu)
    (snapHeader frame.etherType ++ (msdu.drop ethHlen ++ mic))

theorem mpduOf_withMic {rest mpdu : List UInt8} (tkip : frame.encryptAlgo = .tkip)
    (mpduOf : MpduOf tx frame msdu rest mpdu) (mic : List UInt8) :
    MpduOf tx frame msdu (msdu.drop ethHlen ++ mic)
      (withMic tx frame msdu mpdu mic) := by
  obtain ⟨seqnum, hdr, mem, headed, head⟩ := mpduOf.head
  have front : (mpdu.take (frame.hdrlen + frame.ivLen)).length =
      frame.hdrlen + frame.ivLen := by
    rw [head, Mem.length_read]
  constructor
  · refine ⟨seqnum, hdr, mem, headed, ?_⟩
    rw [withMic, List.take_left' front, head]
  · rw [withMic, List.drop_left' front, tkip]
    rfl

theorem tkip_not_round_trip (prepared : Prepared tx frame msdu)
    (linked : Linked tx rx id frame msdu) (tkip : frame.encryptAlgo = .tkip)
    (fits : frame.bmcast = true ∨ frame.wholeLen msdu ≤ tx.fragThresh.toNat)
    (mem rxMem : Mem) (pdata : Nat) :
    ¬ RoundTrip tx frame msdu mem rx rxd rxMem pdata := by
  have payload : msdu.length - ethHlen + 14 = msdu.length :=
    Nat.sub_add_cancel prepared.long
  have micLen : frame.micLen = 8 := if_pos tkip
  rintro ⟨mpdu, hsent, hreceived⟩
  obtain ⟨trailer, mic, mpduOf⟩ :=
    transmit_single prepared linked.supported fits hsent
  obtain ⟨-, length⟩ := mpduOf.received_length linked prepared hreceived
  rw [List.length_append, List.length_drop, mic, micLen] at length
  have bounds := prepared.hdrlen_ge
  split at length
  · omega
  · omega

/-- A TKIP frame never comes back, and whatever stands in the place of its MIC
is handed on behind the payload. -/
theorem tkip_round_trip_never (prepared : Prepared tx frame msdu)
    (linked : Linked tx rx id frame msdu) (tkip : frame.encryptAlgo = .tkip)
    (fits : frame.bmcast = true ∨ frame.wholeLen msdu ≤ tx.fragThresh.toNat)
    (mem rxMem : Mem) (pdata : Nat) :
    ¬ RoundTrip tx frame msdu mem rx rxd rxMem pdata ∧
      ∀ mpdu, transmit tx frame msdu mem = some [mpdu] →
        rxd.qos = (tx.wdn frame.pwdn).qosOption →
        rxd.moreFrag = false ∧ rxd.frag = 0 → Reaches tx rx msdu →
        ∀ mic : List UInt8,
          receive rx rxd rxMem pdata (withMic tx frame msdu mpdu mic) =
            some (msdu ++ mic) := by
  refine ⟨tkip_not_round_trip prepared linked tkip fits mem rxMem pdata, ?_⟩
  intro mpdu hsent qos unfragmented reaches mic
  obtain ⟨trailer, -, mpduOf⟩ :=
    transmit_single prepared linked.supported fits hsent
  rw [(mpduOf_withMic tkip mpduOf mic).received linked prepared reaches qos
    unfragmented, ← List.append_assoc, List.take_append_drop]

end RoundTrip

/-! A station and its access point. -/

def sharedKeys : SecInfo where
  dot11DefKey := fun _ => ⟨[0x01, 0x02, 0x03, 0x04, 0x05], by decide⟩
  dot118021XGrpKeyid := 1
  dot118021XGrpKey := fun _ => Vector.replicate 16 0x11
  dot118021XGrptxmickey := fun _ => Vector.replicate 16 0x22

def stationTx : TxNic := { stationNic 2346 with secInfo := sharedKeys }

def accessPointTx : TxNic := { stationTx with
  workMode := .master
  wdnFindInfo := fun addr => if addr = bcAddr then some 0 else none }

def accessPointRx (algo : EncryptAlgo) : RxNic where
  workMode := .master
  localAddr := apAddr
  auth8021X := true
  dot118021XGrpPrivacy := algo
  dot11PrivacyAlgrthm := algo
  binstallGrpkey := false
  secInfo := sharedKeys
  wdnFindInfo := fun addr => if addr = staAddr.toList then some 0 else none
  wdn := fun _ => {
    bssid := apAddr
    dot118021XPrivacy := algo
    dot118021xUncstKey := Vector.replicate 16 0x44
    seqCtrlRecorder := fun _ => 0 }

def stationRx (algo : EncryptAlgo) : RxNic := { accessPointRx algo with
  workMode := .infra
  localAddr := staAddr
  wdnFindInfo := fun addr =>
    if addr = apAddr.toList then some 0 else none }

def firstDesc : RxDesc where
  seq := 1
  frag := 0
  moreFrag := false
  qos := true
  tid := 0

def wepFrame : XmitFrame := { ipFrame with
  encryptAlgo := .wep40
  ivLen := 4
  icvLen := 4
  iv := [0x01, 0x00, 0x00, 0x40] }

def tkipFrame : XmitFrame := { ipFrame with
  encryptAlgo := .tkip
  ivLen := 8
  icvLen := 4
  iv := [0x00, 0x20, 0x01, 0x20, 0x00, 0x00, 0x00, 0x00]
  dot11tkiptxmickey := Vector.replicate 16 0x33
  dot118021xUncstKey := Vector.replicate 16 0x44 }

def groupFrame : XmitFrame := { ipFrame with bmcast := true }

def groupMsdu : List UInt8 :=
  EthFrame.bytes ⟨#v[0x01, 0x00, 0x5e, 0x00, 0x00, 0xfb], apAddr, 0x0800,
    [0x45, 0x00, 0x00, 0x1c]⟩

theorem round_trip_iff_wep :
    RoundTrip stationTx wepFrame (ipMsdu 40) (fun _ => 0) (accessPointRx .wep40)
      firstDesc (fun _ => 0) 0 := by
  have prepared : Prepared stationTx wepFrame (ipMsdu 40) :=
    ⟨by decide, rfl, rfl, rfl, rfl, rfl, rfl, rfl, by decide⟩
  have linked : Linked stationTx (accessPointRx .wep40) 0 wepFrame (ipMsdu 40) :=
    ⟨.inl ⟨rfl, rfl, rfl⟩, ⟨by decide, rfl⟩, rfl, .inr (.inl rfl), fun _ => rfl,
      fun _ => rfl, by decide⟩
  exact (round_trip_iff prepared linked (by decide) (.inr (by decide))
    ⟨rfl, rfl⟩ _ _ _).mpr ⟨rfl, fun master => absurd master (by decide)⟩

/-- `rx_data_pkt_ap2sta` takes the group address for one of another station. -/
theorem multicast_not_round_trip :
    Prepared accessPointTx groupFrame groupMsdu ∧
      Linked accessPointTx (stationRx .noPrivacy) 0 groupFrame groupMsdu ∧
      ¬ RoundTrip accessPointTx groupFrame groupMsdu (fun _ => 0)
        (stationRx .noPrivacy) firstDesc (fun _ => 0) 0 := by
  refine ⟨⟨by decide, rfl, rfl, rfl, rfl, rfl, rfl, rfl, by decide⟩,
    ⟨.inr ⟨rfl, rfl, rfl, .inr rfl⟩, ⟨by decide, rfl⟩, rfl, .inl rfl, by decide,
      fun _ => rfl, by decide⟩, ?_⟩
  rintro ⟨mpdu, hsent, hreceived⟩
  have dropped : (transmit accessPointTx groupFrame groupMsdu fun _ => 0).map
      (fun mpdus => mpdus.map
        (receive (stationRx .noPrivacy) firstDesc (fun _ => 0) 0)) =
          some [none] := by
    decide +kernel
  rw [hsent, Option.map_some, List.map_cons, hreceived] at dropped
  contradiction

theorem tkipFrame_prepared : Prepared stationTx tkipFrame (ipMsdu 40) :=
  ⟨by decide, rfl, rfl, rfl, rfl, rfl, rfl, rfl, by decide⟩

theorem tkipFrame_linked :
    Linked stationTx (accessPointRx .tkip) 0 tkipFrame (ipMsdu 40) :=
  ⟨.inl ⟨rfl, rfl, rfl⟩, ⟨by decide, rfl⟩, rfl, .inr (.inr (.inr rfl)),
    fun _ => rfl, fun _ => rfl, fun _ => rfl⟩

theorem tkip_round_trip_never_station :
    ¬ RoundTrip stationTx tkipFrame (ipMsdu 40) (fun _ => 0)
        (accessPointRx .tkip) firstDesc (fun _ => 0) 0 ∧
      ∃ mpdu, transmit stationTx tkipFrame (ipMsdu 40) (fun _ => 0) =
          some [mpdu] ∧
        receive (accessPointRx .tkip) firstDesc (fun _ => 0) 0
            (withMic stationTx tkipFrame (ipMsdu 40) mpdu
              (List.replicate 8 0)) =
          some (ipMsdu 40 ++ List.replicate 8 0) := by
  have fits : tkipFrame.bmcast = true ∨
      tkipFrame.wholeLen (ipMsdu 40) ≤ stationTx.fragThresh.toNat :=
    .inr (by decide)
  have never := @tkip_round_trip_never _ _ _ _ _ firstDesc tkipFrame_prepared
    tkipFrame_linked rfl fits (fun _ => 0) (fun _ => 0) 0
  obtain ⟨mpdus, hsent⟩ := transmit_returns tkipFrame_prepared fits
    tkipFrame_linked.receiver (fun _ => by decide) (fun _ => 0)
  obtain ⟨mpdu, trailer, rfl, -⟩ := transmit_whole tkipFrame_prepared
    tkipFrame_linked.supported fits hsent
  exact ⟨never.1, mpdu, hsent, never.2 mpdu hsent rfl ⟨rfl, rfl⟩
    (fun master => absurd master (by decide)) _⟩

theorem tkip_frame_not_restored :
    Prepared stationTx tkipFrame (ipMsdu 40) ∧
      Linked stationTx (accessPointRx .tkip) 0 tkipFrame (ipMsdu 40) ∧
      MicKeyed stationTx tkipFrame ∧
      ¬ RoundTrip stationTx tkipFrame (ipMsdu 40) (fun _ => 0)
        (accessPointRx .tkip) firstDesc (fun _ => 0) 0 :=
  ⟨tkipFrame_prepared, tkipFrame_linked, fun _ => by decide,
    tkip_not_round_trip tkipFrame_prepared tkipFrame_linked rfl
      (.inr (by decide)) _ _ _⟩

end Smartchip.Link
