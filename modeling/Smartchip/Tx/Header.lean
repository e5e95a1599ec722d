import Smartchip.Tx.Mpdu

/-!
# The MAC header that is built in front of an MSDU

`tx_mac_hdr_build` edits the header field by field in the transmit buffer.  The
lemmas below say what the finished header holds.
-/

namespace Smartchip.Tx

open Smartchip.Foundation Smartchip.Frame Smartchip.Sec

def receiverAddr (nic : TxNic) (msdu : List UInt8) : List UInt8 :=
  match nic.workMode with
  | .infra => nic.curBssid.toList
  | _ => msdu.take 6

def headerAddrs (nic : TxNic) (msdu : List UInt8) : List UInt8 :=
  match nic.workMode with
  | .infra => nic.curBssid.toList ++ ((msdu.drop 6).take 6 ++ msdu.take 6)
  | .master => msdu.take 6 ++ (nic.curBssid.toList ++ (msdu.drop 6).take 6)
  | _ => msdu.take 6 ++ ((msdu.drop 6).take 6 ++ nic.curBssid.toList)

def dsBits : WorkMode → UInt16
  | .infra => 0x0100
  | .master => 0x0200
  | _ => 0

/-- The frame control field, without the fragment bit. -/
def frameControl (mode : WorkMode) (qosOption privacy : Bool) : UInt16 :=
  0x0008 ||| dsBits mode ||| (if qosOption then 0x0080 else 0) |||
    if privacy then 0x4000 else 0

section Addrs

variable {nic : TxNic} {msdu : List UInt8} {hdr : Nat} {mem mem' : Mem}

private theorem read_three_addrs (mem : Mem) (hdr : Nat)
    {addr1 addr2 addr3 : List UInt8} (h1 : addr1.length = 6)
    (h2 : addr2.length = 6) (h3 : addr3.length = 6) :
    (((mem.write (hdr + 16) addr3).write (hdr + 10) addr2).write (hdr + 4)
      addr1).read (hdr + 4) 18 = addr1 ++ (addr2 ++ addr3) := by
  have first := Mem.read_write_self
    ((mem.write (hdr + 16) addr3).write (hdr + 10) addr2) (hdr + 4) addr1
  have second := Mem.read_write_self (mem.write (hdr + 16) addr3) (hdr + 10)
    addr2
  have third := Mem.read_write_self mem (hdr + 16) addr3
  rw [h1] at first
  rw [h2] at second
  rw [h3] at third
  rw [show (18 : Nat) = 6 + (6 + 6) from rfl, Mem.read_add, Mem.read_add, first,
    Mem.read_write_apart _ (by omega), second, Mem.read_write_apart _ (by omega),
    Mem.read_write_apart _ (by omega), third]

private theorem read_outside_addrs (mem : Mem) {hdr start n : Nat}
    {addr1 addr2 addr3 : List UInt8} (h1 : addr1.length = 6)
    (h2 : addr2.length = 6) (h3 : addr3.length = 6)
    (outside : start + n ≤ hdr + 4 ∨ hdr + 22 ≤ start) :
    (((mem.write (hdr + 16) addr3).write (hdr + 10) addr2).write (hdr + 4)
      addr1).read start n = mem.read start n := by
  rw [Mem.read_write_apart _ (by omega), Mem.read_write_apart _ (by omega),
    Mem.read_write_apart _ (by omega)]

theorem length_dest (long : ethHlen ≤ msdu.length) : (msdu.take 6).length = 6 := by
  unfold ethHlen at long
  rw [List.length_take]
  omega

theorem length_src (long : ethHlen ≤ msdu.length) :
    ((msdu.drop 6).take 6).length = 6 := by
  unfold ethHlen at long
  rw [List.length_take, List.length_drop]
  omega

/-- The addresses fill bytes 4 to 21, the direction bits the first two. -/
theorem txHdrAddrs_spec (long : ethHlen ≤ msdu.length)
    (mode : nic.workMode ≠ .other) :
    ∃ mem', txHdrAddrs nic msdu hdr mem = some mem' ∧
      mem'.readLe16 hdr = mem.readLe16 hdr ||| dsBits nic.workMode ∧
      mem'.read (hdr + 4) 18 = headerAddrs nic msdu ∧
      ∀ start n, (start + n ≤ hdr ∨ hdr + 22 ≤ start) →
        mem'.read start n = mem.read start n := by
  have hdest := length_dest long
  have hsrc := length_src long
  have hbssid : nic.curBssid.toList.length = 6 := Vector.length_toList
  cases hmode : nic.workMode with
  | infra =>
      refine ⟨_, by simp only [txHdrAddrs, hmode]; rfl, ?_, ?_, ?_⟩
      · rw [Mem.readLe16_congr (read_outside_addrs _ hbssid hsrc hdest
          (by omega))]
        exact readLe16_setBits16_self mem _
      · rw [read_three_addrs _ _ hbssid hsrc hdest, headerAddrs, hmode]
      · intro start n outside
        rw [read_outside_addrs _ hbssid hsrc hdest (by omega), setToDs,
          read_setBits16 _ _ (by omega)]
  | master =>
      refine ⟨_, by simp only [txHdrAddrs, hmode]; rfl, ?_, ?_, ?_⟩
      · rw [Mem.readLe16_congr (read_outside_addrs _ hdest hbssid hsrc
          (by omega))]
        exact readLe16_setBits16_self mem _
      · rw [read_three_addrs _ _ hdest hbssid hsrc, headerAddrs, hmode]
      · intro start n outside
        rw [read_outside_addrs _ hdest hbssid hsrc (by omega), setFrDs,
          read_setBits16 _ _ (by omega)]
  | adhoc =>
      refine ⟨_, by simp only [txHdrAddrs, hmode]; rfl, ?_, ?_, ?_⟩
      · rw [Mem.readLe16_congr (read_outside_addrs _ hdest hsrc hbssid
          (by omega))]
        simp [dsBits]
      · rw [read_three_addrs _ _ hdest hsrc hbssid, headerAddrs, hmode]
      · intro start n outside
        rw [read_outside_addrs _ hdest hsrc hbssid (by omega)]
  | other => contradiction

end Addrs

/-! ## The whole header -/

structure Header (nic : TxNic) (frame : XmitFrame) (msdu : List UInt8)
    (seqnum : UInt16) (hdr : Nat) (mem : Mem) : Prop where
  control : mem.readLe16 hdr = frameControl nic.workMode
    (nic.wdn frame.pwdn).qosOption (frame.encryptAlgo ≠ .noPrivacy)
  addrs : mem.read (hdr + 4) 18 = headerAddrs nic msdu
  seqCtrl : mem.readLe16 (hdr + 22) = 0xfff0 &&& seqnum <<< (4 : UInt16)
  qosCtrl : (nic.wdn frame.pwdn).qosOption = true →
    mem.readLe16 (hdr + 24) = frame.priority.toUInt16 &&& 0xf

/-- The station a header is built for is found and is the frame's own. -/
def Addressed (nic : TxNic) (frame : XmitFrame) (msdu : List UInt8) : Prop :=
  nic.workMode ≠ .other ∧
    nic.wdnFindInfo (if isMcast (receiverAddr nic msdu) then bcAddr
      else receiverAddr nic msdu) = some frame.pwdn

theorem readLe16_cleared (mem : Mem) {hdr k : Nat} (inside : k + 2 ≤ 64) :
    (mem.write hdr (List.replicate wlanhdrOffset 0)).readLe16 (hdr + k) = 0 := by
  have bytes : (mem.write hdr (List.replicate wlanhdrOffset 0)).read (hdr + k)
      2 = [0, 0] := by
    rw [Mem.read_write_inside mem (by simpa [wlanhdrOffset] using inside)]
    rw [List.drop_replicate, List.take_replicate]
    have two : min 2 (wlanhdrOffset - k) = 2 := by
      unfold wlanhdrOffset
      omega
    rw [two]
    rfl
  rw [Mem.readLe16_of_read bytes]
  rfl

theorem txHdrQos_spec (frame : XmitFrame) (hdr : Nat) (mem : Mem)
    (hlen : frame.hdrlen = 26) (zero : mem.readLe16 (hdr + 24) = 0) :
    (txHdrQos frame hdr mem).readLe16 (hdr + 24) =
        frame.priority.toUInt16 &&& 0xf ∧
      ∀ start n, (start + n ≤ hdr + 24 ∨ hdr + 26 ≤ start) →
        (txHdrQos frame hdr mem).read start n = mem.read start n := by
  have hqc : hdr + frame.hdrlen - 2 = hdr + 24 := by omega
  unfold txHdrQos setAckpolicy setEOSP setPriority
  rw [hqc]
  constructor
  · simp only [readLe16_setBits16_self]
    by_cases none : frame.priority = 0
    · simp [none, zero]
    · simp [none, zero, readLe16_setBits16_self]
  · intro start n apart
    simp only
    rw [read_setBits16 _ _ (by omega), read_setBits16 _ _ (by omega)]
    by_cases none : frame.priority = 0
    · simp [none]
    · simp only [ne_eq, none, not_false_eq_true, if_true]
      rw [read_setBits16 _ _ (by omega)]

theorem take_headerAddrs {nic : TxNic} {msdu : List UInt8}
    (long : ethHlen ≤ msdu.length) :
    (headerAddrs nic msdu).take 6 = receiverAddr nic msdu := by
  have hdest := length_dest long
  unfold headerAddrs receiverAddr
  cases nic.workMode with
  | infra => exact List.take_left' Vector.length_toList
  | master => exact List.take_left' hdest
  | adhoc => exact List.take_left' hdest
  | other => exact List.take_left' hdest

private def txHdrFlags (frame : XmitFrame) (qosOption : Bool) (hdr : Nat)
    (mem : Mem) : Mem :=
  let mem := if qosOption then setFrameSubType mem hdr 0x0088 else mem
  let mem := if frame.encryptAlgo ≠ .noPrivacy then setPrivacy mem hdr else mem
  if qosOption then txHdrQos frame hdr mem else mem

private theorem frameControl_combine (mode : WorkMode) (qos privacy : Bool) :
    (if qos then ((0x0008 ||| dsBits mode) &&& ~~~(0x00FC : UInt16)) ||| 0x0088
        else 0x0008 ||| dsBits mode) ||| (if privacy then 0x4000 else 0) =
      frameControl mode qos privacy := by
  cases mode <;> cases qos <;> cases privacy <;> rfl

private theorem txHdrFlags_spec (frame : XmitFrame) (qosOption : Bool)
    (mode : WorkMode) (hdr : Nat) (mem : Mem)
    (hlen : qosOption = true → frame.hdrlen = 26)
    (control : mem.readLe16 hdr = 0x0008 ||| dsBits mode)
    (zero : mem.readLe16 (hdr + 24) = 0) :
    (txHdrFlags frame qosOption hdr mem).readLe16 hdr =
        frameControl mode qosOption (frame.encryptAlgo ≠ .noPrivacy) ∧
      (qosOption = true →
        (txHdrFlags frame qosOption hdr mem).readLe16 (hdr + 24) =
          frame.priority.toUInt16 &&& 0xf) ∧
      ∀ start n, (start + n ≤ hdr ∨ hdr + 2 ≤ start) →
        (start + n ≤ hdr + 24 ∨ hdr + 26 ≤ start) →
          (txHdrFlags frame qosOption hdr mem).read start n =
            mem.read start n := by
  -- the subtype and the privacy bit only touch the frame control field
  have typed : ∃ mem1,
      mem1 = (if qosOption then setFrameSubType mem hdr 0x0088 else mem) ∧
        mem1.readLe16 hdr = (if qosOption then
          ((0x0008 ||| dsBits mode) &&& ~~~(0x00FC : UInt16)) ||| 0x0088
            else 0x0008 ||| dsBits mode) ∧
        ∀ start n, (start + n ≤ hdr ∨ hdr + 2 ≤ start) →
          mem1.read start n = mem.read start n := by
    refine ⟨_, rfl, ?_, ?_⟩
    · cases qosOption with
      | false => exact control
      | true =>
          simp only [if_true]
          rw [readLe16_setFrameSubType_self, control]
    · intro start n apart
      cases qosOption with
      | false => rfl
      | true => exact read_setFrameSubType mem _ apart
  obtain ⟨mem1, hmem1, hcontrol1, hread1⟩ := typed
  have guarded : ∃ mem2,
      mem2 = (if frame.encryptAlgo ≠ .noPrivacy then setPrivacy mem1 hdr
        else mem1) ∧
        mem2.readLe16 hdr =
          frameControl mode qosOption (frame.encryptAlgo ≠ .noPrivacy) ∧
        ∀ start n, (start + n ≤ hdr ∨ hdr + 2 ≤ start) →
          mem2.read start n = mem.read start n := by
    refine ⟨_, rfl, ?_, ?_⟩
    · rw [← frameControl_combine, ← hcontrol1]
      by_cases clear : frame.encryptAlgo = .noPrivacy
      · simp [clear]
      · simp [clear, setPrivacy, readLe16_setBits16_self]
    · intro start n apart
      by_cases clear : frame.encryptAlgo = .noPrivacy
      · simpa [clear] using hread1 start n apart
      · simp only [ne_eq, clear, not_false_eq_true, if_true, setPrivacy]
        rw [read_setBits16 _ _ apart, hread1 start n apart]
  obtain ⟨mem2, hmem2, hcontrol2, hread2⟩ := guarded
  have hflags : txHdrFlags frame qosOption hdr mem =
      if qosOption then txHdrQos frame hdr mem2 else mem2 := by
    rw [hmem2, hmem1]
    rfl
  rw [hflags]
  cases qosOption with
  | false =>
      refine ⟨hcontrol2, by simp, ?_⟩
      intro start n apart _
      exact hread2 start n apart
  | true =>
      have hzero : mem2.readLe16 (hdr + 24) = 0 := by
        rw [Mem.readLe16_congr (hread2 (hdr + 24) 2 (by omega)), zero]
      have hqos := txHdrQos_spec frame hdr mem2 (hlen rfl) hzero
      refine ⟨?_, fun _ => hqos.1, ?_⟩
      · rw [if_pos rfl, Mem.readLe16_congr (hqos.2 hdr 2 (by omega)), hcontrol2]
      · intro start n apart apart'
        rw [if_pos rfl, hqos.2 start n apart', hread2 start n apart]

def SameNic (nic nic' : TxNic) : Prop :=
  (∃ wdn, nic' = { nic with wdn }) ∧
    ∀ id, (nic'.wdn id).qosOption = (nic.wdn id).qosOption

theorem SameNic.refl (nic : TxNic) : SameNic nic nic :=
  ⟨⟨nic.wdn, rfl⟩, fun _ => rfl⟩

theorem SameNic.symm {nic nic' : TxNic} (h : SameNic nic nic') :
    SameNic nic' nic := by
  obtain ⟨⟨wdn, rfl⟩, hqos⟩ := h
  exact ⟨⟨nic.wdn, rfl⟩, fun id => (hqos id).symm⟩

theorem SameNic.trans {first second third : TxNic}
    (h : SameNic first second) (h' : SameNic second third) :
    SameNic first third := by
  obtain ⟨⟨wdn, rfl⟩, hqos⟩ := h
  obtain ⟨⟨wdn', rfl⟩, hqos'⟩ := h'
  exact ⟨⟨wdn', rfl⟩, fun id => (hqos' id).trans (hqos id)⟩

private theorem sameNic_update (nic : TxNic) (id : Nat) {wdn : WdnNetInfo}
    (same : wdn.qosOption = (nic.wdn id).qosOption) :
    SameNic nic { nic with wdn := Function.update nic.wdn id wdn } := by
  refine ⟨⟨_, rfl⟩, ?_⟩
  intro other
  by_cases hid : other = id
  · subst other
    simpa using same
  · simp [hid]

/-- The update moves the block-ack start of the frame's station, or nothing. -/
theorem txAmpduUpdate_cases (nic : TxNic) (frame : XmitFrame) :
    ((txAmpduUpdate nic frame).1 = nic ∨
      ∃ baStartingSeqctrl, (txAmpduUpdate nic frame).1 = { nic with
        wdn := Function.update nic.wdn frame.pwdn
          { nic.wdn frame.pwdn with baStartingSeqctrl } }) ∧
      ∃ ampduEn, (txAmpduUpdate nic frame).2 = { frame with ampduEn } := by
  unfold txAmpduUpdate
  by_cases support : nic.dot80211nSupport = true
  · simp only [if_pos support]
    generalize hmarked :
      (if ((nic.wdn frame.pwdn).htEnable && (nic.wdn frame.pwdn).ampduEnable &&
          ((nic.wdn frame.pwdn).aggEnableBitmap &&&
            (1 : UInt32) <<< frame.priority.toUInt32) != 0) = true then
        { frame with ampduEn := true } else frame) = marked
    have same : ∃ ampduEn, marked = { frame with ampduEn } := by
      rw [← hmarked]
      split
      · exact ⟨true, rfl⟩
      · exact ⟨frame.ampduEn, rfl⟩
    obtain ⟨ampduEn, rfl⟩ := same
    split
    · split
      · exact ⟨.inl rfl, _, rfl⟩
      · split
        · exact ⟨.inr ⟨_, rfl⟩, _, rfl⟩
        · exact ⟨.inr ⟨_, rfl⟩, _, rfl⟩
    · exact ⟨.inl rfl, _, rfl⟩
  · rw [if_neg support]
    exact ⟨.inl rfl, _, rfl⟩

theorem txAmpduUpdate_same (nic : TxNic) (frame : XmitFrame) :
    SameNic nic (txAmpduUpdate nic frame).1 ∧
      ∃ ampduEn, (txAmpduUpdate nic frame).2 = { frame with ampduEn } := by
  obtain ⟨hnic, hframe⟩ := txAmpduUpdate_cases nic frame
  refine ⟨?_, hframe⟩
  obtain kept | ⟨baStartingSeqctrl, moved⟩ := hnic
  · rw [kept]
    exact SameNic.refl nic
  · rw [moved]
    apply sameNic_update
    rfl

/-- The number that the next frame of the station and TID gets. -/
def nextSeqnum (nic : TxNic) (frame : XmitFrame) : UInt16 :=
  ((nic.wdn frame.pwdn).txseqTid frame.priority + 1) &&& 0xFFF

/-- The counter of the frame's station and TID stands at the frame's number. -/
def numbered (nic : TxNic) (frame : XmitFrame) : TxNic := { nic with
  wdn := Function.update nic.wdn frame.pwdn { nic.wdn frame.pwdn with
    txseqTid := Function.update (nic.wdn frame.pwdn).txseqTid frame.priority
      (nextSeqnum nic frame) } }

theorem numbered_same (nic : TxNic) (frame : XmitFrame) :
    SameNic nic (numbered nic frame) := by
  apply sameNic_update
  rfl

theorem txMacHdrBuild_cases {nic nic' : TxNic} {frame built : XmitFrame}
    {msdu : List UInt8} {hdr : Nat} {mem mem' : Mem}
    (h : txMacHdrBuild nic frame msdu hdr mem = some (nic', built, mem')) :
    (∃ placed, txHdrAddrs nic msdu hdr
        (setFrameSubType (mem.write hdr (List.replicate wlanhdrOffset 0)) hdr
          0x0008) = some placed ∧
      nic.wdnFindInfo (if isMcast (getAddr1 placed hdr) then bcAddr
        else getAddr1 placed hdr) = some frame.pwdn) ∧
      txAmpduUpdate (numbered nic frame)
        { frame with seqnum := nextSeqnum nic frame } = (nic', built) := by
  unfold txMacHdrBuild at h
  simp only [Option.bind_eq_bind, Option.bind_eq_some_iff] at h
  obtain ⟨placed, hplaced, pwdn, found, h⟩ := h
  by_cases own : frame.pwdn = pwdn
  · subst own
    rw [if_neg (not_not.mpr rfl), Option.some.injEq, Prod.mk.injEq,
      Prod.mk.injEq] at h
    obtain ⟨rfl, rfl, -⟩ := h
    exact ⟨⟨placed, hplaced, found⟩, rfl⟩
  · rw [if_pos own] at h
    contradiction

private theorem getAddr1_placed {nic : TxNic} {msdu : List UInt8} {hdr : Nat}
    {placed : Mem} (long : ethHlen ≤ msdu.length)
    (hread : placed.read (hdr + 4) 18 = headerAddrs nic msdu) :
    getAddr1 placed hdr = receiverAddr nic msdu := by
  rw [← take_headerAddrs long, ← hread, Mem.take_read _ _ (by omega)]
  rfl

theorem txMacHdrBuild_spec {nic : TxNic} {frame : XmitFrame}
    {msdu : List UInt8} (hdr : Nat) (mem : Mem)
    (long : ethHlen ≤ msdu.length) (addressed : Addressed nic frame msdu)
    (hlen : (nic.wdn frame.pwdn).qosOption = true → frame.hdrlen = 26) :
    ∃ nic' seqnum ampduEn mem',
      txMacHdrBuild nic frame msdu hdr mem =
          some (nic', { frame with seqnum, ampduEn }, mem') ∧
        SameNic nic nic' ∧ Header nic frame msdu seqnum hdr mem' ∧
        ∀ start n, (start + n ≤ hdr ∨ hdr + 64 ≤ start) →
          mem'.read start n = mem.read start n := by
  obtain ⟨mode, found⟩ := addressed
  let cleared := mem.write hdr (List.replicate wlanhdrOffset 0)
  let typed := setFrameSubType cleared hdr 0x0008
  have hclear : ∀ start n, (start + n ≤ hdr ∨ hdr + 64 ≤ start) →
      typed.read start n = mem.read start n := by
    intro start n outside
    rw [read_setFrameSubType _ _ (by omega), Mem.read_write_apart _
      (by simp [wlanhdrOffset]; omega)]
  have hzero : ∀ k, 2 ≤ k → k + 2 ≤ 64 → typed.readLe16 (hdr + k) = 0 := by
    intro k low high
    rw [Mem.readLe16_congr (read_setFrameSubType _ _ (by omega)),
      readLe16_cleared mem high]
  have hcontrol : typed.readLe16 hdr = 0x0008 := by
    have first : cleared.readLe16 (hdr + 0) = 0 :=
      readLe16_cleared mem (by omega)
    rw [Nat.add_zero] at first
    rw [readLe16_setFrameSubType_self, first]
    rfl
  have haddrs := @txHdrAddrs_spec nic msdu hdr typed long mode
  obtain ⟨placed, hplaced, hcontrol', hread, houtside⟩ := haddrs
  have haddr1 := getAddr1_placed long hread
  have hflags := txHdrFlags_spec frame (nic.wdn frame.pwdn).qosOption
    nic.workMode hdr placed hlen (by rw [hcontrol', hcontrol])
    (by
      rw [Mem.readLe16_congr (houtside (hdr + 24) 2 (by omega))]
      exact hzero 24 (by omega) (by omega))
  let flagged := txHdrFlags frame (nic.wdn frame.pwdn).qosOption hdr placed
  let seqnum := nextSeqnum nic frame
  obtain ⟨hsame, ampduEn, hframe⟩ :=
    txAmpduUpdate_same (numbered nic frame) { frame with seqnum }
  refine ⟨(txAmpduUpdate (numbered nic frame) { frame with seqnum }).1, seqnum,
    ampduEn, setSeqNum flagged hdr seqnum, ?_, ?_, ?_, ?_⟩
  · have hbuild : txMacHdrBuild nic frame msdu hdr mem =
        some ((txAmpduUpdate (numbered nic frame) { frame with seqnum }).1,
          (txAmpduUpdate (numbered nic frame) { frame with seqnum }).2,
          setSeqNum flagged hdr seqnum) := by
      unfold txMacHdrBuild
      simp only [typed, cleared] at hplaced
      simp only [hplaced, Option.bind_eq_bind, Option.bind_some, haddr1, found,
        ne_eq, not_true_eq_false, if_false]
      rfl
    rw [hbuild, hframe]
  · exact SameNic.trans (numbered_same nic frame) hsame
  · constructor
    · rw [readLe16_setSeqNum _ _ (by omega)]
      exact hflags.1
    · rw [read_setSeqNum _ _ (by omega), hflags.2.2 _ _ (by omega) (by omega)]
      exact hread
    · have hseq : flagged.readLe16 (hdr + 22) = 0 := by
        rw [Mem.readLe16_congr (hflags.2.2 (hdr + 22) 2 (by omega) (by omega)),
          Mem.readLe16_congr (houtside (hdr + 22) 2 (by omega))]
        exact hzero 22 (by omega) (by omega)
      rw [readLe16_setSeqNum_self, hseq]
      simp
    · intro qos
      rw [readLe16_setSeqNum _ _ (by omega)]
      exact hflags.2.1 qos
  · intro start n outside
    rw [read_setSeqNum _ _ (by omega), hflags.2.2 _ _ (by omega) (by omega),
      houtside _ _ (by omega), hclear _ _ outside]

theorem txMacHdrBuild_same {nic nic' : TxNic} {frame built : XmitFrame}
    {msdu : List UInt8} {hdr : Nat} {mem mem' : Mem}
    (h : txMacHdrBuild nic frame msdu hdr mem = some (nic', built, mem')) :
    SameNic nic nic' ∧
      ∃ seqnum ampduEn, built = { frame with seqnum, ampduEn } := by
  obtain ⟨-, updated⟩ := txMacHdrBuild_cases h
  obtain ⟨hsame, ampduEn, hframe⟩ := txAmpduUpdate_same (numbered nic frame)
    { frame with seqnum := nextSeqnum nic frame }
  rw [updated] at hsame hframe
  exact ⟨SameNic.trans (numbered_same nic frame) hsame, _, ampduEn, hframe⟩

theorem txMacHdrBuild_addressed {nic : TxNic} {frame : XmitFrame}
    {msdu : List UInt8} {hdr : Nat} {mem : Mem}
    {result : TxNic × XmitFrame × Mem} (long : ethHlen ≤ msdu.length)
    (h : txMacHdrBuild nic frame msdu hdr mem = some result) :
    Addressed nic frame msdu := by
  obtain ⟨⟨placed, hplaced, found⟩, -⟩ := txMacHdrBuild_cases h
  have mode : nic.workMode ≠ .other := by
    intro other
    rw [txHdrAddrs, other] at hplaced
    contradiction
  obtain ⟨mem', hmem', -, hread, -⟩ := @txHdrAddrs_spec nic msdu hdr
    (setFrameSubType (mem.write hdr (List.replicate wlanhdrOffset 0)) hdr
      0x0008) long mode
  rw [hplaced, Option.some.injEq] at hmem'
  subst mem'
  rw [getAddr1_placed long hread] at found
  exact ⟨mode, found⟩

theorem txMacHdrBuild_header {nic nic' : TxNic} {frame built : XmitFrame}
    {msdu : List UInt8} {hdr : Nat} {mem mem' : Mem}
    (long : ethHlen ≤ msdu.length)
    (hlen : (nic.wdn frame.pwdn).qosOption = true → frame.hdrlen = 26)
    (h : txMacHdrBuild nic frame msdu hdr mem = some (nic', built, mem')) :
    Header nic frame msdu built.seqnum hdr mem' := by
  have addressed := txMacHdrBuild_addressed long h
  obtain ⟨_, seqnum, ampduEn, _, hbuild, -, header, -⟩ :=
    txMacHdrBuild_spec hdr mem long addressed hlen
  rw [h, Option.some.injEq, Prod.mk.injEq, Prod.mk.injEq] at hbuild
  obtain ⟨-, rfl, rfl⟩ := hbuild
  exact header

end Smartchip.Tx
