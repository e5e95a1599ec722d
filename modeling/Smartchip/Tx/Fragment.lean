import Smartchip.Tx.Header

/-!
# Fragments of an MSDU

The loop of `wf_tx_msdu_to_mpdu`: what one pass writes, when one fragment is
enough, and what the headers of several fragments hold.
-/

namespace Smartchip.Tx

open Smartchip.Foundation Smartchip.Frame Smartchip.Sec

/-! ## Frames from `wf_xmit_frame_init` -/

def txIvLen : EncryptAlgo → Nat
  | .wep40 | .wep104 => 4
  | .tkip | .aes => 8
  | _ => 0

def txIcvLen : EncryptAlgo → Nat
  | .wep40 | .wep104 | .tkip => 4
  | .aes => 8
  | _ => 0

/-- What `wf_xmit_frame_init` leaves in the frame of an MSDU. -/
structure Prepared (nic : TxNic) (frame : XmitFrame) (msdu : List UInt8) :
    Prop where
  long : ethHlen ≤ msdu.length
  hdrlen : frame.hdrlen =
    if (nic.wdn frame.pwdn).qosOption then 26 else 24
  pktHdrlen : frame.pktHdrlen = ethHlen
  etherType : be16 frame.etherType = (msdu.drop 12).take 2
  bmcast : frame.bmcast = isMcast (receiverAddr nic msdu)
  ivLen : frame.ivLen = txIvLen frame.encryptAlgo
  icvLen : frame.icvLen = txIcvLen frame.encryptAlgo
  bswenc : frame.bswenc = decide (frame.encryptAlgo ≠ .aes)
  iv : frame.ivLen ≤ frame.iv.length

def XmitFrame.overhead (frame : XmitFrame) : Nat :=
  frame.hdrlen + frame.ivLen + 8 + frame.swIcvLen

def XmitFrame.wholeLen (frame : XmitFrame) (msdu : List UInt8) : Nat :=
  frame.overhead + (msdu.length - ethHlen)

def XmitFrame.micLen (frame : XmitFrame) : Nat :=
  if frame.encryptAlgo = .tkip then 8 else 0

theorem Prepared.hdrlen_ge {nic : TxNic} {frame : XmitFrame}
    {msdu : List UInt8} (prepared : Prepared nic frame msdu) :
    24 ≤ frame.hdrlen ∧ frame.hdrlen ≤ 26 := by
  rw [prepared.hdrlen]
  split
  · omega
  · omega

theorem Prepared.qosLen {nic : TxNic} {frame : XmitFrame} {msdu : List UInt8}
    (prepared : Prepared nic frame msdu)
    (qos : (nic.wdn frame.pwdn).qosOption = true) : frame.hdrlen = 26 := by
  rw [prepared.hdrlen, if_pos qos]

theorem wfRnd4_spec (x : Nat) :
    x ≤ wfRnd4 x ∧ wfRnd4 x < x + 4 ∧ wfRnd4 x % 4 = 0 := by
  unfold wfRnd4
  split
  · omega
  · omega

theorem swIcvLen_eq (frame : XmitFrame) :
    frame.swIcvLen = if frame.bswenc then frame.icvLen else 0 := by
  unfold XmitFrame.swIcvLen
  cases frame.bswenc with
  | false => simp
  | true =>
      by_cases none : frame.icvLen = 0
      · simp [none]
      · simp [none]

/-! ## One fragment -/

section Head

variable (nic : TxNic) (frame : XmitFrame) (cursor : MpduCursor)

def llcSize (frgInx : Nat) : Nat := if frgInx = 0 then 8 else 0

theorem length_snapHeader (hProto : UInt16) : (snapHeader hProto).length = 8 :=
  rfl

theorem fragmentHead_llc :
    (fragmentHead nic frame cursor).2.2.2 = llcSize cursor.frgInx := by
  unfold fragmentHead llcSize txSetSnap
  by_cases first : cursor.frgInx = 0
  · simp [first]
  · simp [first]

theorem fragmentHead_pframe :
    (fragmentHead nic frame cursor).2.1 =
      cursor.memStart + frame.hdrlen + frame.ivLen + llcSize cursor.frgInx := by
  rw [← fragmentHead_llc nic frame cursor]
  rfl

theorem fragmentHead_room :
    (fragmentHead nic frame cursor).2.2.1 =
      (nic.fragThresh.toNat : Int) - frame.hdrlen - frame.ivLen -
        llcSize cursor.frgInx - frame.swIcvLen := by
  rw [← fragmentHead_llc nic frame cursor]
  unfold fragmentHead XmitFrame.swIcvLen
  by_cases soft : frame.icvLen ≠ 0 ∧ frame.bswenc = true
  · simp only [if_pos soft]
  · simp only [if_neg soft]
    omega

theorem fragmentHead_mem :
    (fragmentHead nic frame cursor).1 =
      ((setMFrag cursor.mem cursor.memStart).write
        (cursor.memStart + frame.hdrlen) (frame.iv.take frame.ivLen)).write
          (cursor.memStart + frame.hdrlen + frame.ivLen)
          (if cursor.frgInx = 0 then snapHeader frame.etherType else []) := by
  unfold fragmentHead txSetSnap
  by_cases first : cursor.frgInx = 0
  · by_cases iv : frame.ivLen = 0
    · simp [first, iv]
    · simp [first, iv]
  · by_cases iv : frame.ivLen = 0
    · simp [first, iv]
    · simp [first, iv]

end Head

section Fill

variable {nic : TxNic} {frame : XmitFrame} {msdu : List UInt8}
  {cursor : MpduCursor} {fragment : Fragment}

theorem fillFragment_cases (h : fillFragment nic frame msdu cursor = some fragment) :
    ∃ bytes,
      fragmentBody frame msdu (fragmentHead nic frame cursor).2.2.1
          cursor.msduOffset = some (bytes, fragment.memSz, fragment.msduOffset) ∧
        fragment.mem = (fragmentHead nic frame cursor).1.write
          (cursor.memStart + frame.hdrlen + frame.ivLen +
            llcSize cursor.frgInx) bytes ∧
        fragment.pframe = cursor.memStart + frame.hdrlen + frame.ivLen +
          llcSize cursor.frgInx + fragment.memSz + frame.swIcvLen ∧
        fragment.llcSz = llcSize cursor.frgInx := by
  unfold fillFragment at h
  simp only [Option.bind_eq_bind, Option.bind_eq_some_iff, Option.some.injEq]
    at h
  obtain ⟨⟨bytes, memSz, offset⟩, hbody, rfl⟩ := h
  refine ⟨bytes, hbody, ?_, ?_, ?_⟩
  · rw [fragmentHead_pframe]
  · rw [fragmentHead_pframe]
  · rw [fragmentHead_llc]

theorem fillFragment_of_body {body : List UInt8 × Nat × Nat}
    (h : fragmentBody frame msdu (fragmentHead nic frame cursor).2.2.1
      cursor.msduOffset = some body) :
    ∃ fragment, fillFragment nic frame msdu cursor = some fragment ∧
      fragment.memSz = body.2.1 ∧ fragment.msduOffset = body.2.2 := by
  unfold fillFragment
  simp only [h, Option.bind_eq_bind, Option.bind_some, Option.some.injEq]
  exact ⟨_, rfl, rfl, rfl⟩

theorem fillFragment_read (h : fillFragment nic frame msdu cursor = some fragment)
    {start n : Nat} (outside : start + n ≤ cursor.memStart ∨
      cursor.memStart + 2 ≤ start ∧ start + n ≤ cursor.memStart + frame.hdrlen) :
    fragment.mem.read start n = cursor.mem.read start n := by
  obtain ⟨bytes, -, hmem, -, -⟩ := fillFragment_cases h
  rw [hmem, fragmentHead_mem, Mem.read_write_apart _ (by omega),
    Mem.read_write_apart _ (by omega), Mem.read_write_apart _ (by omega),
    setMFrag, read_setBits16 _ _ (by omega)]

theorem fillFragment_control
    (h : fillFragment nic frame msdu cursor = some fragment)
    (hlen : 2 ≤ frame.hdrlen) :
    fragment.mem.readLe16 cursor.memStart =
      cursor.mem.readLe16 cursor.memStart ||| 0x0400 := by
  obtain ⟨bytes, -, hmem, -, -⟩ := fillFragment_cases h
  rw [hmem, fragmentHead_mem, Mem.readLe16_write_apart _ (by omega),
    Mem.readLe16_write_apart _ (by omega), Mem.readLe16_write_apart _ (by omega),
    setMFrag, readLe16_setBits16_self]

end Fill

/-! ## The loop -/

section Loop

variable {nic : TxNic} {frame frame' : XmitFrame} {msdu : List UInt8}
  {hdr fuel : Nat} {cursor cursor' : MpduCursor}

theorem mpduLoop_cases
    (h : mpduLoop nic frame msdu hdr (fuel + 1) cursor = some (frame', cursor')) :
    ∃ fragment, fillFragment nic frame msdu cursor = some fragment ∧
      ((frame.bmcast = true ∨ fragment.msduOffset = msdu.length) ∧
          (frame', cursor') = lastFragment frame cursor fragment ∨
        frame.bmcast = false ∧ fragment.msduOffset ≠ msdu.length ∧
          mpduLoop nic frame msdu hdr fuel
            (nextFragment nic frame hdr cursor fragment) =
              some (frame', cursor')) := by
  rw [mpduLoop] at h
  simp only [Option.bind_eq_bind, Option.bind_eq_some_iff] at h
  obtain ⟨fragment, hfill, h⟩ := h
  refine ⟨fragment, hfill, ?_⟩
  by_cases last : frame.bmcast = true ∨ fragment.msduOffset = msdu.length
  · rw [if_pos last, Option.some.injEq] at h
    exact .inl ⟨last, h.symm⟩
  · rw [if_neg last] at h
    rw [not_or, Bool.not_eq_true] at last
    exact .inr ⟨last.1, last.2, h⟩

theorem fillFragment_returns (room : frame.overhead < nic.fragThresh.toNat)
    (inside : cursor.msduOffset ≤ msdu.length) :
    ∃ fragment, fillFragment nic frame msdu cursor = some fragment ∧
      (frame.bmcast = false → fragment.msduOffset ≠ msdu.length →
        cursor.msduOffset < fragment.msduOffset ∧
          fragment.msduOffset ≤ msdu.length) := by
  have hroom := fragmentHead_room nic frame cursor
  have hllc : llcSize cursor.frgInx ≤ 8 := by
    unfold llcSize
    split
    · omega
    · omega
  unfold XmitFrame.overhead at room
  generalize hmpdu : (fragmentHead nic frame cursor).2.2.1 = mpduLen at hroom
  have hbody : ∃ body, fragmentBody frame msdu mpduLen cursor.msduOffset =
        some body ∧ (frame.bmcast = false → body.2.2 ≠ msdu.length →
          cursor.msduOffset < body.2.2 ∧ body.2.2 ≤ msdu.length) := by
    unfold fragmentBody
    cases hcast : frame.bmcast with
    | true =>
        rw [if_pos rfl, if_neg (by omega)]
        exact ⟨_, rfl, by simp⟩
    | false =>
        rw [if_neg (by simp)]
        by_cases less : mpduLen < (msdu.length : Int) - cursor.msduOffset
        · simp only [if_pos less]
          rw [if_neg (by omega)]
          refine ⟨_, rfl, ?_⟩
          intro _ _
          constructor
          · simp only
            omega
          · simp only
            omega
        · simp only [if_neg less]
          rw [if_neg (by omega)]
          refine ⟨_, rfl, ?_⟩
          intro _ more
          simp only at more
          omega
  obtain ⟨body, hbody, hmoves⟩ := hbody
  rw [← hmpdu] at hbody
  obtain ⟨fragment, hfill, -, hoffset⟩ := fillFragment_of_body hbody
  rw [← hoffset] at hmoves
  exact ⟨fragment, hfill, hmoves⟩

theorem mpduLoop_returns (room : frame.overhead < nic.fragThresh.toNat)
    (inside : cursor.msduOffset ≤ msdu.length)
    (enough : msdu.length - cursor.msduOffset < fuel) :
    ∃ result, mpduLoop nic frame msdu hdr fuel cursor = some result := by
  induction fuel generalizing cursor with
  | zero => omega
  | succ fuel ih =>
      obtain ⟨fragment, hfill, hmoves⟩ := fillFragment_returns room inside
      rw [mpduLoop]
      simp only [hfill, Option.bind_eq_bind, Option.bind_some]
      by_cases last : frame.bmcast = true ∨ fragment.msduOffset = msdu.length
      · exact ⟨_, if_pos last⟩
      · rw [if_neg last]
        rw [not_or, Bool.not_eq_true] at last
        have moved := hmoves last.1 last.2
        apply ih
        · exact moved.2
        · simp only [nextFragment]
          omega

end Loop

/-! ## MSDUs that are sent whole -/

section Whole

variable {nic nic' : TxNic} {frame : XmitFrame} {msdu : List UInt8}
  {mem mem' : Mem} {hdr : Nat}

def SameFrame (frame split : XmitFrame) : Prop :=
  ∃ seqnum ampduEn nrFrags lastTxcmdsz,
    split = { frame with seqnum, ampduEn, nrFrags, lastTxcmdsz }

theorem SameFrame.symm {split : XmitFrame} (h : SameFrame frame split) :
    SameFrame split frame := by
  obtain ⟨seqnum, ampduEn, nrFrags, lastTxcmdsz, rfl⟩ := h
  exact ⟨frame.seqnum, frame.ampduEn, frame.nrFrags, frame.lastTxcmdsz, rfl⟩

theorem SameFrame.lengths {split : XmitFrame} (h : SameFrame frame split) :
    split.overhead = frame.overhead ∧ split.wholeLen msdu = frame.wholeLen msdu ∧
      split.bmcast = frame.bmcast ∧ split.hdrlen = frame.hdrlen ∧
      split.bufAddr = frame.bufAddr := by
  obtain ⟨seqnum, ampduEn, nrFrags, lastTxcmdsz, rfl⟩ := h
  exact ⟨rfl, rfl, rfl, rfl, rfl⟩

theorem Prepared.swIcvLen_tkip (prepared : Prepared nic frame msdu)
    (tkip : frame.encryptAlgo = .tkip) : frame.swIcvLen = frame.icvLen := by
  rw [swIcvLen_eq, prepared.bswenc, tkip]
  rfl

theorem Prepared.same {split : XmitFrame} (prepared : Prepared nic frame msdu)
    (same : SameNic nic nic') (kept : SameFrame frame split) :
    Prepared nic' split msdu := by
  obtain ⟨⟨wdn, rfl⟩, hqos⟩ := same
  obtain ⟨seqnum, ampduEn, nrFrags, lastTxcmdsz, rfl⟩ := kept
  refine ⟨prepared.long, ?_, prepared.pktHdrlen, prepared.etherType,
    prepared.bmcast, prepared.ivLen, prepared.icvLen, prepared.bswenc,
    prepared.iv⟩
  rw [hqos]
  exact prepared.hdrlen

theorem Header.congr {seqnum : UInt16} (h : Header nic frame msdu seqnum hdr mem)
    (control : mem'.readLe16 hdr = mem.readLe16 hdr)
    (rest : ∀ start n, hdr + 2 ≤ start → start + n ≤ hdr + frame.hdrlen →
      mem'.read start n = mem.read start n)
    (prepared : Prepared nic frame msdu) :
    Header nic frame msdu seqnum hdr mem' := by
  have hlen := prepared.hdrlen_ge
  constructor
  · rw [control, h.control]
  · rw [rest _ _ (by omega) (by omega), h.addrs]
  · rw [Mem.readLe16_congr (rest (hdr + 22) 2 (by omega) (by omega)), h.seqCtrl]
  · intro qos
    have qosLen := prepared.qosLen qos
    rw [Mem.readLe16_congr (rest (hdr + 24) 2 (by omega) (by omega)),
      h.qosCtrl qos]

theorem frameControl_clear (mode : WorkMode) (qosOption privacy : Bool) :
    (frameControl mode qosOption privacy ||| 0x0400) &&& ~~~(0x0400 : UInt16) =
      frameControl mode qosOption privacy := by
  cases mode <;> cases qosOption <;> cases privacy <;> rfl

theorem fragmentBody_whole (prepared : Prepared nic frame msdu)
    (fits : frame.bmcast = true ∨
      frame.wholeLen msdu ≤ nic.fragThresh.toNat) {mpduLen : Int}
    (room : mpduLen = (nic.fragThresh.toNat : Int) - frame.overhead) :
    ∃ offset, fragmentBody frame msdu mpduLen ethHlen =
        some (msdu.drop ethHlen, msdu.length - ethHlen, offset) ∧
      (frame.bmcast = true ∨ offset = msdu.length) := by
  have long := prepared.long
  unfold fragmentBody
  cases hcast : frame.bmcast with
  | true =>
      rw [if_pos rfl, if_neg (by omega)]
      exact ⟨_, rfl, .inl rfl⟩
  | false =>
      have fits := fits.resolve_left (by simp [hcast])
      unfold XmitFrame.wholeLen at fits
      have whole : ¬ mpduLen < (msdu.length : Int) - ethHlen := by omega
      have count : ((msdu.length : Int) - ethHlen).toNat =
          msdu.length - ethHlen := by omega
      simp only [if_neg whole]
      rw [if_neg (by simp), if_neg (by omega), prepared.pktHdrlen, count,
        List.take_of_length_le (by rw [List.length_drop])]
      exact ⟨_, rfl, .inr (by omega)⟩

theorem mpduLoop_whole (prepared : Prepared nic frame msdu)
    (fits : frame.bmcast = true ∨
      frame.wholeLen msdu ≤ nic.fragThresh.toNat) (fuel : Nat) :
    ∃ fragment,
      fillFragment nic frame msdu (MpduCursor.start mem hdr) = some fragment ∧
        mpduLoop nic frame msdu hdr (fuel + 1) (MpduCursor.start mem hdr) =
          some (lastFragment frame (MpduCursor.start mem hdr) fragment) ∧
        fragment.memSz = msdu.length - ethHlen ∧
        fragment.mem.read (hdr + frame.hdrlen)
            (frame.ivLen + (8 + (msdu.length - ethHlen))) =
          frame.iv.take frame.ivLen ++
            (snapHeader frame.etherType ++ msdu.drop ethHlen) := by
  have hroom := fragmentHead_room nic frame (MpduCursor.start mem hdr)
  have hoverhead : (fragmentHead nic frame (MpduCursor.start mem hdr)).2.2.1 =
      (nic.fragThresh.toNat : Int) - frame.overhead := by
    rw [hroom]
    simp only [XmitFrame.overhead, MpduCursor.start, llcSize, if_true]
    omega
  obtain ⟨offset, hbody, last⟩ := fragmentBody_whole prepared fits hoverhead
  have hbody' : fragmentBody frame msdu
      (fragmentHead nic frame (MpduCursor.start mem hdr)).2.2.1
      (MpduCursor.start mem hdr).msduOffset =
        some (msdu.drop ethHlen, msdu.length - ethHlen, offset) := hbody
  obtain ⟨fragment, hfill, -, rfl⟩ := fillFragment_of_body hbody'
  obtain ⟨bytes, hbytes, hmem, -, -⟩ := fillFragment_cases hfill
  rw [hbody', Option.some.injEq, Prod.mk.injEq, Prod.mk.injEq] at hbytes
  obtain ⟨rfl, hsize, -⟩ := hbytes
  refine ⟨fragment, hfill, ?_, hsize.symm, ?_⟩
  · rw [mpduLoop]
    simp only [hfill, Option.bind_eq_bind, Option.bind_some]
    exact if_pos last
  · have hiv : (frame.iv.take frame.ivLen).length = frame.ivLen := by
      rw [List.length_take]
      exact Nat.min_eq_left prepared.iv
    have hsnap := length_snapHeader frame.etherType
    rw [fragmentHead_mem] at hmem
    simp only [MpduCursor.start, llcSize, if_true] at hmem
    rw [Mem.read_add, Mem.read_add, hmem]
    congr 1
    · rw [Mem.read_write_apart _ (by omega), Mem.read_write_apart _ (by omega)]
      have self := Mem.read_write_self (setMFrag mem hdr) (hdr + frame.hdrlen)
        (frame.iv.take frame.ivLen)
      rw [hiv] at self
      exact self
    · congr 1
      · rw [Mem.read_write_apart _ (by omega)]
        exact Mem.read_write_self _ _ _
      · have self := Mem.read_write_self
          (((setMFrag mem hdr).write (hdr + frame.hdrlen)
            (frame.iv.take frame.ivLen)).write
              (hdr + frame.hdrlen + frame.ivLen) (snapHeader frame.etherType))
          (hdr + frame.hdrlen + frame.ivLen + 8) (msdu.drop ethHlen)
        rw [List.length_drop] at self
        exact self

theorem Header.same {seqnum : UInt16} {split : XmitFrame}
    (header : Header nic frame msdu seqnum hdr mem) (same : SameNic nic nic')
    (kept : SameFrame frame split) :
    Header nic' split msdu seqnum hdr mem := by
  obtain ⟨⟨wdn, rfl⟩, hqos⟩ := same
  obtain ⟨-, -, -, -, rfl⟩ := kept
  have hqos := hqos frame.pwdn
  constructor
  · rw [header.control, ← hqos]
  · exact header.addrs
  · exact header.seqCtrl
  · intro qos
    exact header.qosCtrl (hqos.symm.trans qos)

theorem mpduLoop_wholeMpdu {seqnum : UInt16}
    (header : Header nic frame msdu seqnum hdr mem)
    (prepared : Prepared nic frame msdu)
    (fits : frame.bmcast = true ∨
      frame.wholeLen msdu ≤ nic.fragThresh.toNat) (fuel : Nat) :
    ∃ offset mem',
      mpduLoop nic frame msdu hdr (fuel + 1) (MpduCursor.start mem hdr) =
          some ({ frame with
              nrFrags := 1
              lastTxcmdsz := frame.wholeLen msdu },
            { mem := mem', memStart := hdr, frgInx := 1, msduOffset := offset,
              written := [(hdr, frame.wholeLen msdu)] }) ∧
        Header nic frame msdu seqnum hdr mem' ∧
        mem'.read (hdr + frame.hdrlen)
            (frame.ivLen + (8 + (msdu.length - ethHlen))) =
          frame.iv.take frame.ivLen ++
            (snapHeader frame.etherType ++ msdu.drop ethHlen) := by
  have hlen := prepared.hdrlen_ge
  obtain ⟨fragment, hfill, hloop, hsize, hbody⟩ :=
    @mpduLoop_whole nic frame msdu mem hdr prepared fits fuel
  obtain ⟨-, -, -, hpframe, hllc⟩ := fillFragment_cases hfill
  refine ⟨fragment.msduOffset, clearMFrag fragment.mem hdr, ?_, ?_, ?_⟩
  · rw [hloop, lastFragment, MpduCursor.record, hpframe, hllc, hsize,
      ← swIcvLen_eq]
    simp only [MpduCursor.start, llcSize, if_true, List.nil_append,
      XmitFrame.wholeLen, XmitFrame.overhead]
    congr 3
    · omega
    · congr 3
      omega
  · apply header.congr _ _ prepared
    · rw [clearMFrag, readLe16_clearBits16_self]
      rw [show fragment.mem.readLe16 hdr = mem.readLe16 hdr ||| 0x0400 from
        fillFragment_control hfill (by omega), header.control,
        frameControl_clear]
    · intro start n low high
      rw [clearMFrag, read_clearBits16 _ _ (by omega)]
      exact fillFragment_read hfill (.inr ⟨low, high⟩)
  · rw [clearMFrag, read_clearBits16 _ _ (by omega), hbody]

end Whole

/-! ## The MIC -/

section Mic

variable {nic : TxNic} {frame frame' : XmitFrame} {mem mem' : Mem}

/-- `frame_txp_addmic` finds a key that is not all zero. -/
def MicKeyed (nic : TxNic) (frame : XmitFrame) : Prop :=
  frame.encryptAlgo = .tkip →
    (txMicKey nic frame).toList ≠ List.replicate 16 0

theorem le_micWalk_end (remaining payload : Nat) :
    wfRnd4 payload + (frame.hdrlen + frame.ivLen) ≤
      (micWalk nic frame (remaining + 1) payload).2 := by
  induction remaining generalizing payload with
  | zero =>
      simp only [micWalk, if_true]
      omega
  | succ remaining ih =>
      rw [micWalk]
      simp only [Nat.add_eq_zero_iff, Nat.one_ne_zero, and_false, if_false]
      have rest := ih (wfRnd4 payload + (frame.hdrlen + frame.ivLen) +
        (nic.fragThresh.toNat - frame.hdrlen - frame.ivLen - frame.icvLen) +
          frame.icvLen + nic.txdescSize)
      have rounded := wfRnd4_spec (wfRnd4 payload +
        (frame.hdrlen + frame.ivLen) +
        (nic.fragThresh.toNat - frame.hdrlen - frame.ivLen - frame.icvLen) +
          frame.icvLen + nic.txdescSize)
      omega

theorem frameTxpAddmic_cases
    (h : frameTxpAddmic nic frame mem = some (frame', mem')) :
    frame' = { frame with lastTxcmdsz := frame.lastTxcmdsz + frame.micLen } ∧
      MicKeyed nic frame ∧
      (frame.encryptAlgo ≠ .tkip ∧ mem' = mem ∨
        frame.encryptAlgo = .tkip ∧ ∃ mic, mem' = mem.write
          (micWalk nic frame frame.nrFrags.toNat
            (frame.bufAddr + nic.txdescSize)).2 mic) := by
  unfold frameTxpAddmic at h
  by_cases tkip : frame.encryptAlgo = .tkip
  · simp only [if_pos tkip] at h
    by_cases null : (txMicKey nic frame).toList = List.replicate 16 0
    · rw [if_pos null] at h
      contradiction
    · rw [if_neg null, Option.some.injEq, Prod.mk.injEq] at h
      refine ⟨?_, fun _ => null, .inr ⟨tkip, _, h.2.symm⟩⟩
      rw [← h.1, XmitFrame.micLen, if_pos tkip]
  · rw [if_neg tkip, Option.some.injEq, Prod.mk.injEq] at h
    refine ⟨?_, fun isTkip => absurd isTkip tkip, .inl ⟨tkip, h.2.symm⟩⟩
    rw [← h.1, XmitFrame.micLen, if_neg tkip]
    rfl

theorem frameTxpAddmic_returns (keyed : MicKeyed nic frame) (mem : Mem) :
    ∃ frame' mem', frameTxpAddmic nic frame mem = some (frame', mem') := by
  unfold frameTxpAddmic
  by_cases tkip : frame.encryptAlgo = .tkip
  · simp only [if_pos tkip]
    rw [if_neg (keyed tkip)]
    exact ⟨_, _, rfl⟩
  · rw [if_neg tkip]
    exact ⟨_, _, rfl⟩

end Mic

/-! ## The whole function -/

section Result

variable {nic : TxNic} {frame : XmitFrame} {msdu : List UInt8} {mem : Mem}

theorem mpduLoop_frame {hdr fuel : Nat} {cursor cursor' : MpduCursor}
    {frame' : XmitFrame}
    (h : mpduLoop nic frame msdu hdr fuel cursor = some (frame', cursor')) :
    ∃ nrFrags lastTxcmdsz, frame' = { frame with nrFrags, lastTxcmdsz } := by
  induction fuel generalizing cursor with
  | zero => simp [mpduLoop] at h
  | succ fuel ih =>
      obtain ⟨fragment, -, ⟨-, hlast⟩ | ⟨-, -, hnext⟩⟩ := mpduLoop_cases h
      · rw [lastFragment, Prod.mk.injEq] at hlast
        exact ⟨_, _, hlast.1⟩
      · exact ih hnext

theorem wfTxMsduToMpdu_cases {result : MpduResult}
    (h : wfTxMsduToMpdu nic frame msdu mem = some result) :
    ∃ nic' built mem1 split cursor,
      txMacHdrBuild nic frame msdu (frame.bufAddr + nic.txdescSize) mem =
          some (nic', built, mem1) ∧
        mpduLoop nic' built msdu (frame.bufAddr + nic.txdescSize)
            (msdu.length + 1)
            (MpduCursor.start mem1 (frame.bufAddr + nic.txdescSize)) =
          some (split, cursor) ∧
        frameTxpAddmic nic' split cursor.mem =
          some (result.frame, result.mem) ∧
        result.nic = nic' ∧ result.written = cursor.written ∧
        SameNic nic nic' ∧ SameFrame frame built ∧ SameFrame frame split := by
  unfold wfTxMsduToMpdu at h
  simp only [Option.bind_eq_bind, Option.bind_eq_some_iff, Option.some.injEq]
    at h
  obtain ⟨⟨nic', built, mem1⟩, hbuild, ⟨split, cursor⟩, hloop,
    ⟨frame', mem'⟩, hmic, rfl⟩ := h
  refine ⟨nic', built, mem1, split, cursor, hbuild, hloop, hmic, rfl, rfl, ?_⟩
  obtain ⟨same, seqnum, ampduEn, rfl⟩ := txMacHdrBuild_same hbuild
  obtain ⟨nrFrags, lastTxcmdsz, rfl⟩ := mpduLoop_frame hloop
  exact ⟨same, ⟨seqnum, ampduEn, _, _, rfl⟩,
    ⟨seqnum, ampduEn, nrFrags, lastTxcmdsz, rfl⟩⟩

theorem wfTxMsduToMpdu_of {nic' : TxNic} {built split frame' : XmitFrame}
    {mem1 mem' : Mem} {cursor : MpduCursor}
    (hbuild : txMacHdrBuild nic frame msdu (frame.bufAddr + nic.txdescSize) mem =
      some (nic', built, mem1))
    (hloop : mpduLoop nic' built msdu (frame.bufAddr + nic.txdescSize)
      (msdu.length + 1)
      (MpduCursor.start mem1 (frame.bufAddr + nic.txdescSize)) =
        some (split, cursor))
    (hmic : frameTxpAddmic nic' split cursor.mem = some (frame', mem')) :
    wfTxMsduToMpdu nic frame msdu mem = some
      { nic := nic', frame := frame', mem := mem', written := cursor.written } := by
  unfold wfTxMsduToMpdu
  simp only [hbuild, hloop, hmic, Option.bind_eq_bind, Option.bind_some]

structure WholeMpdu (nic : TxNic) (frame : XmitFrame) (msdu : List UInt8)
    (result : MpduResult) : Prop where
  same : SameNic nic result.nic
  outcome : ∃ seqnum ampduEn, result.frame = { frame with
    seqnum, ampduEn
    nrFrags := 1
    lastTxcmdsz := frame.wholeLen msdu + frame.micLen }
  header : Header nic frame msdu result.frame.seqnum
    (frame.bufAddr + nic.txdescSize) result.mem
  body : result.mem.read (frame.bufAddr + nic.txdescSize + frame.hdrlen)
      (frame.ivLen + (8 + (msdu.length - ethHlen))) =
    frame.iv.take frame.ivLen ++
      (snapHeader frame.etherType ++ msdu.drop ethHlen)
  written : result.written =
    [(frame.bufAddr + nic.txdescSize, frame.wholeLen msdu)]

theorem le_micWalk_whole (prepared : Prepared nic frame msdu)
    (tkip : frame.encryptAlgo = .tkip) (nrFrags : frame.nrFrags = 1)
    (last : frame.lastTxcmdsz = frame.wholeLen msdu) (hdr : Nat) :
    hdr + frame.hdrlen + frame.ivLen + 8 + (msdu.length - ethHlen) ≤
      (micWalk nic frame frame.nrFrags.toNat hdr).2 := by
  have soft := prepared.swIcvLen_tkip tkip
  have rounded := wfRnd4_spec hdr
  have one : frame.nrFrags.toNat = 0 + 1 := by
    rw [nrFrags]
    rfl
  rw [one]
  simp only [micWalk, if_true]
  unfold XmitFrame.wholeLen XmitFrame.overhead at last
  omega

theorem SameNic.fixed {nic' : TxNic} (same : SameNic nic nic') :
    nic'.secInfo = nic.secInfo ∧ nic'.fragThresh = nic.fragThresh ∧
      nic'.txdescSize = nic.txdescSize := by
  obtain ⟨⟨wdn, rfl⟩, -⟩ := same
  exact ⟨rfl, rfl, rfl⟩

theorem MicKeyed.same {nic' : TxNic} {split : XmitFrame}
    (keyed : MicKeyed nic frame) (same : SameNic nic nic')
    (kept : SameFrame frame split) : MicKeyed nic' split := by
  obtain ⟨seqnum, ampduEn, nrFrags, lastTxcmdsz, rfl⟩ := kept
  intro tkip
  have key := keyed tkip
  unfold txMicKey at key ⊢
  rw [same.fixed.1]
  exact key

theorem wfTxMsduToMpdu_whole (prepared : Prepared nic frame msdu)
    (addressed : Addressed nic frame msdu) (keyed : MicKeyed nic frame)
    (fits : frame.bmcast = true ∨
      frame.wholeLen msdu ≤ nic.fragThresh.toNat) (mem : Mem) :
    ∃ result, wfTxMsduToMpdu nic frame msdu mem = some result ∧
      WholeMpdu nic frame msdu result := by
  obtain ⟨nic', seqnum, ampduEn, mem1, hbuild, same, hheader, -⟩ :=
    txMacHdrBuild_spec (frame.bufAddr + nic.txdescSize) mem prepared.long
      addressed prepared.qosLen
  have built : SameFrame frame { frame with seqnum, ampduEn } :=
    ⟨seqnum, ampduEn, _, _, rfl⟩
  obtain ⟨offset, mem2, hloop, hheader', hbody⟩ := mpduLoop_wholeMpdu
    (hheader.same same built) (prepared.same same built)
    (by rw [same.fixed.2.1]; exact fits) msdu.length
  have split : SameFrame frame { frame with
      seqnum, ampduEn, nrFrags := 1, lastTxcmdsz := frame.wholeLen msdu } :=
    ⟨seqnum, ampduEn, 1, _, rfl⟩
  obtain ⟨frame', mem', hmic⟩ :=
    frameTxpAddmic_returns (keyed.same same split) mem2
  obtain ⟨rfl, -, hplace⟩ := frameTxpAddmic_cases hmic
  have kept : ∀ start n,
      start + n ≤ frame.bufAddr + nic.txdescSize + frame.hdrlen + frame.ivLen +
          8 + (msdu.length - ethHlen) →
        mem'.read start n = mem2.read start n := by
    intro start n before
    rcases hplace with ⟨-, rfl⟩ | ⟨tkip, mic, rfl⟩
    · rfl
    · have place := le_micWalk_whole (prepared.same same split) tkip rfl rfl
        (frame.bufAddr + nic.txdescSize)
      rw [same.fixed.2.2, Mem.read_write_apart]
      exact .inl (before.trans place)
  have hlen := prepared.hdrlen_ge
  refine ⟨{
    nic := nic'
    frame := { frame with
      seqnum, ampduEn
      nrFrags := 1
      lastTxcmdsz := frame.wholeLen msdu + frame.micLen }
    mem := mem'
    written := [(frame.bufAddr + nic.txdescSize, frame.wholeLen msdu)] }, ?_,
    ⟨same, ⟨seqnum, ampduEn, rfl⟩, ?_, ?_, rfl⟩⟩
  · exact wfTxMsduToMpdu_of hbuild hloop hmic
  · apply Header.congr (hheader'.same same.symm built.symm) _ _ prepared
    · exact Mem.readLe16_congr (kept _ _ (by omega))
    · intro start n low high
      exact kept start n (by omega)
  · rw [kept _ _ (by omega), hbody]

end Result

end Smartchip.Tx
