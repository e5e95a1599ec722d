import Smartchip.Tx.Fragment

/-!
# The fragments of one MSDU in the buffer

What `wf_tx_msdu_to_mpdu` leaves behind, compared with what the fragments of an
MSDU are, and with where `frame_txp_addmic` and `mpdu_insert_sending_queue` look
for them.
-/

namespace Smartchip.Tx

open Smartchip.Foundation Smartchip.Frame Smartchip.Sec

/-! ## When it returns -/

section Returns

variable {nic : TxNic} {frame : XmitFrame} {msdu : List UInt8} {mem : Mem}

theorem wfTxMsduToMpdu_returns (prepared : Prepared nic frame msdu)
    (room : frame.overhead < nic.fragThresh.toNat)
    (addressed : Addressed nic frame msdu) (keyed : MicKeyed nic frame) :
    ∃ result, wfTxMsduToMpdu nic frame msdu mem = some result := by
  obtain ⟨nic', seqnum, ampduEn, mem1, hbuild, same, -, -⟩ :=
    txMacHdrBuild_spec (frame.bufAddr + nic.txdescSize) mem prepared.long
      addressed prepared.qosLen
  have inside : (MpduCursor.start mem1
      (frame.bufAddr + nic.txdescSize)).msduOffset ≤ msdu.length :=
    prepared.long
  have room' : XmitFrame.overhead { frame with seqnum, ampduEn } <
      nic'.fragThresh.toNat := by
    rw [same.fixed.2.1]
    exact room
  have returned := @mpduLoop_returns nic' { frame with seqnum, ampduEn } msdu
    (frame.bufAddr + nic.txdescSize) (msdu.length + 1) _ room' inside (by omega)
  obtain ⟨⟨split, cursor⟩, hloop⟩ := returned
  obtain ⟨nrFrags, lastTxcmdsz, rfl⟩ := mpduLoop_frame hloop
  have keyed' := keyed.same same ⟨seqnum, ampduEn, nrFrags, lastTxcmdsz, rfl⟩
  obtain ⟨frame', mem', hmic⟩ := frameTxpAddmic_returns keyed' cursor.mem
  exact ⟨_, wfTxMsduToMpdu_of hbuild hloop hmic⟩

/-- The two ways to fail: no such station, or an empty MIC key. -/
theorem wfTxMsduToMpdu_needs {result : MpduResult}
    (prepared : Prepared nic frame msdu)
    (h : wfTxMsduToMpdu nic frame msdu mem = some result) :
    Addressed nic frame msdu ∧ MicKeyed nic frame := by
  obtain ⟨nic', built, mem1, split, cursor, hbuild, -, hmic, -, -, same, -,
    kept⟩ := wfTxMsduToMpdu_cases h
  constructor
  · exact txMacHdrBuild_addressed prepared.long hbuild
  · exact (frameTxpAddmic_cases hmic).2.1.same same.symm kept.symm

end Returns

/-! ## Fragment numbers -/

section Numbers

variable {nic : TxNic} {frame frame' : XmitFrame} {msdu : List UInt8}
  {hdr fuel : Nat} {cursor cursor' : MpduCursor} {fragment : Fragment}

structure Unnumbered (hdr : Nat) (cursor : MpduCursor) : Prop where
  source : hdr = cursor.memStart ∨ ∃ part ∈ cursor.written, part.1 = hdr
  current : getFragNum cursor.mem cursor.memStart = 0
  before : ∀ part ∈ cursor.written, part.1 + 24 ≤ cursor.memStart ∧
    getFragNum cursor.mem part.1 = 0

theorem getFragNum_congr {mem mem' : Mem} {start start' : Nat}
    (same : mem.read (start + 22) 2 = mem'.read (start' + 22) 2) :
    getFragNum mem start = getFragNum mem' start' := by
  rw [getFragNum, Mem.readLe16_congr same, getFragNum]

theorem Unnumbered.fill (unnumbered : Unnumbered hdr cursor)
    (hlen : 24 ≤ frame.hdrlen)
    (h : fillFragment nic frame msdu cursor = some fragment) :
    getFragNum fragment.mem cursor.memStart = 0 ∧
      ∀ part ∈ cursor.written, getFragNum fragment.mem part.1 = 0 := by
  constructor
  · rw [← unnumbered.current]
    exact getFragNum_congr (fillFragment_read h (.inr ⟨by omega, by omega⟩))
  · intro part mem
    have before := unnumbered.before part mem
    rw [← before.2]
    exact getFragNum_congr (fillFragment_read h (.inl (by omega)))

theorem Unnumbered.next (unnumbered : Unnumbered hdr cursor)
    (hlen : 24 ≤ frame.hdrlen)
    (h : fillFragment nic frame msdu cursor = some fragment) :
    Unnumbered hdr (nextFragment nic frame hdr cursor fragment) := by
  obtain ⟨hcurrent, hbefore⟩ := unnumbered.fill hlen h
  obtain ⟨-, -, -, hpframe, -⟩ := fillFragment_cases h
  have rounded := wfRnd4_spec fragment.pframe
  have hsource : getFragNum fragment.mem hdr = 0 := by
    rcases unnumbered.source with rfl | ⟨part, mem, rfl⟩
    · exact hcurrent
    · exact hbefore part mem
  simp only [nextFragment, MpduCursor.record]
  constructor
  · right
    rcases unnumbered.source with rfl | ⟨part, mem, rfl⟩
    · exact ⟨_, List.mem_append_right _ (List.mem_singleton_self _), rfl⟩
    · exact ⟨part, List.mem_append_left _ mem, rfl⟩
  · rw [← hsource]
    apply getFragNum_congr
    simp only
    rw [Mem.read_write_inside _ (by rw [Mem.length_read]; omega),
      Mem.drop_read, Mem.take_read _ _ (by omega)]
  · intro part mem
    have behind : part.1 + 24 ≤ wfRnd4 fragment.pframe + nic.txdescSize ∧
        getFragNum fragment.mem part.1 = 0 := by
      rcases List.mem_append.mp mem with mem | mem
      · have before := unnumbered.before part mem
        exact ⟨by omega, hbefore part mem⟩
      · rw [List.mem_singleton] at mem
        subst part
        exact ⟨by simp only; omega, hcurrent⟩
    refine ⟨behind.1, ?_⟩
    rw [← behind.2]
    apply getFragNum_congr
    simp only
    rw [Mem.read_write_apart _ (by omega)]

theorem mpduLoop_unnumbered (unnumbered : Unnumbered hdr cursor)
    (hlen : 24 ≤ frame.hdrlen)
    (h : mpduLoop nic frame msdu hdr fuel cursor = some (frame', cursor')) :
    ∀ part ∈ cursor'.written, getFragNum cursor'.mem part.1 = 0 := by
  induction fuel generalizing cursor with
  | zero => simp [mpduLoop] at h
  | succ fuel ih =>
      obtain ⟨fragment, hfill, ⟨-, hlast⟩ | ⟨-, -, hnext⟩⟩ := mpduLoop_cases h
      · obtain ⟨hcurrent, hbefore⟩ := unnumbered.fill hlen hfill
        rw [lastFragment, Prod.mk.injEq] at hlast
        rw [hlast.2]
        intro part mem
        have zero : getFragNum fragment.mem part.1 = 0 := by
          rcases List.mem_append.mp mem with mem | mem
          · exact hbefore part mem
          · rw [List.mem_singleton.mp mem]
            exact hcurrent
        have apart : part.1 + 24 ≤ cursor.memStart ∨
            part.1 = cursor.memStart := by
          rcases List.mem_append.mp mem with mem | mem
          · exact .inl (unnumbered.before part mem).1
          · rw [List.mem_singleton.mp mem]
            exact .inr rfl
        rw [← zero]
        apply getFragNum_congr
        simp only
        rw [clearMFrag, read_clearBits16 _ _ (by omega)]
      · exact ih (unnumbered.next hlen hfill) hnext

end Numbers

/-! ## One fragment or several -/

section Start

variable {nic : TxNic} {frame frame' : XmitFrame} {msdu : List UInt8}
  {mem : Mem} {hdr fuel : Nat} {cursor cursor' : MpduCursor}

theorem mpduLoop_written
    (h : mpduLoop nic frame msdu hdr fuel cursor = some (frame', cursor')) :
    ∃ len rest, cursor'.written =
      cursor.written ++ (cursor.memStart, len) :: rest := by
  induction fuel generalizing cursor with
  | zero => simp [mpduLoop] at h
  | succ fuel ih =>
      obtain ⟨fragment, hfill, ⟨-, hlast⟩ | ⟨-, -, hnext⟩⟩ := mpduLoop_cases h
      · rw [lastFragment, Prod.mk.injEq] at hlast
        rw [hlast.2]
        exact ⟨_, [], rfl⟩
      · obtain ⟨len, rest, hrest⟩ := ih hnext
        rw [hrest]
        simp only [nextFragment, MpduCursor.record, List.append_assoc,
          List.singleton_append]
        exact ⟨_, _, rfl⟩

theorem fragmentBody_unicast {mpduLen : Int} {offset memSz offset' : Nat}
    {bytes : List UInt8} (unicast : frame.bmcast = false)
    (h : fragmentBody frame msdu mpduLen offset = some (bytes, memSz, offset')) :
    offset' = offset + memSz ∧ offset' ≤ msdu.length ∧
      (offset' ≠ msdu.length → (memSz : Int) = mpduLen) ∧
      (memSz : Int) ≤ mpduLen := by
  unfold fragmentBody at h
  rw [if_neg (by simp [unicast])] at h
  by_cases less : mpduLen < (msdu.length : Int) - offset
  · simp only [if_pos less] at h
    by_cases negative : mpduLen < 0
    · rw [if_pos negative] at h
      contradiction
    · rw [if_neg negative, Option.some.injEq, Prod.mk.injEq, Prod.mk.injEq] at h
      omega
  · simp only [if_neg less] at h
    by_cases negative : (msdu.length : Int) - offset < 0
    · rw [if_pos negative] at h
      contradiction
    · rw [if_neg negative, Option.some.injEq, Prod.mk.injEq, Prod.mk.injEq] at h
      omega

/-- A second fragment follows exactly when a unicast MSDU does not fit, and
then the first one fills the threshold. -/
theorem mpduLoop_start_cases
    (h : mpduLoop nic frame msdu hdr (fuel + 1) (MpduCursor.start mem hdr) =
      some (frame', cursor')) :
    (frame.bmcast = true ∨ frame.wholeLen msdu ≤ nic.fragThresh.toNat) ∧
        cursor'.written.length = 1 ∨
      frame.bmcast = false ∧ nic.fragThresh.toNat < frame.wholeLen msdu ∧
        frame.overhead ≤ nic.fragThresh.toNat ∧
        ∃ len rest, cursor'.written = (hdr, nic.fragThresh.toNat) ::
          (wfRnd4 (hdr + nic.fragThresh.toNat) + nic.txdescSize, len) ::
            rest := by
  obtain ⟨fragment, hfill, hcases⟩ := mpduLoop_cases h
  obtain ⟨bytes, hbody, -, hpframe, -⟩ := fillFragment_cases hfill
  have hroom := fragmentHead_room nic frame (MpduCursor.start mem hdr)
  simp only [MpduCursor.start, llcSize, if_true] at hroom hbody hpframe
  rcases hcases with ⟨last, hlast⟩ | ⟨unicast, more, hnext⟩
  · left
    constructor
    · cases hcast : frame.bmcast with
      | true => exact .inl rfl
      | false =>
          have filled := fragmentBody_unicast hcast hbody
          have last := last.resolve_left (by simp [hcast])
          rw [hroom] at filled
          unfold XmitFrame.wholeLen XmitFrame.overhead
          exact .inr (by omega)
    · rw [lastFragment, Prod.mk.injEq] at hlast
      rw [hlast.2]
      rfl
  · right
    have filled := fragmentBody_unicast unicast hbody
    have size := filled.2.2.1 more
    rw [hroom] at filled size
    refine ⟨unicast, ?_, ?_, ?_⟩
    · unfold XmitFrame.wholeLen XmitFrame.overhead
      omega
    · unfold XmitFrame.overhead
      omega
    · obtain ⟨len, rest, hwritten⟩ := mpduLoop_written hnext
      have pframe : fragment.pframe = hdr + nic.fragThresh.toNat := by omega
      have gap : hdr + nic.fragThresh.toNat - hdr = nic.fragThresh.toNat := by
        omega
      rw [hwritten]
      simp only [nextFragment, MpduCursor.record, MpduCursor.start, pframe, gap,
        List.nil_append, List.singleton_append]
      exact ⟨len, rest, rfl⟩

end Start

/-! ## Faithful fragments -/

/-- Where every MPDU starts and how long it is; the last one has the length in
`last_txcmdsz`. -/
def MpduResult.mpdus (result : MpduResult) : List (Nat × Nat) :=
  result.written.dropLast ++ (result.written.getLast?.map fun part =>
    (part.1, result.frame.lastTxcmdsz)).toList

structure Faithful (nic : TxNic) (frame : XmitFrame) (msdu : List UInt8)
    (result : MpduResult) : Prop where
  count : result.frame.nrFrags.toNat = result.written.length
  sizes : ∀ part ∈ result.mpdus, part.2 ≤ nic.fragThresh.toNat
  bodies : (result.written.flatMap fun part =>
      result.mem.read (part.1 + frame.hdrlen + frame.ivLen)
        (part.2 - frame.hdrlen - frame.ivLen - frame.swIcvLen)) =
    snapHeader frame.etherType ++ msdu.drop ethHlen
  moreFrag : ∀ k part, result.written[k]? = some part →
    getMFrag result.mem part.1 = decide (k + 1 ≠ result.written.length)
  sequence : ∀ part ∈ result.written,
    getSequence result.mem part.1 = result.frame.seqnum &&& 0xfff
  numbers : ∀ k part, result.written[k]? = some part →
    (getFragNum result.mem part.1).toNat = k

section Faithful

variable {nic : TxNic} {frame : XmitFrame} {msdu : List UInt8} {mem : Mem}
  {result : MpduResult}

theorem WholeMpdu.mpdus (whole : WholeMpdu nic frame msdu result) :
    result.mpdus = [(frame.bufAddr + nic.txdescSize,
      frame.wholeLen msdu + frame.micLen)] := by
  obtain ⟨seqnum, ampduEn, hframe⟩ := whole.outcome
  rw [MpduResult.mpdus, whole.written, hframe]
  rfl

theorem sequence_field (seqnum : UInt16) :
    (0xfff0 &&& seqnum <<< (4 : UInt16)) >>> 4 = seqnum &&& 0xfff := by
  have mask : ∀ n, 4095 &&& n = n % 2 ^ 12 := by
    intro n
    rw [Nat.and_comm]
    exact Nat.and_two_pow_sub_one_eq_mod n 12
  have bound := seqnum.toNat_lt
  have shift : (4 : UInt16).toNat % 16 = 4 := rfl
  apply UInt16.toNat_inj.mp
  rw [UInt16.shiftRight_and, UInt16.and_comm seqnum, UInt16.toNat_and,
    UInt16.toNat_and, show ((0xfff0 : UInt16) >>> 4).toNat = 4095 from rfl,
    show (0xfff : UInt16).toNat = 4095 from rfl, mask, mask,
    UInt16.toNat_shiftRight, UInt16.toNat_shiftLeft, shift, Nat.shiftLeft_eq,
    Nat.shiftRight_eq_div_pow]
  omega

theorem fragNum_field (seqnum : UInt16) :
    (0xfff0 &&& seqnum <<< (4 : UInt16)) &&& 0x000f = 0 := by
  rw [UInt16.and_comm 0xfff0, UInt16.and_assoc]
  exact UInt16.and_zero

theorem frameControl_mfrag (mode : WorkMode) (qosOption privacy : Bool) :
    (frameControl mode qosOption privacy &&& 0x0400 != 0) = false := by
  cases mode <;> cases qosOption <;> cases privacy <;> rfl

theorem WholeMpdu.faithful (whole : WholeMpdu nic frame msdu result)
    (fits : frame.wholeLen msdu + frame.micLen ≤ nic.fragThresh.toNat) :
    Faithful nic frame msdu result := by
  have single : ∀ {k part}, result.written[k]? = some part →
      k = 0 ∧ part.1 = frame.bufAddr + nic.txdescSize := by
    intro k part found
    rw [whole.written] at found
    cases k with
    | zero =>
        rw [List.getElem?_cons_zero, Option.some.injEq] at found
        subst part
        exact ⟨rfl, rfl⟩
    | succ k => simp at found
  obtain ⟨seqnum, ampduEn, hframe⟩ := whole.outcome
  constructor
  · rw [hframe, whole.written]
    rfl
  · intro part mem
    rw [whole.mpdus, List.mem_singleton] at mem
    subst part
    exact fits
  · have lengths : frame.wholeLen msdu - frame.hdrlen - frame.ivLen -
        frame.swIcvLen = 8 + (msdu.length - ethHlen) := by
      unfold XmitFrame.wholeLen XmitFrame.overhead
      omega
    have body := whole.body
    rw [Mem.read_add] at body
    rw [whole.written]
    simp only [List.flatMap_cons, List.flatMap_nil, List.append_nil, lengths]
    exact (List.append_inj' body (by simp [length_snapHeader])).2
  · intro k part found
    obtain ⟨rfl, hpart⟩ := single found
    rw [hpart, getMFrag, whole.header.control, whole.written,
      frameControl_mfrag]
    rfl
  · intro part mem
    obtain ⟨k, found⟩ := List.mem_iff_getElem?.mp mem
    rw [(single found).2, getSequence, whole.header.seqCtrl, sequence_field]
  · intro k part found
    obtain ⟨rfl, hpart⟩ := single found
    rw [hpart, getFragNum, whole.header.seqCtrl, fragNum_field]
    rfl

theorem txdescSize_mod (nic : TxNic) : nic.txdescSize % 4 = 0 := by
  unfold TxNic.txdescSize
  split
  · rfl
  · rfl

theorem le_micWalk_second (prepared : Prepared nic frame msdu)
    (tkip : frame.encryptAlgo = .tkip)
    (room : frame.overhead ≤ nic.fragThresh.toNat) (remaining hdr : Nat) :
    wfRnd4 (hdr + nic.fragThresh.toNat) + nic.txdescSize + frame.hdrlen ≤
      (micWalk nic frame (remaining + 2) hdr).2 := by
  rw [micWalk]
  simp only [Nat.add_eq_zero_iff, Nat.one_ne_zero, and_false, if_false]
  have soft := prepared.swIcvLen_tkip tkip
  unfold XmitFrame.overhead at room
  have behind : wfRnd4 hdr + (frame.hdrlen + frame.ivLen) +
      (nic.fragThresh.toNat - frame.hdrlen - frame.ivLen - frame.icvLen) +
        frame.icvLen + nic.txdescSize =
      wfRnd4 hdr + nic.fragThresh.toNat + nic.txdescSize := by
    omega
  rw [behind]
  have place := @le_micWalk_end nic frame remaining
    (wfRnd4 hdr + nic.fragThresh.toNat + nic.txdescSize)
  have desc := txdescSize_mod nic
  have start := wfRnd4_spec hdr
  have written := wfRnd4_spec (hdr + nic.fragThresh.toNat)
  have walked := wfRnd4_spec (wfRnd4 hdr + nic.fragThresh.toNat + nic.txdescSize)
  omega

theorem second_fragNum (prepared : Prepared nic frame msdu)
    (unicast : frame.bmcast = false)
    (large : nic.fragThresh.toNat < frame.wholeLen msdu)
    (h : wfTxMsduToMpdu nic frame msdu mem = some result)
    (count : result.frame.nrFrags.toNat = result.written.length) :
    ∃ part, result.written[1]? = some part ∧
      getFragNum result.mem part.1 = 0 := by
  obtain ⟨nic', built, mem1, split, cursor, hbuild, hloop, hmic, -, hwritten,
    same, kept, kept'⟩ := wfTxMsduToMpdu_cases h
  have header := txMacHdrBuild_header prepared.long prepared.qosLen hbuild
  have unnumbered : Unnumbered (frame.bufAddr + nic.txdescSize)
      (MpduCursor.start mem1 (frame.bufAddr + nic.txdescSize)) := by
    refine ⟨.inl rfl, ?_, by simp [MpduCursor.start]⟩
    exact (congrArg (· &&& 0x000f) header.seqCtrl).trans (fragNum_field _)
  obtain ⟨-, hthresh, htxdesc⟩ := same.fixed
  obtain ⟨hoverhead, hwhole, hcast, -, -⟩ := @SameFrame.lengths _ msdu _ kept
  rcases mpduLoop_start_cases hloop with ⟨fits, -⟩ | ⟨-, -, room, len, rest, two⟩
  · rw [hthresh, hcast, hwhole, unicast] at fits
    have fits := fits.resolve_left Bool.false_ne_true
    omega
  · rw [hthresh, hoverhead] at room
    rw [hthresh, htxdesc] at two
    have zero := mpduLoop_unnumbered unnumbered
      (prepared.same same kept).hdrlen_ge.1 hloop
      (wfRnd4 (frame.bufAddr + nic.txdescSize + nic.fragThresh.toNat) +
        nic.txdescSize, len) (by rw [two]; simp)
    refine ⟨_, by rw [hwritten, two]; rfl, ?_⟩
    rw [← zero]
    apply getFragNum_congr
    obtain ⟨hframe, -, ⟨-, hmem⟩ | ⟨tkip, mic, hmem⟩⟩ := frameTxpAddmic_cases hmic
    · rw [hmem]
    · have several : split.nrFrags.toNat = rest.length + 2 := by
        rw [hframe, hwritten, two] at count
        exact count
      obtain ⟨hoverhead', -, -, hhdrlen, hbuf⟩ := @SameFrame.lengths _ msdu _ kept'
      have place := le_micWalk_second (prepared.same same kept') tkip
        (by rw [hthresh, hoverhead']; exact room) rest.length
        (frame.bufAddr + nic.txdescSize)
      have hlen := prepared.hdrlen_ge
      rw [hmem, several, hbuf, htxdesc]
      rw [hthresh, htxdesc, hhdrlen] at place
      apply Mem.read_write_apart
      simp only
      omega

theorem Faithful.fits (prepared : Prepared nic frame msdu)
    (unicast : frame.bmcast = false)
    (h : wfTxMsduToMpdu nic frame msdu mem = some result)
    (faithful : Faithful nic frame msdu result) :
    frame.wholeLen msdu ≤ nic.fragThresh.toNat := by
  by_contra large
  obtain ⟨part, found, zero⟩ := second_fragNum prepared unicast
    (Nat.not_le.mp large) h faithful.count
  have one := faithful.numbers 1 part found
  rw [zero] at one
  contradiction

/-- A unicast MSDU is handed on whenever its station is found and its MIC key
is set, and the fragments are faithful exactly when there is one. -/
theorem mpdus_faithful_iff (prepared : Prepared nic frame msdu)
    (unicast : frame.bmcast = false)
    (room : frame.overhead < nic.fragThresh.toNat) (mem : Mem) :
    ((∃ result, wfTxMsduToMpdu nic frame msdu mem = some result) ↔
        Addressed nic frame msdu ∧ MicKeyed nic frame) ∧
      ((∃ result, wfTxMsduToMpdu nic frame msdu mem = some result ∧
          Faithful nic frame msdu result) ↔
        Addressed nic frame msdu ∧ MicKeyed nic frame ∧
          frame.wholeLen msdu + frame.micLen ≤ nic.fragThresh.toNat) := by
  constructor
  · constructor
    · rintro ⟨result, h⟩
      exact wfTxMsduToMpdu_needs prepared h
    · rintro ⟨addressed, keyed⟩
      exact wfTxMsduToMpdu_returns prepared room addressed keyed
  · constructor
    · rintro ⟨result, h, faithful⟩
      obtain ⟨addressed, keyed⟩ := wfTxMsduToMpdu_needs prepared h
      refine ⟨addressed, keyed, ?_⟩
      have fits := faithful.fits prepared unicast h
      obtain ⟨result', h', whole⟩ := wfTxMsduToMpdu_whole prepared addressed
        keyed (.inr fits) mem
      rw [h, Option.some.injEq] at h'
      subst result'
      have sizes := faithful.sizes
      rw [whole.mpdus] at sizes
      exact sizes _ (List.mem_singleton_self _)
    · rintro ⟨addressed, keyed, fits⟩
      obtain ⟨result, h, whole⟩ := wfTxMsduToMpdu_whole prepared addressed
        keyed (.inr (by omega)) mem
      exact ⟨result, h, whole.faithful fits⟩

end Faithful

/-! A station that sends to its access point. -/

def qosStation : WdnNetInfo where
  qosOption := true
  txseqTid := fun _ => 0
  htEnable := false
  ampduEnable := false
  aggEnableBitmap := 0
  baStartingSeqctrl := fun _ => 0

def stationNic (fragThresh : UInt16) : TxNic where
  workMode := .infra
  curBssid := apAddr
  fragThresh := fragThresh
  dot80211nSupport := true
  richv200 := false
  secInfo := noKeys
  wdnFindInfo := fun addr => if addr = apAddr.toList then some 0 else none
  wdn := fun _ => qosStation

def ipFrame : XmitFrame where
  etherType := 0x0800
  bmcast := false
  seqnum := 0
  pktHdrlen := 14
  hdrlen := 26
  lastTxcmdsz := 0
  nrFrags := 0
  encryptAlgo := .noPrivacy
  bswenc := true
  ivLen := 0
  icvLen := 0
  iv := []
  priority := 0
  ampduEn := false
  dot11tkiptxmickey := Vector.replicate 16 0
  dot118021xUncstKey := Vector.replicate 16 0
  pwdn := 0
  bufAddr := 4096

def ipMsdu (length : Nat) : List UInt8 :=
  EthFrame.bytes ⟨#v[0x02, 0x00, 0x00, 0x00, 0x00, 0x09], staAddr, 0x0800,
    (List.range length).map UInt8.ofNat⟩

theorem mpdus_faithful_iff_short :
    ∃ result, wfTxMsduToMpdu (stationNic 256) ipFrame (ipMsdu 4) (fun _ => 0) =
        some result ∧ Faithful (stationNic 256) ipFrame (ipMsdu 4) result :=
  (mpdus_faithful_iff ⟨by decide, rfl, rfl, rfl, rfl, rfl, rfl, rfl, by decide⟩
    rfl (by decide) _).2.mpr ⟨⟨by decide, rfl⟩,
      fun tkip => absurd tkip (by decide), by decide⟩

theorem fragments_not_faithful :
    ¬ ∃ result, wfTxMsduToMpdu (stationNic 256) ipFrame (ipMsdu 300)
        (fun _ => 0) = some result ∧
          Faithful (stationNic 256) ipFrame (ipMsdu 300) result := by
  rintro ⟨result, h, faithful⟩
  have second : (wfTxMsduToMpdu (stationNic 256) ipFrame (ipMsdu 300)
      (fun _ => 0)).bind (fun result => result.written[1]?.map fun part =>
        (getFragNum result.mem part.1).toNat) = some 0 := by
    decide +kernel
  rw [h, Option.bind_some, Option.map_eq_some_iff] at second
  obtain ⟨part, found, number⟩ := second
  have one := faithful.numbers 1 part found
  omega

/-! ## The three walks over the buffer -/

def sentMpdus (nic : TxNic) (sent : List IoWrite) : List (Nat × Nat) :=
  sent.map fun write =>
    (write.memAddr + nic.txdescSize, write.bytes.length - nic.txdescSize)

/-- The walks of `frame_txp_addmic` and of `mpdu_insert_sending_queue`, all of
whose writes succeed, meet every MPDU where it was written.  The MIC is added
before `last_txcmdsz` counts it. -/
structure WalksAgree (result : MpduResult) : Prop where
  mic : result.frame.encryptAlgo = .tkip →
    (micWalk result.nic { result.frame with
        lastTxcmdsz := result.frame.lastTxcmdsz - result.frame.micLen }
      result.frame.nrFrags.toNat
      (result.frame.bufAddr + result.nic.txdescSize)).1 =
        result.written.map fun part =>
          (part.1 + result.frame.hdrlen + result.frame.ivLen,
            part.2 - result.frame.hdrlen - result.frame.ivLen -
              result.frame.icvLen)
  queue : sentMpdus result.nic (mpduInsertSendingQueue result.nic result.frame
      (fun _ => true) result.mem) = result.mpdus

section Walks

variable {nic : TxNic} {frame : XmitFrame} {msdu : List UInt8} {mem : Mem}
  {result : MpduResult}

theorem sentMpdus_head (nic : TxNic) (frame : XmitFrame) (mem : Mem) :
    (sentMpdus nic (mpduInsertSendingQueue nic frame (fun _ => true) mem)).length
        ≤ 1 ∨
      (sentMpdus nic (mpduInsertSendingQueue nic frame (fun _ => true)
        mem)).head? = some (frame.bufAddr + nic.txdescSize,
          nic.fragThresh.toNat - 4) := by
  unfold mpduInsertSendingQueue
  match frame.nrFrags.toNat with
  | 0 => exact .inl (Nat.zero_le 1)
  | 1 => exact .inl (Nat.le_refl 1)
  | remaining + 2 =>
      right
      simp [sentMpdus, sendLoop]

theorem mpdus_several {first second : Nat × Nat} {rest : List (Nat × Nat)}
    (written : result.written = first :: second :: rest) :
    2 ≤ result.mpdus.length ∧ result.mpdus.head? = some first := by
  unfold MpduResult.mpdus
  rw [written]
  constructor
  · simp [List.getLast?_cons]
  · simp

/-- Whenever there are several fragments, the sending queue takes the first one
four bytes short. -/
theorem walks_disagree (h : wfTxMsduToMpdu nic frame msdu mem = some result)
    (several : 1 < result.written.length) : ¬ WalksAgree result := by
  intro agree
  obtain ⟨nic', built, mem1, split, cursor, -, hloop, hmic, hnic, hwritten,
    same, -, -⟩ := wfTxMsduToMpdu_cases h
  rw [hwritten] at several
  rcases mpduLoop_start_cases hloop with ⟨-, one⟩ | ⟨-, -, room, len, rest, two⟩
  · omega
  · rw [← hwritten] at two
    have written := mpdus_several two
    rw [← agree.queue] at written
    rcases sentMpdus_head result.nic result.frame result.mem with short | sent
    · omega
    · rw [sent, Option.some.injEq, Prod.mk.injEq, hnic] at written
      unfold XmitFrame.overhead at room
      omega

end Walks

theorem walks_disagree_station :
    ∃ result, wfTxMsduToMpdu (stationNic 256) ipFrame (ipMsdu 300) (fun _ => 0) =
        some result ∧ 1 < result.written.length ∧ ¬ WalksAgree result := by
  have several : (wfTxMsduToMpdu (stationNic 256) ipFrame (ipMsdu 300)
      (fun _ => 0)).map (fun result => result.written.length) = some 2 := by
    decide +kernel
  rw [Option.map_eq_some_iff] at several
  obtain ⟨result, h, two⟩ := several
  exact ⟨result, h, by omega, walks_disagree h (by omega)⟩

theorem walks_not_always_agree :
    ¬ ∀ nic frame msdu mem result,
      wfTxMsduToMpdu nic frame msdu mem = some result →
        1 < result.written.length → WalksAgree result := by
  intro agree
  have evaluated : (wfTxMsduToMpdu (stationNic 256) ipFrame (ipMsdu 300)
      (fun _ => 0)).map (fun result => (result.written.length,
        result.mpdus.length, result.mpdus.head?.map (·.2),
        result.nic.fragThresh)) = some (2, 2, some 256, 256) := by
    decide +kernel
  rw [Option.map_eq_some_iff] at evaluated
  obtain ⟨result, h, values⟩ := evaluated
  simp only [Prod.mk.injEq] at values
  obtain ⟨two, mpdus, head, thresh⟩ := values
  have queue := (agree _ _ _ _ result h (by omega)).queue
  rcases sentMpdus_head result.nic result.frame result.mem with short | sent
  · rw [queue] at short
    omega
  · rw [queue] at sent
    rw [sent, thresh, Option.map_some, Option.some.injEq,
      show (256 : UInt16).toNat = 256 from rfl] at head
    omega

end Smartchip.Tx
