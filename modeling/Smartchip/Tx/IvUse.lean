import Mathlib.Data.List.Perm.Subperm
import Smartchip.Tx.Sequence

/-!
# IVs

Every encrypted data frame takes its IV from the counter of its station
(`xmit_frame_sec_init`), the third frame of shared-key authentication from another
one.
-/

namespace Smartchip.Tx

open Smartchip.Foundation Smartchip.Frame Smartchip.Sec

def ivSpace : CipherSuite → Nat
  | .wep => 2 ^ 24
  | .tkip | .ccmp => 2 ^ 48

def IvUnique (s : TxPath) : Prop :=
  s.handed.Pairwise fun first second =>
    first.key = second.key → first.number ≠ second.number

/-- The IVs of the pending frames and of the MPDUs that went out. -/
def uses (s : TxPath) : List KeyedMpdu :=
  s.pending.filterMap (fun entry => keyedMpdu s.nic.secInfo entry.1) ++ s.handed

def counter (s : TxPath) : IvSource → Nat
  | .data pwdn => (s.wdnSec pwdn).dot11txpn.toNat
  | .auth pwdn => (s.authIv pwdn).toNat

/-- No other counter has given this value out under the key. -/
def Unused (s : TxPath) (key : KeyMaterial) (source : IvSource) : Prop :=
  ∀ used ∈ uses s, used.key = key → used.source ≠ source →
    used.number ≠ counter s source

def Unfragmented (nic : TxNic) (frame : XmitFrame) (msdu : List UInt8) : Prop :=
  frame.bmcast = true ∨ frame.wholeLen msdu ≤ nic.fragThresh.toNat

def authMpdu (s : TxPath) (pwdn : Nat) : KeyedMpdu :=
  let iv := authIvField (s.authIv pwdn) s.sec.dot11PrivacyKeyIndex
  { key := wepMaterial s.nic.secInfo ((iv.getD 3 0 >>> 6) &&& 0x3)
    iv
    source := .auth pwdn }

/-- No counter comes to its end, no IV is taken that another counter has given out
under the key, and every encrypted frame goes out in one MPDU. -/
def FreshIv (s : TxPath) : TxInput → Prop
  | .msdu pxmitframe msdu => ∀ frame wdnSec,
      wfXmitFrameInit s.nic s.sec s.wdnSec pxmitframe msdu = some (frame, wdnSec) →
      ∀ key, keyMaterial s.nic.secInfo frame = some key →
        counter s (.data frame.pwdn) + 1 < ivSpace key.suite ∧
          Unused s key (.data frame.pwdn)
  | .turn turn => ∀ pxframe msdu pending, Attempts s turn pxframe msdu pending →
      (keyMaterial s.nic.secInfo pxframe).isSome → Unfragmented s.nic pxframe msdu
  | .auth pwdn accepted => counter s (.auth pwdn) + 1 < ivSpace .wep ∧
      (accepted = true → Unused s (authMpdu s pwdn).key (.auth pwdn))

/-! ## The number in an IV field -/

theorem toNat_tsc (txpn : UInt64) (k : Nat) :
    (tsc txpn k).toNat = txpn.toNat / 256 ^ k % 256 :=
  UInt8.toNat_ofNat'

theorem ivNumber_wepIv (txpn : UInt64) (keyidx : UInt8) :
    ivNumber .wep (wepIv txpn keyidx) = txpn.toNat % ivSpace .wep := by
  simp only [ivNumber, wepIv, ofBytes, ivSpace, List.getD_cons_zero, List.getD_cons_succ,
    List.foldr_cons, List.foldr_nil, toNat_tsc]
  omega

theorem ivNumber_tkipIv (txpn : UInt64) (keyidx : UInt8) :
    ivNumber .tkip (tkipIv txpn keyidx) = txpn.toNat % ivSpace .tkip := by
  simp only [ivNumber, tkipIv, ofBytes, ivSpace, List.getD_cons_zero, List.getD_cons_succ,
    List.foldr_cons, List.foldr_nil, toNat_tsc]
  omega

theorem ivNumber_aesIv (txpn : UInt64) (keyidx : UInt8) :
    ivNumber .ccmp (aesIv txpn keyidx) = txpn.toNat % ivSpace .ccmp := by
  simp only [ivNumber, aesIv, ofBytes, ivSpace, List.getD_cons_zero, List.getD_cons_succ,
    List.foldr_cons, List.foldr_nil, toNat_tsc]
  omega

/-- The index of the key is above the 24 bits of the IV. -/
theorem ivNumber_authIvField (iv keyIndex : UInt32) :
    ivNumber .wep (authIvField iv keyIndex) = iv.toNat % ivSpace .wep := by
  have low : (iv ||| keyIndex <<< 30).toNat % 2 ^ 24 = iv.toNat % 2 ^ 24 := by
    have above : (keyIndex <<< 30).toNat % 2 ^ 24 = 0 := by
      have shift : (30 : UInt32).toNat % 32 = 30 := rfl
      rw [UInt32.toNat_shiftLeft, shift, Nat.shiftLeft_eq]
      omega
    rw [UInt32.toNat_or, Nat.or_mod_two_pow, above, Nat.or_zero]
  rw [ivSpace, ← low]
  simp only [ivNumber, authIvField, le32, ofBytes, List.getD_cons_zero, List.getD_cons_succ,
    List.foldr_cons, List.foldr_nil, UInt8.toNat_ofNat']
  omega

theorem nextTxpn_eq {last txpn : UInt64} (inside : txpn.toNat < last.toNat) :
    (nextTxpn last txpn).toNat = txpn.toNat + 1 := by
  unfold nextTxpn
  rw [if_neg]
  · have := last.toNat_lt
    rw [UInt64.toNat_add, UInt64.toNat_one]
    omega
  · rintro rfl
    omega

/-! ## The counter of a station -/

def suiteOf : EncryptAlgo → Option CipherSuite
  | .wep40 | .wep104 => some .wep
  | .tkip => some .tkip
  | .aes => some .ccmp
  | _ => none

theorem keyMaterial_suite (secInfo : SecInfo) (frame : XmitFrame) :
    (keyMaterial secInfo frame).map KeyMaterial.suite = suiteOf frame.encryptAlgo := by
  unfold keyMaterial
  cases frame.encryptAlgo with
  | noPrivacy | wep40 | tkip | tkipWtmic | aes | wep104 | sms4 | wepWpaMixed => rfl

/-- An encrypted frame holds the packet number, which is counted; `txpn` is the next
one. -/
structure Numbered (pwdn : TxWdnSec) (frame : XmitFrame) (txpn : UInt64) : Prop where
  number : ∀ suite, suiteOf frame.encryptAlgo = some suite →
    ivNumber suite (frame.iv.take frame.ivLen) = pwdn.dot11txpn.toNat % ivSpace suite
  next : ∀ suite, suiteOf frame.encryptAlgo = some suite →
    pwdn.dot11txpn.toNat + 1 < ivSpace suite → txpn.toNat = pwdn.dot11txpn.toNat + 1
  plain : suiteOf frame.encryptAlgo = none → txpn = pwdn.dot11txpn

section Init

variable {nic : TxNic} {sec : TxSec} {pwdn : TxWdnSec}
  {frame frame' : XmitFrame} {txpn : UInt64}

theorem take_setIv {iv : List UInt8} (fits : frame.ivLen = iv.length) :
    (setIv frame iv).iv.take (setIv frame iv).ivLen = iv := by
  simp [setIv, fits]

theorem Numbered.counted {suite : CipherSuite} {last : UInt64} {iv : List UInt8}
    (keyed : suiteOf frame.encryptAlgo = some suite) (space : last.toNat + 1 = ivSpace suite)
    (field : frame.iv.take frame.ivLen = iv)
    (number : ivNumber suite iv = pwdn.dot11txpn.toNat % ivSpace suite) :
    Numbered pwdn frame (nextTxpn last pwdn.dot11txpn) := by
  constructor
  · intro suite' keyed'
    cases keyed.symm.trans keyed'
    rw [field]
    exact number
  · intro suite' keyed' inside
    cases keyed.symm.trans keyed'
    apply nextTxpn_eq
    omega
  · intro plain
    cases keyed.symm.trans plain

theorem setCipher_numbered (h : setCipher nic sec pwdn frame = some (frame', txpn)) :
    Numbered pwdn frame' txpn := by
  have algo := (setCipher_ciphered h).2
  unfold setCipher at h
  cases cipher : frame.encryptAlgo with
  | wep40 | wep104 =>
      simp only [cipher, Option.some.injEq, Prod.mk.injEq] at h algo
      obtain ⟨rfl, rfl⟩ := h
      exact Numbered.counted (congrArg suiteOf algo) rfl (take_setIv rfl) (ivNumber_wepIv _ _)
  | tkip =>
      simp only [cipher, Option.ite_none_left_eq_some, Option.some.injEq,
        Prod.mk.injEq] at h algo
      obtain ⟨-, rfl, rfl⟩ := h
      exact Numbered.counted (congrArg suiteOf algo) rfl (take_setIv rfl) (ivNumber_tkipIv _ _)
  | aes =>
      simp only [cipher, Option.some.injEq, Prod.mk.injEq] at h algo
      obtain ⟨rfl, rfl⟩ := h
      exact Numbered.counted (congrArg suiteOf algo) rfl (take_setIv rfl) (ivNumber_aesIv _ _)
  | noPrivacy | tkipWtmic | sms4 | wepWpaMixed =>
      simp only [cipher, Option.some.injEq, Prod.mk.injEq] at h algo
      obtain ⟨rfl, rfl⟩ := h
      constructor
      · intro suite keyed
        simp [suiteOf] at keyed
      · intro suite keyed
        simp [suiteOf] at keyed
      · intro _
        rfl

theorem xmitFrameSecInit_numbered
    (h : xmitFrameSecInit nic sec pwdn frame = some (frame', txpn)) :
    Numbered pwdn frame' txpn := by
  unfold xmitFrameSecInit at h
  simp only [Option.bind_eq_bind, Option.bind_eq_some_iff, Option.some.injEq,
    Prod.mk.injEq] at h
  obtain ⟨algo, -, ⟨ciphered, number⟩, hcipher, rfl, rfl⟩ := h
  have numbered := setCipher_numbered hcipher
  exact ⟨numbered.number, numbered.next, numbered.plain⟩

/-- Only the counter of the frame's station moves. -/
theorem wfXmitFrameInit_numbered {wdnSec wdnSec' : Nat → TxWdnSec} {msdu : List UInt8}
    (h : wfXmitFrameInit nic sec wdnSec frame msdu = some (frame', wdnSec')) :
    ∃ txpn, Numbered (wdnSec frame'.pwdn) frame' txpn ∧
      wdnSec' = Function.update wdnSec frame'.pwdn
        { wdnSec frame'.pwdn with dot11txpn := txpn } := by
  obtain ⟨-, id, ciphered, txpn, priority, ampduEn, -, hsec, rfl, hwdn⟩ :=
    wfXmitFrameInit_cases h
  have numbered := xmitFrameSecInit_numbered hsec
  exact ⟨txpn, ⟨numbered.number, numbered.next, numbered.plain⟩, hwdn⟩

end Init

/-! ## One MPDU -/

section Single

variable {nic : TxNic} {frame : XmitFrame} {msdu : List UInt8} {mem : Mem}

theorem mpduLoop_single {hdr fuel : Nat} {split : XmitFrame} {cursor : MpduCursor}
    (single : Unfragmented nic frame msdu)
    (h : mpduLoop nic frame msdu hdr (fuel + 1) (MpduCursor.start mem hdr) =
      some (split, cursor)) :
    split.nrFrags = 1 := by
  obtain ⟨fragment, hfill, ⟨-, hlast⟩ | ⟨unicast, more, -⟩⟩ := mpduLoop_cases h
  · rw [lastFragment, Prod.mk.injEq] at hlast
    rw [hlast.1]
    rfl
  · obtain ⟨bytes, hbody, -⟩ := fillFragment_cases hfill
    have filled := fragmentBody_unicast unicast hbody
    have size := filled.2.2.1 more
    have fits := single.resolve_left (by simp [unicast])
    rw [fragmentHead_room] at size
    unfold XmitFrame.wholeLen XmitFrame.overhead at fits
    simp only [MpduCursor.start, llcSize, if_true] at size filled
    omega

theorem Unfragmented.same {nic' : TxNic} {built : XmitFrame}
    (single : Unfragmented nic frame msdu) (same : SameNic nic nic')
    (sameFrame : SameFrame frame built) : Unfragmented nic' built msdu := by
  unfold Unfragmented
  obtain ⟨-, whole, cast, -, -⟩ := @SameFrame.lengths _ msdu _ sameFrame
  rw [same.fixed.2.1, whole, cast]
  exact single

theorem wfTxMsduToMpdu_same {result : MpduResult}
    (h : wfTxMsduToMpdu nic frame msdu mem = some result) :
    SameNic nic result.nic ∧ SameFrame frame result.frame := by
  obtain ⟨nic', built, mem1, split, cursor, -, -, hmic, hnic, -, same, -, sameFrame⟩ :=
    wfTxMsduToMpdu_cases h
  obtain ⟨seqnum, ampduEn, nrFrags, lastTxcmdsz, rfl⟩ := sameFrame
  rw [hnic, (frameTxpAddmic_cases hmic).1]
  exact ⟨same, seqnum, ampduEn, nrFrags, _, rfl⟩

theorem wfTxMsduToMpdu_single {result : MpduResult} (single : Unfragmented nic frame msdu)
    (h : wfTxMsduToMpdu nic frame msdu mem = some result) :
    result.frame.nrFrags = 1 := by
  obtain ⟨nic', built, mem1, split, cursor, -, hloop, hmic, -, -, same, sameBuilt, -⟩ :=
    wfTxMsduToMpdu_cases h
  have one := mpduLoop_single (single.same same sameBuilt) hloop
  rw [(frameTxpAddmic_cases hmic).1]
  exact one

theorem length_sendLoop_le {ioWrite : Nat → Bool} {remaining t memAddr : Nat} :
    (sendLoop nic frame ioWrite remaining t memAddr mem).length ≤ remaining := by
  induction remaining generalizing t memAddr mem with
  | zero => exact Nat.zero_le _
  | succ remaining ih =>
      rw [sendLoop, List.length_cons]
      split
      · exact Nat.succ_le_succ ih
      · exact Nat.succ_le_succ (Nat.zero_le remaining)

theorem length_acceptedWrites_le (ioWrite : Nat → Bool) (writes : List IoWrite) :
    (acceptedWrites ioWrite writes).length ≤ writes.length := by
  unfold acceptedWrites
  rw [List.length_map]
  exact (List.length_filter_le _ _).trans_eq List.length_zipIdx

theorem accepted_le (nic : TxNic) (frame : XmitFrame) (ioWrite : Nat → Bool) (mem : Mem) :
    (acceptedWrites ioWrite (mpduInsertSendingQueue nic frame ioWrite mem)).length ≤
      frame.nrFrags.toNat :=
  (length_acceptedWrites_le _ _).trans length_sendLoop_le

end Single

/-! ## Runs -/

/-- Every IV is below the counter it comes from, and all are different. -/
structure Counted (s : TxPath) : Prop where
  below : ∀ used ∈ uses s, used.number < counter s used.source
  apart : (uses s).Pairwise fun first second =>
    first.key = second.key → first.number ≠ second.number

section Step

variable {s next : TxPath}

theorem Counted.unique (counted : Counted s) : IvUnique s :=
  counted.apart.sublist (List.sublist_append_right _ _)

theorem Counted.fewer (counted : Counted s) (fewer : (uses next).Subperm (uses s))
    (counters : ∀ source, counter s source ≤ counter next source) : Counted next := by
  constructor
  · intro used member
    exact (counted.below used (List.Subperm.subset fewer member)).trans_le
      (counters used.source)
  · obtain ⟨kept, same, sublist⟩ := fewer
    apply same.pairwise (counted.apart.sublist sublist)
    intro first second different sameKey
    exact (different sameKey.symm).symm

/-- One more IV is used, which is the value of its counter. -/
theorem Counted.more (counted : Counted s) (used : KeyedMpdu)
    (more : (uses next).Perm (used :: uses s))
    (number : used.number = counter s used.source)
    (unused : Unused s used.key used.source)
    (next_counter : counter next used.source = counter s used.source + 1)
    (counters : ∀ source, counter s source ≤ counter next source) : Counted next := by
  constructor
  · intro other member
    cases List.mem_cons.mp (more.subset member) with
    | inl same =>
        rw [same]
        omega
    | inr before =>
        exact (counted.below other before).trans_le (counters other.source)
  · apply more.symm.pairwise
    · apply List.Pairwise.cons _ counted.apart
      intro other member sameKey sameNumber
      by_cases source : other.source = used.source
      · have below := counted.below other member
        rw [source] at below
        omega
      · exact unused other member sameKey.symm source (by omega)
    · intro first second different sameKey
      exact (different sameKey.symm).symm

theorem keyedMpdu_same {frame split : XmitFrame} (same : SameFrame frame split)
    (secInfo : SecInfo) : keyedMpdu secInfo split = keyedMpdu secInfo frame := by
  obtain ⟨seqnum, ampduEn, nrFrags, lastTxcmdsz, rfl⟩ := same
  rfl

/-- A frame with an IV has one MPDU, so that it leaves the queue with it or none was
accepted. -/
theorem handOver_uses {turn : WorkerTurn} {mpdu : MpduResult} {pxframe : XmitFrame}
    {msdu : List UInt8} {pending : List (XmitFrame × List UInt8)}
    (first : s.pending = (pxframe, msdu) :: pending)
    (secInfo : mpdu.nic.secInfo = s.nic.secInfo)
    (tag : keyedMpdu s.nic.secInfo mpdu.frame = keyedMpdu s.nic.secInfo pxframe)
    (single : (keyedMpdu s.nic.secInfo pxframe).isSome → mpdu.frame.nrFrags = 1) :
    (uses (handOver { s with nic := mpdu.nic } turn mpdu msdu pending)).Subperm (uses s) := by
  have few := accepted_le mpdu.nic mpdu.frame turn.ioWrite mpdu.mem
  unfold handOver
  dsimp only
  generalize acceptedWrites turn.ioWrite
    (mpduInsertSendingQueue mpdu.nic mpdu.frame turn.ioWrite mpdu.mem) = accepted at few ⊢
  unfold uses
  rw [first, List.filterMap_cons]
  apply List.Perm.subperm
  cases key : keyedMpdu s.nic.secInfo pxframe with
  | none =>
      rw [key] at tag
      split
      · simp [secInfo, tag]
      · simp [secInfo, tag]
  | some used =>
      rw [single (by simp [key])] at few ⊢
      rw [key] at tag
      cases accepted with
      | nil => simp [secInfo, tag]
      | cons write rest =>
          have one : rest = [] := by
            rw [← List.length_eq_zero_iff]
            simpa using few
          subst one
          simpa [secInfo, tag] using List.perm_append_singleton used
            (pending.filterMap (fun entry => keyedMpdu s.nic.secInfo entry.1) ++ s.handed)

theorem handOver_counter (s : TxPath) (turn : WorkerTurn) (mpdu : MpduResult)
    (msdu : List UInt8) (pending : List (XmitFrame × List UInt8)) (source : IvSource) :
    counter (handOver s turn mpdu msdu pending) source = counter s source := by
  unfold handOver
  dsimp only
  split
  · rfl
  · rfl

theorem keyedMpdu_isSome (secInfo : SecInfo) (frame : XmitFrame) :
    (keyedMpdu secInfo frame).isSome = (keyMaterial secInfo frame).isSome :=
  Option.isSome_map

theorem msduToMpdu_same {nic nic' : TxNic} {frame : XmitFrame} {msdu : List UInt8} {mem : Mem}
    {result : Option MpduResult} (h : msduToMpdu nic frame msdu mem = some (nic', result)) :
    SameNic nic nic' ∧ ∀ mpdu, result = some mpdu → mpdu.nic = nic' := by
  cases hbuild : txMacHdrBuild nic frame msdu (frame.bufAddr + nic.txdescSize) mem with
  | none =>
      rw [msduToMpdu_refused hbuild] at h
      cases h
      exact ⟨SameNic.refl nic, by simp⟩
  | some header =>
      obtain ⟨after, built, mem'⟩ := header
      obtain ⟨rfl, -, split⟩ := msduToMpdu_built hbuild h
      exact ⟨(txMacHdrBuild_same hbuild).1, fun mpdu made => (split mpdu made).1⟩

theorem Counted.dropped (counted : Counted s) {first : XmitFrame × List UInt8}
    {pending : List (XmitFrame × List UInt8)} (queue : s.pending = first :: pending)
    (nic : TxNic) (secInfo : nic.secInfo = s.nic.secInfo) :
    Counted { s with nic, pending } := by
  apply counted.fewer
  · apply List.Sublist.subperm
    unfold uses
    rw [secInfo, queue]
    apply List.Sublist.append_right
    exact (List.sublist_cons_self first pending).filterMap _
  · intro source
    exact Nat.le_refl _

theorem attempt_counted {turn : WorkerTurn} {pxframe : XmitFrame} {msdu : List UInt8}
    {pending : List (XmitFrame × List UInt8)} {nic : TxNic} {result : Option MpduResult}
    (counted : Counted s) (fresh : FreshIv s (.turn turn))
    (attempts : Attempts s turn pxframe msdu pending)
    (made : msduToMpdu s.nic { pxframe with bufAddr := turn.bufAddr } msdu turn.mem =
      some (nic, result)) :
    Counted (settle s turn msdu pending nic result) := by
  obtain ⟨same, left⟩ := msduToMpdu_same made
  unfold settle
  cases result with
  | none => exact counted.dropped attempts.first nic same.fixed.1
  | some mpdu =>
      obtain rfl := left mpdu rfl
      have h := msduToMpdu_eq_some.mpr made
      have sameFrame := (wfTxMsduToMpdu_same h).2
      apply counted.fewer
      · apply handOver_uses attempts.first same.fixed.1 (keyedMpdu_same sameFrame _)
        intro keyed
        rw [keyedMpdu_isSome] at keyed
        have single : Unfragmented s.nic { pxframe with bufAddr := turn.bufAddr } msdu :=
          fresh pxframe msdu pending attempts keyed
        exact wfTxMsduToMpdu_single single h
      · intro source
        rw [handOver_counter]
        exact Nat.le_refl _

theorem prepare_counted {pxmitframe : XmitFrame} {msdu : List UInt8} (counted : Counted s)
    (fresh : FreshIv s (.msdu pxmitframe msdu)) :
    Counted (wfTxMsduPrepare s pxmitframe msdu) := by
  unfold wfTxMsduPrepare
  split
  · exact counted
  · rename_i frame wdnSec init
    obtain ⟨txpn, numbered, rfl⟩ := wfXmitFrameInit_numbered init
    have suite := keyMaterial_suite s.nic.secInfo frame
    cases keyed : keyMaterial s.nic.secInfo frame with
    | none =>
        rw [keyed] at suite
        rw [numbered.plain suite.symm, Function.update_eq_self]
        apply counted.fewer
        · apply List.Perm.subperm
          simp [uses, keyedMpdu, keyed]
        · intro source
          exact Nat.le_refl _
    | some key =>
        rw [keyed] at suite
        obtain ⟨inside, unused⟩ := fresh frame _ init key keyed
        have value := numbered.number key.suite suite.symm
        have step := numbered.next key.suite suite.symm inside
        apply counted.more ⟨key, frame.iv.take frame.ivLen, .data frame.pwdn⟩ _
          (value.trans (Nat.mod_eq_of_lt (Nat.lt_of_succ_lt inside))) unused
        · simp only [counter, Function.update_self]
          exact step
        · intro source
          cases source with
          | auth pwdn => exact Nat.le_refl _
          | data pwdn =>
              by_cases own : pwdn = frame.pwdn
              · subst own
                simp only [counter, Function.update_self]
                omega
              · simp [counter, own]
        · simp [uses, keyedMpdu, keyed, List.perm_middle]

theorem authSendSeq3_counted {pwdn : Nat} {accepted : Bool} (counted : Counted s)
    (fresh : FreshIv s (.auth pwdn accepted)) :
    Counted (authSendSeq3 s pwdn accepted) := by
  obtain ⟨inside, unused⟩ := fresh
  have value : (authMpdu s pwdn).number = counter s (.auth pwdn) :=
    (ivNumber_authIvField _ _).trans (Nat.mod_eq_of_lt (Nat.lt_of_succ_lt inside))
  have step : (s.authIv pwdn + 1).toNat = (s.authIv pwdn).toNat + 1 := by
    have inside : (s.authIv pwdn).toNat + 1 < 2 ^ 24 := inside
    rw [UInt32.toNat_add, UInt32.toNat_one]
    omega
  have counters : ∀ source,
      counter s source ≤ counter (authSendSeq3 s pwdn accepted) source := by
    intro source
    cases source with
    | data other => exact Nat.le_refl _
    | auth other =>
        by_cases own : other = pwdn
        · subst own
          simp only [counter, authSendSeq3, Function.update_self]
          omega
        · simp [counter, authSendSeq3, own]
  cases accepted with
  | false =>
      apply counted.fewer _ counters
      exact (List.Perm.refl (uses s)).subperm
  | true =>
      apply counted.more (authMpdu s pwdn) _ value (unused rfl) _ counters
      · simp only [uses, authSendSeq3, if_true, ← List.append_assoc]
        exact List.perm_append_singleton _ _
      · simp only [counter, authMpdu, authSendSeq3, Function.update_self]
        exact step

theorem txStep_counted (counted : Counted s) {input : TxInput} (fresh : FreshIv s input)
    (h : txStep s input = some next) : Counted next := by
  cases input with
  | msdu pxmitframe msdu =>
      cases h
      exact prepare_counted counted fresh
  | auth pwdn accepted =>
      cases h
      exact authSendSeq3_counted counted fresh
  | turn turn =>
      rcases workerTurn_cases h with same | ⟨first, pending, queue, dropped⟩ |
        ⟨pxframe, msdu, pending, nic, result, attempts, made, handed⟩
      · rw [same]
        exact counted
      · rw [dropped]
        exact counted.dropped queue s.nic rfl
      · rw [handed]
        exact attempt_counted counted fresh attempts made

end Step

/-- While no counter comes to its end or gives out a value that another one has given out
under the same key, and encrypted frames are not fragmented, no IV is used twice. -/
theorem ivs_unique (nic : TxNic) (sec : TxSec) (wdnSec : Nat → TxWdnSec)
    (authIv : Nat → UInt32) (inputs : List TxInput) {final : TxPath}
    (fresh : EachStep txStep FreshIv (TxPath.start nic sec wdnSec authIv []) inputs)
    (reached : run txStep (TxPath.start nic sec wdnSec authIv []) inputs = some final) :
    IvUnique final := by
  have initial : Counted (TxPath.start nic sec wdnSec authIv []) :=
    ⟨by simp [uses, TxPath.start], List.Pairwise.nil⟩
  exact (eachStep_invariant Counted (fun _ _ _ counted => txStep_counted counted)
    initial fresh reached).unique

/-! A station with a WEP key. -/

def wepNic : TxNic :=
  { stationNic 256 with
    secInfo := { noKeys with dot11DefKey := fun _ => ⟨[1, 2, 3, 4, 5], Nat.le_add_right 5 8⟩ } }

def wepStart : TxPath :=
  TxPath.start wepNic
    { openSec with dot11AuthAlgrthm := .shared, dot11PrivacyAlgrthm := .wep40 }
    (fun _ => freshWdnSec) (fun _ => 0) []

theorem two_lt_ivSpace (suite : CipherSuite) : 2 < ivSpace suite := by
  cases suite with
  | wep | tkip | ccmp => decide

theorem freshIv_msdu {s : TxPath} {pxmitframe : XmitFrame} {msdu : List UInt8}
    (station : (wfXmitFrameInit s.nic s.sec s.wdnSec pxmitframe msdu).map
      (fun result => result.1.pwdn) = some 0)
    (low : counter s (.data 0) < 2) (own : ∀ used ∈ uses s, used.source = .data 0) :
    FreshIv s (.msdu pxmitframe msdu) := by
  intro frame wdnSec init key _
  rw [init, Option.map_some, Option.some.injEq] at station
  dsimp only at station
  rw [station]
  constructor
  · have := two_lt_ivSpace key.suite
    omega
  · intro used member _ other
    exact absurd (own used member) other

theorem freshIv_turn {s : TxPath} (turn : WorkerTurn)
    (short : ∀ entry ∈ s.pending, entry.1.wholeLen entry.2 ≤ s.nic.fragThresh.toNat) :
    FreshIv s (.turn turn) := by
  intro pxframe msdu pending attempts _
  apply Or.inr
  apply short (pxframe, msdu)
  rw [attempts.first]
  exact List.mem_cons_self

/-- Two packets are sent with the IVs 0 and 1. -/
theorem ivs_unique_station :
    ∃ final, run txStep wepStart [.msdu ipFrame (ipMsdu 4), .msdu ipFrame (ipMsdu 4),
        .turn (turnWriting true), .turn (turnWriting true)] = some final ∧
      final.handed.map KeyedMpdu.number = [0, 1] ∧ IvUnique final := by
  let packet : TxInput := .msdu ipFrame (ipMsdu 4)
  let turn : TxInput := .turn (turnWriting true)
  have evaluated : (run txStep wepStart [packet, packet, turn, turn]).map
      (fun final => final.handed.map KeyedMpdu.number) = some [0, 1] := by
    decide +kernel
  rw [Option.map_eq_some_iff] at evaluated
  obtain ⟨final, reached, numbers⟩ := evaluated
  refine ⟨final, reached, numbers, ivs_unique _ _ _ _ _ ?_ reached⟩
  refine ⟨?_, fun first hfirst => ⟨?_, fun second hsecond => ⟨?_, fun third hthird => ⟨?_, ?_⟩⟩⟩⟩
  · exact freshIv_msdu (by decide +kernel) (by decide) (by simp [uses, TxPath.start])
  · cases hfirst
    exact freshIv_msdu (by decide +kernel) (by decide +kernel) (by decide +kernel)
  · cases hfirst
    cases hsecond
    exact freshIv_turn _ (by decide +kernel)
  · cases hfirst
    cases hsecond
    change txStep (wfTxMsduPrepare (wfTxMsduPrepare wepStart ipFrame (ipMsdu 4))
      ipFrame (ipMsdu 4)) turn = some third at hthird
    have short : (txStep (wfTxMsduPrepare (wfTxMsduPrepare wepStart ipFrame (ipMsdu 4))
        ipFrame (ipMsdu 4)) turn).map (fun s => s.pending.all fun entry =>
          entry.1.wholeLen entry.2 ≤ s.nic.fragThresh.toNat) = some true := by
      decide +kernel
    rw [hthird, Option.map_some, Option.some.injEq, List.all_eq_true] at short
    exact freshIv_turn _ fun entry member => of_decide_eq_true (short entry member)
  · intro _ _
    trivial

/-- The authentication and the first packet have the same IV. -/
theorem authentication_iv_reused :
    ¬ ∀ inputs final, run txStep wepStart inputs = some final →
      final.handed.length < ivSpace .wep → IvUnique final := by
  intro unique
  have evaluated : (run txStep wepStart [.auth 0 true, .msdu ipFrame (ipMsdu 4),
      .turn (turnWriting true)]).map
        (fun final => final.handed.map fun mpdu => (mpdu.key, mpdu.number)) =
      some [(⟨.wep, [1, 2, 3, 4, 5]⟩, 0), (⟨.wep, [1, 2, 3, 4, 5]⟩, 0)] := by
    decide +kernel
  rw [Option.map_eq_some_iff] at evaluated
  obtain ⟨final, reached, handed⟩ := evaluated
  have few : final.handed.length = 2 := by
    rw [← List.length_map, handed]
    rfl
  have apart : (final.handed.map fun mpdu => (mpdu.key, mpdu.number)).Pairwise
      fun first second => first.1 = second.1 → first.2 ≠ second.2 :=
    List.pairwise_map.mpr (unique _ final reached (by rw [few]; decide))
  rw [handed] at apart
  exact absurd apart (by decide)

end Smartchip.Tx
