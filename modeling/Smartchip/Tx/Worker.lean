import Smartchip.Foundation.Run
import Smartchip.Tx.Prepare

/-!
# Runs of the transmit path

Frames are prepared by `wf_tx_msdu` and wait on the pending queue; every turn of
`tx_work_mpdu_xmit` (`os/linux/tx_linux.c`) builds the MPDUs of the first one and
hands them to the bus.  Shared-key authentication (`nic/auth.c`) sends its own
encrypted frame.
-/

namespace Smartchip.Tx

open Smartchip.Foundation Smartchip.Frame Smartchip.Sec

/-! ## Keys and IVs -/

inductive CipherSuite where
  | wep
  | tkip
  | ccmp
  deriving DecidableEq

structure KeyMaterial where
  suite : CipherSuite
  key : List UInt8
  deriving DecidableEq

def wepMaterial (secInfo : SecInfo) (keyidx : UInt8) : KeyMaterial :=
  ⟨.wep, (secInfo.dot11DefKey keyidx).skey⟩

/-- The key that `wf_sec_encrypt`, or the hardware for AES, uses for a frame. -/
def keyMaterial (secInfo : SecInfo) (frame : XmitFrame) : Option KeyMaterial :=
  let pairwise :=
    if frame.bmcast then secInfo.dot118021XGrpKey secInfo.dot118021XGrpKeyid
    else frame.dot118021xUncstKey
  match frame.encryptAlgo with
  | .wep40 | .wep104 => some (wepMaterial secInfo ((frame.iv.getD 3 0 >>> 6) &&& 0x3))
  | .tkip => some ⟨.tkip, pairwise.toList⟩
  | .aes => some ⟨.ccmp, pairwise.toList⟩
  | _ => none

def ofBytes (bytes : List UInt8) : Nat :=
  bytes.foldr (fun byte rest => byte.toNat + 256 * rest) 0

/-- The 24-bit IV, the TSC or the PN in the IV field. -/
def ivNumber (suite : CipherSuite) (iv : List UInt8) : Nat :=
  let b (k : Nat) := iv.getD k 0
  match suite with
  | .wep => ofBytes [b 0, b 1, b 2]
  | .tkip => ofBytes [b 2, b 0, b 4, b 5, b 6, b 7]
  | .ccmp => ofBytes [b 0, b 1, b 4, b 5, b 6, b 7]

/-- Where the IV was counted: `dot11txpn` or `iv` of a station. -/
inductive IvSource where
  | data (pwdn : Nat)
  | auth (pwdn : Nat)
  deriving DecidableEq

structure KeyedMpdu where
  key : KeyMaterial
  iv : List UInt8
  source : IvSource
  deriving DecidableEq

def KeyedMpdu.number (mpdu : KeyedMpdu) : Nat := ivNumber mpdu.key.suite mpdu.iv

def keyedMpdu (secInfo : SecInfo) (frame : XmitFrame) : Option KeyedMpdu :=
  (keyMaterial secInfo frame).map fun key =>
    { key, iv := frame.iv.take frame.ivLen, source := .data frame.pwdn }

/-! ## The state -/

structure SentMsdu where
  pwdn : Nat
  tid : UInt8
  seqnum : UInt16
  deriving DecidableEq

/--
`pending` are the frames of `pending_frame_queue` with their packets, `handed`
the encrypted MPDUs that `wf_io_write_data` has accepted, and `sent` the MSDUs all
of whose MPDUs were.
-/
structure TxPath where
  nic : TxNic
  sec : TxSec
  wdnSec : Nat → TxWdnSec
  authIv : Nat → UInt32
  pending : List (XmitFrame × List UInt8)
  handed : List KeyedMpdu
  sent : List SentMsdu

def wfTxMsduPrepare (s : TxPath) (pxmitframe : XmitFrame) (msdu : List UInt8) : TxPath :=
  match wfXmitFrameInit s.nic s.sec s.wdnSec pxmitframe msdu with
  | none => s
  | some (frame, wdnSec) => { s with wdnSec, pending := s.pending ++ [(frame, msdu)] }

/-- `wf_tx_msdu_to_mpdu` with the state it leaves: the outcome is `none` when it
does not return, and the second component is `none` when it returns `wf_false`. -/
def msduToMpdu (nic : TxNic) (frame : XmitFrame) (msdu : List UInt8) (mem : Mem) :
    Option (TxNic × Option MpduResult) :=
  let hdr := frame.bufAddr + nic.txdescSize
  match txMacHdrBuild nic frame msdu hdr mem with
  | none => some (nic, none)
  | some (nic, frame, mem) =>
      match mpduLoop nic frame msdu hdr (msdu.length + 1) (MpduCursor.start mem hdr) with
      | none => none
      | some (frame, cursor) =>
          match frameTxpAddmic nic frame cursor.mem with
          | none => some (nic, none)
          | some (frame, mem) =>
              some (nic, some { nic, frame, mem, written := cursor.written })

theorem msduToMpdu_eq_some {nic : TxNic} {frame : XmitFrame} {msdu : List UInt8} {mem : Mem}
    {result : MpduResult} :
    wfTxMsduToMpdu nic frame msdu mem = some result ↔
      msduToMpdu nic frame msdu mem = some (result.nic, some result) := by
  unfold wfTxMsduToMpdu msduToMpdu
  simp only [Option.bind_eq_bind]
  cases txMacHdrBuild nic frame msdu (frame.bufAddr + nic.txdescSize) mem with
  | none => simp
  | some built =>
      obtain ⟨nic', frame', mem'⟩ := built
      simp only [Option.bind_some]
      cases mpduLoop nic' frame' msdu (frame.bufAddr + nic.txdescSize) (msdu.length + 1)
        (MpduCursor.start mem' (frame.bufAddr + nic.txdescSize)) with
      | none => simp
      | some split =>
          obtain ⟨split, cursor⟩ := split
          simp only [Option.bind_some]
          cases frameTxpAddmic nic' split cursor.mem with
          | none => simp
          | some mic =>
              obtain ⟨frame'', mem''⟩ := mic
              simp only [Option.bind_some, Option.some.injEq, Prod.mk.injEq]
              constructor
              · rintro rfl
                exact ⟨rfl, rfl⟩
              · intro same
                exact same.2

/-! ## Steps -/

/-- What a turn finds: it is not to run or has no buffer, it sends a block-ack
request instead, the buffer, and which writes succeed. -/
structure WorkerTurn where
  blocked : Bool
  addBa : Bool
  bufAddr : Nat
  mem : Mem
  ioWrite : Nat → Bool

def acceptedWrites (ioWrite : Nat → Bool) (writes : List IoWrite) : List IoWrite :=
  (writes.zipIdx.filter fun write => ioWrite write.2).map Prod.fst

/-- The frame leaves the queue when all its MPDUs are accepted, and is tried again
otherwise. -/
def handOver (s : TxPath) (turn : WorkerTurn) (mpdu : MpduResult) (msdu : List UInt8)
    (pending : List (XmitFrame × List UInt8)) : TxPath :=
  let frame := mpdu.frame
  let accepted := acceptedWrites turn.ioWrite
    (mpduInsertSendingQueue mpdu.nic frame turn.ioWrite mpdu.mem)
  let handed := s.handed ++
    accepted.filterMap fun _ => keyedMpdu mpdu.nic.secInfo frame
  if accepted.length = frame.nrFrags.toNat then
    { s with
      handed, pending
      sent := s.sent ++ [⟨frame.pwdn, frame.priority, frame.seqnum⟩] }
  else { s with handed, pending := (frame, msdu) :: pending }

/-- A frame that no MPDUs could be made of is dropped. -/
def settle (s : TxPath) (turn : WorkerTurn) (msdu : List UInt8)
    (pending : List (XmitFrame × List UInt8)) (nic : TxNic) : Option MpduResult → TxPath
  | none => { s with nic, pending }
  | some mpdu => handOver { s with nic } turn mpdu msdu pending

def workerTurn (s : TxPath) (turn : WorkerTurn) : Option TxPath :=
  match s.pending with
  | [] => some s
  | (pxframe, msdu) :: pending =>
      if turn.blocked then some s
      else if 15 < pxframe.priority then some { s with pending }
      else if turn.addBa then some s
      else do
        let frame := { pxframe with bufAddr := turn.bufAddr }
        let res ← msduToMpdu s.nic frame msdu turn.mem
        some (settle s turn msdu pending res.1 res.2)

/-- The IV field of the third frame of shared-key authentication: the counter of
the station and the index of the key. -/
def authIvField (iv keyIndex : UInt32) : List UInt8 :=
  le32 (iv ||| keyIndex <<< 30)

/-- `auth_send` of `WF_80211_AUTH_SEQ_3`; `accepted` tells whether the frame is
given to the bus. -/
def authSendSeq3 (s : TxPath) (pwdn : Nat) (accepted : Bool) : TxPath :=
  let iv := authIvField (s.authIv pwdn) s.sec.dot11PrivacyKeyIndex
  let key := wepMaterial s.nic.secInfo ((iv.getD 3 0 >>> 6) &&& 0x3)
  { s with
    authIv := Function.update s.authIv pwdn (s.authIv pwdn + 1)
    handed := if accepted then s.handed ++ [{ key, iv, source := .auth pwdn }]
      else s.handed }

inductive TxInput where
  | msdu (pxmitframe : XmitFrame) (msdu : List UInt8)
  | turn (turn : WorkerTurn)
  | auth (pwdn : Nat) (accepted : Bool)

def txStep (s : TxPath) : TxInput → Option TxPath
  | .msdu pxmitframe msdu => some (wfTxMsduPrepare s pxmitframe msdu)
  | .turn turn => workerTurn s turn
  | .auth pwdn accepted => some (authSendSeq3 s pwdn accepted)

def TxPath.start (nic : TxNic) (sec : TxSec) (wdnSec : Nat → TxWdnSec)
    (authIv : Nat → UInt32) (pending : List (XmitFrame × List UInt8)) : TxPath :=
  { nic, sec, wdnSec, authIv, pending, handed := [], sent := [] }

/-! ## What a turn can do -/

/-- The turn comes to `wf_tx_msdu_to_mpdu` with the first frame of the queue. -/
structure Attempts (s : TxPath) (turn : WorkerTurn) (pxframe : XmitFrame) (msdu : List UInt8)
    (pending : List (XmitFrame × List UInt8)) : Prop where
  first : s.pending = (pxframe, msdu) :: pending
  running : turn.blocked = false
  priority : pxframe.priority ≤ 15
  plain : turn.addBa = false

/-- Nothing happens, the frame is dropped before its MPDUs are made, making them
fails, or they are handed over. -/
theorem workerTurn_cases {s next : TxPath} {turn : WorkerTurn}
    (h : workerTurn s turn = some next) :
    next = s ∨
    (∃ first pending, s.pending = first :: pending ∧ next = { s with pending }) ∨
    ∃ pxframe msdu pending nic result, Attempts s turn pxframe msdu pending ∧
      msduToMpdu s.nic { pxframe with bufAddr := turn.bufAddr } msdu turn.mem =
        some (nic, result) ∧
      next = settle s turn msdu pending nic result := by
  unfold workerTurn at h
  split at h
  · cases h
    exact .inl rfl
  · rename_i pxframe msdu pending queue
    split_ifs at h with blocked high addBa
    · cases h
      exact .inl rfl
    · cases h
      exact .inr (.inl ⟨_, _, queue, rfl⟩)
    · cases h
      exact .inl rfl
    · rw [Option.bind_eq_bind, Option.bind_eq_some_iff] at h
      obtain ⟨⟨nic, result⟩, made, h⟩ := h
      refine .inr (.inr ⟨pxframe, msdu, pending, nic, result, ?_, made,
        (Option.some.inj h).symm⟩)
      exact ⟨queue, by simpa using blocked, UInt8.not_lt.mp high, by simpa using addBa⟩

end Smartchip.Tx
