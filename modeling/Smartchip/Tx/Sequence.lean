import Mathlib.Data.List.Chain
import Smartchip.Tx.Layout
import Smartchip.Tx.Worker

/-!
# Sequence numbers

`tx_mac_hdr_build` counts the sequence number of a frame before it is known
whether the frame goes out.
-/

namespace Smartchip.Tx

open Smartchip.Foundation Smartchip.Frame

/-- The sequence numbers of the MSDUs sent to a station under a TID. -/
def numbers (s : TxPath) (pwdn : Nat) (tid : UInt8) : List UInt16 :=
  (s.sent.filter fun msdu => msdu.pwdn = pwdn ∧ msdu.tid = tid).map SentMsdu.seqnum

def Consecutive (seqnums : List UInt16) : Prop :=
  seqnums.IsChain fun first second => second = (first + 1) &&& 0xFFF

/-- Every frame of the station and TID whose header the step builds goes out: it has
a MIC key if it needs one, and no write of its MPDUs fails. -/
def GoesOut (pwdn : Nat) (tid : UInt8) (s : TxPath) : TxInput → Prop
  | .turn turn => ∀ pxframe msdu pending, Attempts s turn pxframe msdu pending →
      pxframe.pwdn = pwdn → pxframe.priority = tid →
      (txMacHdrBuild s.nic { pxframe with bufAddr := turn.bufAddr } msdu
        (turn.bufAddr + s.nic.txdescSize) turn.mem).isSome →
      MicKeyed s.nic pxframe ∧ ∀ mpdu,
        wfTxMsduToMpdu s.nic { pxframe with bufAddr := turn.bufAddr } msdu turn.mem =
          some mpdu → ∀ t < mpdu.frame.nrFrags.toNat, turn.ioWrite t = true
  | _ => True

section Counter

variable {nic nic' : TxNic} {frame built : XmitFrame} {msdu : List UInt8} {hdr : Nat}
  {mem mem' : Mem}

theorem txAmpduUpdate_txseqTid (nic : TxNic) (frame : XmitFrame) (pwdn : Nat) :
    ((txAmpduUpdate nic frame).1.wdn pwdn).txseqTid = (nic.wdn pwdn).txseqTid := by
  obtain ⟨kept | ⟨baStartingSeqctrl, moved⟩, -⟩ := txAmpduUpdate_cases nic frame
  · rw [kept]
  · rw [moved]
    by_cases same : pwdn = frame.pwdn
    · subst same
      simp
    · simp [same]

/-- Only the counter of the frame's station and TID moves, and the frame has its
number. -/
theorem txMacHdrBuild_txseqTid
    (h : txMacHdrBuild nic frame msdu hdr mem = some (nic', built, mem')) :
    built.seqnum = ((nic.wdn frame.pwdn).txseqTid frame.priority + 1) &&& 0xFFF ∧
      (nic'.wdn frame.pwdn).txseqTid frame.priority = built.seqnum ∧
      ∀ pwdn tid, ¬ (frame.pwdn = pwdn ∧ frame.priority = tid) →
        (nic'.wdn pwdn).txseqTid tid = (nic.wdn pwdn).txseqTid tid := by
  obtain ⟨-, updated⟩ := txMacHdrBuild_cases h
  obtain ⟨-, ampduEn, hframe⟩ := txAmpduUpdate_same (numbered nic frame)
    { frame with seqnum := nextSeqnum nic frame }
  have counters := txAmpduUpdate_txseqTid (numbered nic frame)
    { frame with seqnum := nextSeqnum nic frame }
  rw [updated] at hframe counters
  dsimp only at hframe counters
  subst hframe
  refine ⟨rfl, ?_, ?_⟩
  · rw [counters]
    simp [numbered]
  · intro pwdn tid other
    rw [counters]
    by_cases same : pwdn = frame.pwdn
    · subst same
      have apart : tid ≠ frame.priority := fun same => other ⟨rfl, same.symm⟩
      simp [numbered, apart]
    · simp [numbered, same]

/-- A frame that gets its header comes back as it was but for its lengths, or has no
MIC key. -/
theorem msduToMpdu_built {result : Option MpduResult}
    (hbuild : txMacHdrBuild nic frame msdu (frame.bufAddr + nic.txdescSize) mem =
      some (nic', built, mem'))
    {after : TxNic} (h : msduToMpdu nic frame msdu mem = some (after, result)) :
    after = nic' ∧ (result = none → ¬ MicKeyed nic frame) ∧
      ∀ mpdu, result = some mpdu → mpdu.nic = nic' ∧ ∃ nrFrags lastTxcmdsz,
        mpdu.frame = { built with nrFrags, lastTxcmdsz } := by
  obtain ⟨same, seqnum, ampduEn, rfl⟩ := txMacHdrBuild_same hbuild
  unfold msduToMpdu at h
  dsimp only at h
  rw [hbuild] at h
  dsimp only at h
  split at h
  · cases h
  · rename_i split cursor hloop
    obtain ⟨nrFrags, lastTxcmdsz, rfl⟩ := mpduLoop_frame hloop
    split at h
    · rename_i hmic
      cases h
      refine ⟨rfl, ?_, by simp⟩
      intro _ keyed
      obtain ⟨frame', mem'', returns⟩ := frameTxpAddmic_returns
        (keyed.same same ⟨seqnum, ampduEn, nrFrags, lastTxcmdsz, rfl⟩) cursor.mem
      rw [hmic] at returns
      cases returns
    · rename_i frame' mem'' hmic
      cases h
      obtain ⟨rfl, -⟩ := frameTxpAddmic_cases hmic
      refine ⟨rfl, by simp, ?_⟩
      intro mpdu hmpdu
      cases hmpdu
      exact ⟨rfl, _, _, rfl⟩

theorem msduToMpdu_refused
    (hbuild : txMacHdrBuild nic frame msdu (frame.bufAddr + nic.txdescSize) mem = none) :
    msduToMpdu nic frame msdu mem = some (nic, none) := by
  unfold msduToMpdu
  dsimp only
  rw [hbuild]

end Counter

section Writes

variable {nic : TxNic} {frame : XmitFrame} {ioWrite : Nat → Bool}

theorem length_sendLoop {remaining t memAddr : Nat} {mem : Mem}
    (all : ∀ i < remaining, ioWrite (t + i) = true) :
    (sendLoop nic frame ioWrite remaining t memAddr mem).length = remaining := by
  induction remaining generalizing t memAddr mem with
  | zero => rfl
  | succ remaining ih =>
      have first : ioWrite t = true := all 0 (Nat.succ_pos remaining)
      have rest : ∀ i < remaining, ioWrite (t + 1 + i) = true := by
        intro i inside
        rw [Nat.add_assoc, Nat.add_comm 1 i]
        exact all (i + 1) (Nat.succ_lt_succ inside)
      rw [sendLoop, List.length_cons, if_pos first, ih rest]

theorem length_acceptedWrites {writes : List IoWrite}
    (all : ∀ t < writes.length, ioWrite t = true) :
    (acceptedWrites ioWrite writes).length = writes.length := by
  unfold acceptedWrites
  rw [List.length_map, List.filter_eq_self.mpr, List.length_zipIdx]
  intro write member
  have place := List.mem_zipIdx member
  exact all write.2 (by omega)

theorem allAccepted {mem : Mem} (all : ∀ t < frame.nrFrags.toNat, ioWrite t = true) :
    (acceptedWrites ioWrite (mpduInsertSendingQueue nic frame ioWrite mem)).length =
      frame.nrFrags.toNat := by
  have sent : (mpduInsertSendingQueue nic frame ioWrite mem).length = frame.nrFrags.toNat :=
    length_sendLoop (by simpa using all)
  rw [length_acceptedWrites, sent]
  rw [sent]
  exact all

end Writes

/-! ## Runs -/

/-- The numbers so far are consecutive and the counter is at the last of them. -/
structure InStep (pwdn : Nat) (tid : UInt8) (s : TxPath) : Prop where
  consecutive : Consecutive (numbers s pwdn tid)
  counter : ∀ last ∈ (numbers s pwdn tid).getLast?,
    (s.nic.wdn pwdn).txseqTid tid = last

section Step

variable {pwdn : Nat} {tid : UInt8} {s next : TxPath}

theorem InStep.unchanged (inStep : InStep pwdn tid s) (sent : next.sent = s.sent)
    (counter : (next.nic.wdn pwdn).txseqTid tid = (s.nic.wdn pwdn).txseqTid tid) :
    InStep pwdn tid next := by
  have same : numbers next pwdn tid = numbers s pwdn tid := by
    unfold numbers
    rw [sent]
  constructor
  · rw [same]
    exact inStep.consecutive
  · rw [same, counter]
    exact inStep.counter

/-- The next number of the counter is sent. -/
theorem InStep.sent (inStep : InStep pwdn tid s) {seqnum : UInt16}
    (sent : next.sent = s.sent ++ [⟨pwdn, tid, seqnum⟩])
    (number : seqnum = ((s.nic.wdn pwdn).txseqTid tid + 1) &&& 0xFFF)
    (counter : (next.nic.wdn pwdn).txseqTid tid = seqnum) : InStep pwdn tid next := by
  have grown : numbers next pwdn tid = numbers s pwdn tid ++ [seqnum] := by
    unfold numbers
    rw [sent]
    simp
  constructor
  · rw [grown]
    apply List.isChain_append.mpr
    refine ⟨inStep.consecutive, List.isChain_singleton seqnum, ?_⟩
    intro last hlast first hfirst
    cases hfirst
    rw [number, inStep.counter last hlast]
  · rw [grown]
    intro last hlast
    rw [List.getLast?_append, List.getLast?_singleton] at hlast
    cases hlast
    exact counter

/-- A frame of another station or TID. -/
theorem InStep.other (inStep : InStep pwdn tid s) {msdu : SentMsdu}
    (other : ¬ (msdu.pwdn = pwdn ∧ msdu.tid = tid))
    (sent : next.sent = s.sent ∨ next.sent = s.sent ++ [msdu])
    (counter : (next.nic.wdn pwdn).txseqTid tid = (s.nic.wdn pwdn).txseqTid tid) :
    InStep pwdn tid next := by
  cases sent with
  | inl same => exact inStep.unchanged same counter
  | inr grown =>
      have same : numbers next pwdn tid = numbers s pwdn tid := by
        unfold numbers
        rw [grown]
        simp [other]
      constructor
      · rw [same]
        exact inStep.consecutive
      · rw [same, counter]
        exact inStep.counter

theorem handOver_sent (s : TxPath) (turn : WorkerTurn) (mpdu : MpduResult)
    (msdu : List UInt8) (pending : List (XmitFrame × List UInt8)) :
    (handOver s turn mpdu msdu pending).nic = s.nic ∧
      ((handOver s turn mpdu msdu pending).sent = s.sent ∨
        (handOver s turn mpdu msdu pending).sent =
          s.sent ++ [⟨mpdu.frame.pwdn, mpdu.frame.priority, mpdu.frame.seqnum⟩]) := by
  unfold handOver
  dsimp only
  split
  · exact ⟨rfl, .inr rfl⟩
  · exact ⟨rfl, .inl rfl⟩

theorem handOver_all {s : TxPath} {turn : WorkerTurn} {mpdu : MpduResult}
    (all : ∀ t < mpdu.frame.nrFrags.toNat, turn.ioWrite t = true) (msdu : List UInt8)
    (pending : List (XmitFrame × List UInt8)) :
    (handOver s turn mpdu msdu pending).sent =
      s.sent ++ [⟨mpdu.frame.pwdn, mpdu.frame.priority, mpdu.frame.seqnum⟩] := by
  unfold handOver
  dsimp only
  rw [if_pos (allAccepted all)]

theorem attempt_inStep {turn : WorkerTurn} {pxframe : XmitFrame} {msdu : List UInt8}
    {pending : List (XmitFrame × List UInt8)} {nic : TxNic} {result : Option MpduResult}
    (inStep : InStep pwdn tid s) (goesOut : GoesOut pwdn tid s (.turn turn))
    (attempts : Attempts s turn pxframe msdu pending)
    (made : msduToMpdu s.nic { pxframe with bufAddr := turn.bufAddr } msdu turn.mem =
      some (nic, result)) :
    InStep pwdn tid (settle s turn msdu pending nic result) := by
  unfold settle
  cases hbuild : txMacHdrBuild s.nic { pxframe with bufAddr := turn.bufAddr } msdu
      (turn.bufAddr + s.nic.txdescSize) turn.mem with
  | none =>
      rw [msduToMpdu_refused hbuild] at made
      cases made
      exact inStep.unchanged rfl rfl
  | some header =>
      obtain ⟨nic', built, mem'⟩ := header
      obtain ⟨rfl, unkeyed, split⟩ := msduToMpdu_built hbuild made
      obtain ⟨number, counter, elsewhere⟩ := txMacHdrBuild_txseqTid hbuild
      obtain ⟨-, seqnum, ampduEn, rfl⟩ := txMacHdrBuild_same hbuild
      by_cases mine : pxframe.pwdn = pwdn ∧ pxframe.priority = tid
      · have goes := goesOut pxframe msdu pending attempts mine.1 mine.2 (by rw [hbuild]; rfl)
        cases result with
        | none => exact absurd goes.1 (unkeyed rfl)
        | some mpdu =>
            obtain ⟨rfl, nrFrags, lastTxcmdsz, hframe⟩ := split mpdu rfl
            have all := goes.2 mpdu (msduToMpdu_eq_some.mpr made)
            have sent := handOver_all (s := { s with nic := mpdu.nic }) all msdu pending
            have kept := (handOver_sent { s with nic := mpdu.nic } turn mpdu msdu pending).1
            rw [hframe] at sent
            obtain ⟨rfl, rfl⟩ := mine
            apply inStep.sent sent number
            rw [kept]
            exact counter
      · have same := elsewhere pwdn tid mine
        cases result with
        | none => exact inStep.unchanged rfl same
        | some mpdu =>
            obtain ⟨-, nrFrags, lastTxcmdsz, hframe⟩ := split mpdu rfl
            have kept := handOver_sent { s with nic } turn mpdu msdu pending
            rw [hframe] at kept
            apply inStep.other mine kept.2
            rw [kept.1]
            exact same

theorem txStep_inStep (inStep : InStep pwdn tid s) {input : TxInput}
    (goesOut : GoesOut pwdn tid s input) (h : txStep s input = some next) :
    InStep pwdn tid next := by
  cases input with
  | msdu pxmitframe msdu =>
      cases h
      unfold wfTxMsduPrepare
      split
      · exact inStep
      · exact inStep.unchanged rfl rfl
  | auth pwdn accepted =>
      cases h
      exact inStep.unchanged rfl rfl
  | turn turn =>
      rcases workerTurn_cases h with same | ⟨first, pending, -, dropped⟩ |
        ⟨pxframe, msdu, pending, nic, result, attempts, made, handed⟩
      · rw [same]
        exact inStep
      · rw [dropped]
        exact inStep.unchanged rfl rfl
      · rw [handed]
        exact attempt_inStep inStep goesOut attempts made

end Step

/-- In a run in which every frame of a station and TID whose header is built goes
out in the same turn, the numbers sent under that TID have no gaps. -/
theorem sequence_numbers_consecutive (pwdn : Nat) (tid : UInt8) (nic : TxNic) (sec : TxSec)
    (wdnSec : Nat → TxWdnSec) (authIv : Nat → UInt32)
    (pending : List (XmitFrame × List UInt8)) (inputs : List TxInput) {final : TxPath}
    (goesOut : EachStep txStep (GoesOut pwdn tid)
      (TxPath.start nic sec wdnSec authIv pending) inputs)
    (reached : run txStep (TxPath.start nic sec wdnSec authIv pending) inputs = some final) :
    Consecutive (numbers final pwdn tid) := by
  have initial : InStep pwdn tid (TxPath.start nic sec wdnSec authIv pending) :=
    ⟨List.isChain_nil, by simp [numbers, TxPath.start]⟩
  exact (eachStep_invariant (InStep pwdn tid) (fun _ _ _ inStep goes => txStep_inStep inStep goes)
    initial goesOut reached).consecutive

/-! A station that sends two packets to its access point. -/

def openSec : TxSec where
  dot11AuthAlgrthm := .openSystem
  dot11PrivacyAlgrthm := .noPrivacy
  dot118021XGrpPrivacy := .noPrivacy
  dot11PrivacyKeyIndex := 0
  busetkipkey := false

def freshWdnSec : TxWdnSec where
  ieee8021xBlocked := false
  dot118021XPrivacy := .noPrivacy
  dot11tkiptxmickey := Vector.replicate 16 0
  dot118021xUncstKey := Vector.replicate 16 0
  dot11txpn := 0
  acmMask := 0

def twoPending : TxPath :=
  TxPath.start (stationNic 256) openSec (fun _ => freshWdnSec) (fun _ => 0)
    [(ipFrame, ipMsdu 4), (ipFrame, ipMsdu 4)]

def turnWriting (accepted : Bool) : WorkerTurn where
  blocked := false
  addBa := false
  bufAddr := 4096
  mem := fun _ => 0
  ioWrite := fun _ => accepted

theorem sequence_numbers_consecutive_station :
    ∃ final, run txStep twoPending [.turn (turnWriting true)] = some final ∧
      numbers final 0 0 = [1] ∧ Consecutive (numbers final 0 0) := by
  have evaluated : (run txStep twoPending [.turn (turnWriting true)]).map
      (fun final => numbers final 0 0) = some [1] := by
    decide +kernel
  rw [Option.map_eq_some_iff] at evaluated
  obtain ⟨final, reached, number⟩ := evaluated
  refine ⟨final, reached, number, sequence_numbers_consecutive 0 0 _ _ _ _ _ _ ?_ reached⟩
  refine ⟨?_, fun _ _ => trivial⟩
  intro pxframe msdu pending attempts _ _ _
  cases attempts.first
  exact ⟨fun tkip => absurd tkip (by decide), fun _ _ _ _ => rfl⟩

/-- The write of the second packet fails once: its number is lost. -/
theorem failed_write_leaves_gap :
    ¬ ∀ inputs final, run txStep twoPending inputs = some final →
      Consecutive (numbers final 0 0) := by
  intro consecutive
  have evaluated : (run txStep twoPending [.turn (turnWriting true),
      .turn (turnWriting false), .turn (turnWriting true)]).map
      (fun final => numbers final 0 0) = some [1, 3] := by
    decide +kernel
  rw [Option.map_eq_some_iff] at evaluated
  obtain ⟨final, reached, gap⟩ := evaluated
  have chain := consecutive _ final reached
  rw [gap] at chain
  exact absurd (List.isChain_pair.mp chain) (by decide)

end Smartchip.Tx
