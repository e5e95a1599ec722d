import Smartchip.Foundation.Overlay
import Smartchip.Foundation.Run
import Smartchip.Hif.Aggregate
import Smartchip.Rx.Dispatch

/-!
# A command to the firmware and its reply

`hif_write_cmd` and the `wf_hif_bulk_cmd_` functions of `os/linux/hif/hif.c`.  The replies come
in with the received packets, and only `cmd_completion` connects one with the caller that
waits.
-/

namespace Smartchip.Hif

open Smartchip.Foundation Smartchip.Rx

/-! ## The buffers -/

def txdescOffsetNew : Nat := 20

def txCmdParamLength : Nat := 12

def rxdescOffsetNew : Nat := 16

def rxCmdParamLength : Nat := 8

/-- What `wf_hif_bulk_enable` allocates for each of the buffers. -/
def cmdBufferSize : Nat := 512

def typeCmd : UInt8 := 0

/-- Where the result words of a reply begin. -/
def resultOffset : Nat := rxdescOffsetNew + rxCmdParamLength

/-- The request in `cmd_snd_buffer`: the descriptor with its checksum, the parameters and the
words. -/
def cmdRequest (snd : Mem) (cmd : UInt32) (sendBuf : List UInt32) (recvLen : UInt32) : Mem :=
  let snd := snd.write 0 (List.replicate (txdescOffsetNew + txCmdParamLength) 0)
  -- `TYPE_CMD` and the command index are 0; `HWSEQ_EN` is bit 18
  let snd := snd.write 2 [0x04]
  let snd := snd.write 8 (le16 (UInt16.ofNat (txCmdParamLength + 4 * sendBuf.length)))
  let snd := wfTxdescChksum true snd
  let snd := snd.write txdescOffsetNew (le32 cmd)
  let snd := snd.write (txdescOffsetNew + 4) (le32 (UInt32.ofNat sendBuf.length))
  let snd := snd.write (txdescOffsetNew + 8) (le32 recvLen)
  snd.write (txdescOffsetNew + txCmdParamLength) (sendBuf.flatMap le32)

def wfRxDataType (pkt : List UInt8) : UInt8 := pkt.getD 0 0 &&& 0x03

def wfRxCmdCheck (pkt : List UInt8) : Bool :=
  let mem : Mem := fun i => pkt.getD i 0
  rxdescSize + rxdBits mem 0 14 4 * 8 + rxdBits mem 4 0 14 - 8 = pkt.length

/-! ## The steps -/

/-- The call that waits for its reply.  `id`, for the specification, tells the commands
apart. -/
structure CmdCall where
  id : Nat
  sendLen : Nat
  recvLen : UInt32

/-- How far `hif_write_cmd` has come. -/
inductive CmdPhase where
  | idle
  | waiting (call : CmdCall)
  | completed (call : CmdCall)

/-- A call that has returned 0: what it has stored in `recv_buf`, and, for the specification,
the replies that had come, the last one first. -/
structure CmdReturn where
  call : CmdCall
  recvBuf : List UInt8
  posted : List (Nat × List UInt8)

/-- The members of `hif_node_st` that the functions use.  For the specification there are the
commands that the firmware has not answered (`outstanding`), the replies that have come, and
what has been asked for and returned. -/
structure CmdLink where
  cmdSndBuffer : Mem
  cmdRcvBuffer : Mem
  done : Nat
  devRemoved : Bool
  bulkEnable : Bool
  phase : CmdPhase
  sent : Nat
  outstanding : List Nat
  posted : List (Nat × List UInt8)
  requested : List CmdCall
  returned : List CmdReturn

inductive CmdEvent where
  | writeCmd (cmd : UInt32) (sendBuf : List UInt32) (recvLen : UInt32) (inserted : Bool)
  | reply (id : Nat) (pkt : List UInt8)
  | timeout
  | wake
  | finish
  | devRemoved
  | postExit

/-- `hif_write_cmd` up to the wait.  `inserted` is whether `wf_tx_queue_insert` returns 0. -/
def beginWriteCmd (s : CmdLink) (cmd : UInt32) (sendBuf : List UInt32) (recvLen : UInt32)
    (inserted : Bool) : CmdLink :=
  if s.devRemoved then s
  else
    let call : CmdCall := ⟨s.sent, sendBuf.length, recvLen⟩
    let s := { s with
      cmdSndBuffer := cmdRequest s.cmdSndBuffer cmd sendBuf recvLen
      done := 0
      requested := s.requested ++ [call] }
    if inserted then { s with
      phase := .waiting call, sent := s.sent + 1, outstanding := s.outstanding ++ [call.id] }
    else s

/-- `wf_hif_bulk_cmd_post`. -/
def wfHifBulkCmdPost (s : CmdLink) (id : Nat) (pkt : List UInt8) : CmdLink :=
  if pkt.length ≤ cmdBufferSize then { s with
    cmdRcvBuffer := s.cmdRcvBuffer.write 0 pkt
    done := s.done + 1
    posted := (id, pkt) :: s.posted }
  else s

/-- A packet that is not of type CMD goes elsewhere, and one whose length is wrong is
dropped. -/
def receiveReply (s : CmdLink) (id : Nat) (pkt : List UInt8) : CmdLink :=
  if id ∈ s.outstanding then
    let s := { s with outstanding := s.outstanding.erase id }
    if wfRxDataType pkt = typeCmd ∧ wfRxCmdCheck pkt then wfHifBulkCmdPost s id pkt else s
  else s

def wfHifBulkCmdPostExit (s : CmdLink) : CmdLink :=
  if s.bulkEnable then { s with done := s.done + 1 } else s

/-- `hif_write_cmd` behind the wait. -/
def finishWriteCmd (s : CmdLink) (call : CmdCall) : CmdLink :=
  if s.cmdRcvBuffer 0 &&& 0x03 ≠ typeCmd then { s with phase := .idle }
  else { s with
    phase := .idle
    returned := s.returned ++ [{
      call
      recvBuf := s.cmdRcvBuffer.read resultOffset (call.recvLen * 4).toNat
      posted := s.posted }] }

def cmdStep (s : CmdLink) : CmdEvent → Option CmdLink
  | .writeCmd cmd sendBuf recvLen inserted =>
      match s.phase with
      | .idle => some (beginWriteCmd s cmd sendBuf recvLen inserted)
      | _ => some s
  | .reply id pkt => some (receiveReply s id pkt)
  | .timeout =>
      match s.phase with
      | .waiting _ => some (if s.done = 0 then { s with phase := .idle } else s)
      | _ => some s
  | .wake =>
      match s.phase with
      | .waiting call =>
          some (if s.done = 0 then s else
            { s with done := s.done - 1, phase := .completed call })
      | _ => some s
  | .finish =>
      match s.phase with
      | .completed call => some (finishWriteCmd s call)
      | _ => some s
  | .devRemoved => some { s with devRemoved := true }
  | .postExit => some (wfHifBulkCmdPostExit s)

/-- Behind `wf_hif_bulk_enable`. -/
def cmdStart : CmdLink where
  cmdSndBuffer := fun _ => 0
  cmdRcvBuffer := fun _ => 0
  done := 0
  devRemoved := false
  bulkEnable := true
  phase := .idle
  sent := 0
  outstanding := []
  posted := []
  requested := []
  returned := []

/-! ## What is to hold -/

/-- The words that a call has stored are those of the reply to its command, and no byte of
them comes from elsewhere. -/
def CmdReturn.Paired (r : CmdReturn) : Prop :=
  r.call.recvLen ≠ 0 → ∃ pkt, (r.call.id, pkt) ∈ r.posted ∧
    resultOffset + 4 * r.call.recvLen.toNat ≤ pkt.length ∧
    r.recvBuf = (pkt.drop resultOffset).take (4 * r.call.recvLen.toNat) ∧
    ∀ i < 4 * r.call.recvLen.toNat, writerOf r.posted (resultOffset + i) = some r.call.id

/-- The request and the reply stay inside the buffers. -/
def CmdCall.Inside (call : CmdCall) : Prop :=
  txdescOffsetNew + txCmdParamLength + 4 * call.sendLen ≤ cmdBufferSize ∧
    resultOffset + 4 * call.recvLen.toNat ≤ cmdBufferSize

structure CmdPaired (s : CmdLink) : Prop where
  returned : ∀ r ∈ s.returned, r.Paired
  requested : ∀ call ∈ s.requested, call.Inside

/-- The reply to this command has come, as long as asked for, and no packet of another one
that is longer than its header has come after it. -/
def ReplyCame (s : CmdLink) (call : CmdCall) : Prop :=
  ∃ pkt newer older, s.posted = newer ++ (call.id, pkt) :: older ∧
    resultOffset + 4 * call.recvLen.toNat ≤ pkt.length ∧
    ∀ other ∈ newer, other.2.length ≤ resultOffset

/-- A command is short enough, and a call that wants words goes on only with the reply to its
command. -/
def ReplyKept (s : CmdLink) : CmdEvent → Prop
  | .writeCmd _ sendBuf recvLen _ => s.phase = .idle → s.devRemoved = false →
      sendBuf.length ≤ 120 ∧ recvLen ≤ 122
  | .finish => ∀ call, s.phase = .completed call → call.recvLen ≠ 0 → ReplyCame s call
  | .reply _ _ | .timeout | .wake | .devRemoved | .postExit => True

structure CmdClean (s : CmdLink) : Prop where
  paired : CmdPaired s
  buffer : s.cmdRcvBuffer = overlay (fun _ => 0) s.posted
  typed : s.cmdRcvBuffer 0 &&& 0x03 = typeCmd
  once : (s.posted.map Prod.fst ++ s.outstanding).Nodup
  known : ∀ id ∈ s.posted.map Prod.fst ++ s.outstanding, id < s.sent
  running : ∀ call, s.phase = .waiting call ∨ s.phase = .completed call → call.Inside

section Steps

variable {s next : CmdLink} {cmd : UInt32} {sendBuf : List UInt32} {recvLen : UInt32}
  {inserted : Bool} {call : CmdCall} {id : Nat} {pkt : List UInt8} {event : CmdEvent}

theorem inside_iff (id : Nat) : (⟨id, sendBuf.length, recvLen⟩ : CmdCall).Inside ↔
    sendBuf.length ≤ 120 ∧ recvLen ≤ 122 := by
  simp only [CmdCall.Inside, txdescOffsetNew, txCmdParamLength, resultOffset, rxdescOffsetNew,
    rxCmdParamLength, cmdBufferSize, UInt32.le_iff_toNat_le, UInt32.reduceToNat]
  omega

/-- What is behind the request in `cmd_snd_buffer` is left alone. -/
theorem cmdRequest_outside (snd : Mem) {i : Nat}
    (beyond : txdescOffsetNew + txCmdParamLength + 4 * sendBuf.length ≤ i) :
    cmdRequest snd cmd sendBuf recvLen i = snd i := by
  have words : (sendBuf.flatMap le32).length = 4 * sendBuf.length := by
    induction sendBuf with
    | nil => rfl
    | cons word sendBuf ih =>
        have rest := ih (by simp only [List.length_cons] at beyond; omega)
        simp only [List.flatMap_cons, List.length_append, length_le32, List.length_cons, rest]
        omega
  simp only [txdescOffsetNew, txCmdParamLength] at beyond
  simp only [cmdRequest, wfTxdescChksum, if_true, txdescOffsetNew, txCmdParamLength]
  repeat rw [Mem.write_after _ (by simp [words]; omega)]

/-- The words are counted without a wrap. -/
theorem CmdCall.Inside.recvSize (inside : call.Inside) :
    (call.recvLen * 4).toNat = 4 * call.recvLen.toNat := by
  have bound := inside.2
  simp only [resultOffset, rxdescOffsetNew, rxCmdParamLength, cmdBufferSize] at bound
  simp only [UInt32.toNat_mul, UInt32.reduceToNat]
  omega

theorem recvSize_pos (words : recvLen ≠ 0) : 0 < recvLen.toNat := by
  rw [Nat.pos_iff_ne_zero]
  intro none
  exact words (UInt32.toNat_inj.mp none)

theorem CmdClean.begin (clean : CmdClean s)
    (short : s.devRemoved = false → sendBuf.length ≤ 120 ∧ recvLen ≤ 122) :
    CmdClean (beginWriteCmd s cmd sendBuf recvLen inserted) := by
  unfold beginWriteCmd
  cases removed : s.devRemoved with
  | true => simpa using clean
  | false =>
      have inside := (inside_iff s.sent).2 (short removed)
      have requested : ∀ call ∈ s.requested ++ [⟨s.sent, sendBuf.length, recvLen⟩],
          call.Inside := by
        simpa [or_imp, forall_and] using ⟨clean.paired.requested, inside⟩
      cases inserted with
      | false => exact { clean with paired := ⟨clean.paired.returned, requested⟩ }
      | true =>
          simp only [Bool.false_eq_true, if_false, if_true]
          constructor
          case paired => exact ⟨clean.paired.returned, requested⟩
          case buffer => exact clean.buffer
          case typed => exact clean.typed
          case once =>
            have new : s.sent ∉ s.posted.map Prod.fst ++ s.outstanding := fun member =>
              Nat.lt_irrefl _ (clean.known _ member)
            have once := clean.once.concat new
            simpa [List.append_assoc] using once
          case known =>
            intro id member
            rw [← List.append_assoc, List.mem_append, List.mem_singleton] at member
            rcases member with before | rfl
            · exact Nat.lt_succ_of_lt (clean.known id before)
            · exact Nat.lt_succ_self _
          case running => simpa using inside

theorem CmdClean.receive (clean : CmdClean s) : CmdClean (receiveReply s id pkt) := by
  unfold receiveReply wfHifBulkCmdPost
  by_cases member : id ∈ s.outstanding
  · have moved : ((id :: s.posted.map Prod.fst) ++ s.outstanding.erase id).Perm
        (s.posted.map Prod.fst ++ s.outstanding) :=
      List.perm_middle.symm.trans ((List.perm_cons_erase member).symm.append_left _)
    have once := moved.nodup_iff.mpr clean.once
    have known : ∀ other ∈ (id :: s.posted.map Prod.fst) ++ s.outstanding.erase id,
        other < s.sent := fun other inside => clean.known other (moved.mem_iff.mp inside)
    have dropped : CmdClean { s with outstanding := s.outstanding.erase id } :=
      { paired := ⟨clean.paired.returned, clean.paired.requested⟩
        buffer := clean.buffer
        typed := clean.typed
        once := once.of_cons
        known := fun other inside => known other (List.mem_cons_of_mem _ inside)
        running := clean.running }
    simp only [member, if_true]
    split_ifs with passes fits
    · constructor
      case paired => exact ⟨clean.paired.returned, clean.paired.requested⟩
      case buffer => simp [clean.buffer]
      case typed =>
        cases pkt with
        | nil => simpa using clean.typed
        | cons byte pkt => simpa [Mem.write, wfRxDataType] using passes.1
      case once => exact once
      case known => exact known
      case running => exact clean.running
    · exact dropped
    · exact dropped
  · simpa [member] using clean

/-- What a call stores is that of its reply exactly when the reply is still in the buffer. -/
theorem CmdClean.paired_iff (clean : CmdClean s) (running : s.phase = .completed call) :
    CmdReturn.Paired ⟨call, s.cmdRcvBuffer.read resultOffset (call.recvLen * 4).toNat,
      s.posted⟩ ↔ (call.recvLen ≠ 0 → ReplyCame s call) := by
  have size := (clean.running call (.inr running)).recvSize
  have labels := clean.once.of_append_left
  simp only [CmdReturn.Paired, ReplyCame]
  apply imp_congr_right
  intro words
  have some_byte := recvSize_pos words
  constructor
  · rintro ⟨-, -, -, -, whole⟩
    obtain ⟨bytes, newer, older, split, long, short⟩ := uncovered_of_writerOf labels
      (show resultOffset < resultOffset + 4 * call.recvLen.toNat by omega)
      (fun i low high => by
        obtain ⟨k, rfl⟩ := Nat.exists_eq_add_of_le low
        exact whole k (by omega))
    exact ⟨bytes, newer, older, split, long, short⟩
  · rintro ⟨pkt, newer, older, split, long, short⟩
    have shown : Uncovered s.posted call.id pkt resultOffset
        (resultOffset + 4 * call.recvLen.toNat) := ⟨newer, older, split, long, short⟩
    refine ⟨pkt, by simp [split], long, ?_, ?_⟩
    · rw [clean.buffer, size]
      exact shown.read (Nat.le_refl _)
    · intro i inside
      exact shown.writerOf (Nat.le_add_right _ _) (by omega)

theorem CmdClean.finish (clean : CmdClean s) (running : s.phase = .completed call)
    (came : call.recvLen ≠ 0 → ReplyCame s call) : CmdClean (finishWriteCmd s call) := by
  have paired := (clean.paired_iff running).2 came
  simp only [finishWriteCmd, clean.typed, ne_eq, not_true_eq_false, if_false]
  constructor
  case paired =>
    refine ⟨?_, clean.paired.requested⟩
    simpa [or_imp, forall_and] using ⟨clean.paired.returned, paired⟩
  case buffer => exact clean.buffer
  case typed => exact clean.typed
  case once => exact clean.once
  case known => exact clean.known
  case running => simp

theorem CmdClean.idle (clean : CmdClean s) : CmdClean { s with phase := .idle } :=
  { clean with
    paired := ⟨clean.paired.returned, clean.paired.requested⟩
    running := by simp }

theorem CmdClean.step (clean : CmdClean s) (allowed : ReplyKept s event) :
    ∃ next, cmdStep s event = some next ∧ CmdClean next := by
  cases event with
  | writeCmd cmd sendBuf recvLen inserted =>
      cases phase : s.phase with
      | idle =>
          exact ⟨beginWriteCmd s cmd sendBuf recvLen inserted, by simp only [cmdStep, phase],
            clean.begin (allowed phase)⟩
      | waiting call => exact ⟨s, by simp only [cmdStep, phase], clean⟩
      | completed call => exact ⟨s, by simp only [cmdStep, phase], clean⟩
  | reply id pkt => exact ⟨_, rfl, clean.receive⟩
  | timeout =>
      cases phase : s.phase with
      | idle => exact ⟨s, by simp only [cmdStep, phase], clean⟩
      | waiting call =>
          refine ⟨_, by simp only [cmdStep, phase]; rfl, ?_⟩
          split_ifs
          · exact clean.idle
          · exact clean
      | completed call => exact ⟨s, by simp only [cmdStep, phase], clean⟩
  | wake =>
      cases phase : s.phase with
      | idle => exact ⟨s, by simp only [cmdStep, phase], clean⟩
      | waiting call =>
          refine ⟨_, by simp only [cmdStep, phase]; rfl, ?_⟩
          split_ifs
          · exact clean
          · have inside := clean.running call (.inl phase)
            exact { clean with
              paired := ⟨clean.paired.returned, clean.paired.requested⟩
              running := by simpa using inside }
      | completed call => exact ⟨s, by simp only [cmdStep, phase], clean⟩
  | finish =>
      cases phase : s.phase with
      | idle => exact ⟨s, by simp only [cmdStep, phase], clean⟩
      | waiting call => exact ⟨s, by simp only [cmdStep, phase], clean⟩
      | completed call =>
          exact ⟨_, by simp only [cmdStep, phase], clean.finish phase (allowed call phase)⟩
  | devRemoved =>
      exact ⟨_, rfl, { clean with paired := ⟨clean.paired.returned, clean.paired.requested⟩ }⟩
  | postExit =>
      refine ⟨_, rfl, ?_⟩
      unfold wfHifBulkCmdPostExit
      split_ifs
      · exact { clean with paired := ⟨clean.paired.returned, clean.paired.requested⟩ }
      · exact clean

theorem CmdClean.refused (clean : CmdClean s) (refused : ¬ ReplyKept s event)
    (steps : cmdStep s event = some next) : ¬ CmdPaired next := by
  cases event with
  | writeCmd cmd sendBuf recvLen inserted =>
      simp only [ReplyKept, Classical.not_imp] at refused
      obtain ⟨idle, present, long⟩ := refused
      simp only [cmdStep, idle, Option.some.injEq] at steps
      intro paired
      have asked : ⟨s.sent, sendBuf.length, recvLen⟩ ∈ next.requested := by
        rw [← steps]
        cases inserted <;> simp [beginWriteCmd, present]
      exact long ((inside_iff s.sent).1 (paired.requested _ asked))
  | finish =>
      simp only [ReplyKept, not_forall] at refused
      obtain ⟨call, running, words, lost⟩ := refused
      simp only [cmdStep, running, finishWriteCmd, clean.typed, ne_eq, not_true_eq_false,
        if_false, Option.some.injEq] at steps
      intro paired
      have last := paired.returned _ (by rw [← steps]; exact List.mem_concat_self)
      exact lost ((clean.paired_iff running).1 last words)
  | reply id pkt => exact absurd trivial refused
  | timeout => exact absurd trivial refused
  | wake => exact absurd trivial refused
  | devRemoved => exact absurd trivial refused
  | postExit => exact absurd trivial refused

theorem cmdStart_clean : CmdClean cmdStart := by
  constructor
  case paired => constructor <;> simp [cmdStart]
  case buffer => rfl
  all_goals simp [cmdStart, typeCmd]

end Steps

/-- A call that returns 0 has the words of the reply to its command, and everything stays
inside the buffers, exactly when the commands are short enough and no call goes on without its
reply. -/
theorem cmd_replies_paired_iff (events : List CmdEvent) :
    Throughout cmdStep CmdPaired cmdStart events ↔
      EachStep cmdStep ReplyKept cmdStart events := by
  apply throughout_iff_of_clean CmdClean
  · exact fun s clean => clean.paired
  · exact fun s event clean allowed => clean.step allowed
  · exact fun s event next clean refused steps => clean.refused refused steps
  · exact cmdStart_clean

/-- A reply with a descriptor, two parameters and one word. -/
def oneWord (byte : UInt8) : List UInt8 :=
  [0, 0, 0, 0, 12, 0, 0, 0, 0, 0, 0, 0, 0, 0, 0, 0] ++ List.replicate 8 0 ++ [byte, 0, 0, 0]

/-- The reply to the first command comes when the second one waits. -/
def lateReply : List CmdEvent :=
  [.writeCmd 1 [] 1 true, .timeout, .writeCmd 2 [] 1 true, .reply 0 (oneWord 7), .wake, .finish]

/-- The device is removed while a command waits. -/
def removedWaiting : List CmdEvent :=
  [.writeCmd 1 [] 1 true, .devRemoved, .postExit, .wake, .finish]

/-- The reply has no words. -/
def shortReply : List CmdEvent :=
  [.writeCmd 1 [] 1 true,
    .reply 0 ([0, 0, 0, 0, 8, 0, 0, 0, 0, 0, 0, 0, 0, 0, 0, 0] ++ List.replicate 8 0), .wake,
    .finish]

theorem not_paired_of_writer {events : List CmdEvent} (id : Nat) (recvBuf : List UInt8)
    (writer : Option Nat) (apart : writer ≠ some id)
    (ends : (run cmdStep cmdStart events).map (fun s => s.returned.map fun r =>
      ((r.call.id, r.call.recvLen), r.recvBuf, writerOf r.posted resultOffset)) =
      some [((id, 1), recvBuf, writer)]) : ¬ Throughout cmdStep CmdPaired cmdStart events := by
  intro throughout
  obtain ⟨final, paired, seen⟩ := throughout.observed ends
  obtain ⟨r, only, same⟩ := List.map_eq_singleton_iff.mp seen
  simp only [Prod.mk.injEq] at same
  obtain ⟨⟨rfl, words⟩, -, rfl⟩ := same
  obtain ⟨pkt, -, -, -, whole⟩ := paired.returned r (by simp [only]) (by simp [words])
  exact apart (whole 0 (by simp [words]))

/-- The second command returns the word of the first one's reply, a command that waits when the
device is removed returns what was in the buffer, and so does one with a short reply; and a
reply of 200 words is asked for. -/
theorem cmd_reply_stale :
    (run cmdStep cmdStart lateReply).map (fun s => s.returned.map fun r =>
        ((r.call.id, r.call.recvLen), r.recvBuf, writerOf r.posted resultOffset)) =
        some [((1, 1), [7, 0, 0, 0], some 0)] ∧
      ¬ Throughout cmdStep CmdPaired cmdStart lateReply ∧
      ¬ Throughout cmdStep CmdPaired cmdStart removedWaiting ∧
      ¬ Throughout cmdStep CmdPaired cmdStart shortReply ∧
      ¬ Throughout cmdStep CmdPaired cmdStart [.writeCmd 1 [0] 200 true] := by
  have late : (run cmdStep cmdStart lateReply).map (fun s => s.returned.map fun r =>
      ((r.call.id, r.call.recvLen), r.recvBuf, writerOf r.posted resultOffset)) =
      some [((1, 1), [7, 0, 0, 0], some 0)] := by decide +kernel
  refine ⟨late, not_paired_of_writer 1 [7, 0, 0, 0] (some 0) (by simp) late, ?_, ?_, ?_⟩
  · exact not_paired_of_writer 0 [0, 0, 0, 0] none (by simp) (by decide +kernel)
  · exact not_paired_of_writer 0 [0, 0, 0, 0] none (by simp) (by decide +kernel)
  · intro throughout
    obtain ⟨final, reached, paired⟩ := throughout.final
    cases reached
    have inside := (paired.requested ⟨0, 1, 200⟩ (by simp [beginWriteCmd, cmdStart])).2
    revert inside
    decide

end Smartchip.Hif
