import Smartchip.Ap.SharedKey

/-!
# Which frame a reply answers

A reply has the transaction number behind that of the frame it answers, and no frame is
answered with success twice.  The thread looks at the number of a frame only where it
begins and where it waits for the third frame, and the third frame is still at the head of
the queue when the thread looks for a duplicate.
-/

namespace Smartchip.Ap

open Smartchip.Foundation Smartchip.Frame Smartchip.Sec

/-- The transaction number of a frame; that of a protected frame is in its body. -/
def transaction (keys : SecInfo) (frame : List UInt8) : Option UInt16 :=
  if le16At frame 0 &&& 0x4000 = 0 then
    if 28 ≤ frame.length then some (le16At frame 26) else none
  else if 36 ≤ frame.length then (wepBody keys frame).map fun body => le16At body 2
  else none

/-- The frames that have been answered with success. -/
def successIds (sent : List SentReply) : List (Option Nat) :=
  (sent.filter fun r => r.reply.statusCode = statusSuccess).map fun r =>
    r.answers.map Received.id

structure RepliesMatch (keys : SecInfo) (sent : List SentReply) : Prop where
  answers : none ∉ successIds sent
  distinct : (successIds sent).Nodup
  numbers : ∀ r ∈ sent, ∀ request ∈ r.answers, ∀ n ∈ transaction keys request.frame,
    r.reply.authTransaction.toNat = n.toNat + 1

/-- The transaction number that the reply to an authentication frame fits. -/
def expected (sec : AuthSec) (w : AuthWdn) (pc : AuthPc) (msg : ApMsg) : UInt16 :=
  if pc = .seq4Done ∨ pc = .seq3 ∧ acceptsSeq3 sec w msg = true then 3 else 1

/-- The authentication frame at the head of the queue has the number that the reply fits,
and sequence 4 has not been sent for it before. -/
def Answerable (sec : AuthSec) (s : AuthSystem) : AuthEvent → Prop
  | .thrd a => s.ret = .waiting → a.sent = true →
      ∀ head ∈ s.que.head?, head.msg.tag = .authFrame →
        (∀ n ∈ transaction sec.keys head.frame, n = expected sec s.wdn s.pc head.msg) ∧
          (s.pc = .seq4Done → some head.id ∉ successIds s.sent)
  | .recv _ _ _ => True

/-! ## The replies of a step -/

/-- What a step of the thread can send. -/
structure ReplyMove (sec : AuthSec) (w : AuthWdn) (pc : AuthPc) (head : Option ApMsg)
    (a : AuthAnswers) (out : AuthOut) : Prop where
  unsent : a.sent = false → out.reply = none
  failure : (∀ msg ∈ head, msg.tag ≠ .authFrame) →
    ∀ r ∈ out.reply, r.statusCode ≠ statusSuccess
  number : ∀ msg ∈ head, msg.tag = .authFrame → ∀ r ∈ out.reply,
    r.authTransaction.toNat = (expected sec w pc msg).toNat + 1
  silent : a.sent = true → ∀ msg ∈ head, msg.tag = .authFrame → out.reply = none →
    pc = .seq3 ∧ getHdrProtected msg.mgmt 0 = true ∧ msg.len.toNat < 32
  again : pc = .seq4Done → ∀ msg ∈ head, msg.tag = .authFrame → ∀ r ∈ out.reply,
    r.statusCode = statusSuccess
  frees : out.ret = .waiting → out.pc ≠ .seq4Done → out.reply.isSome → out.freed = true

section Steps

variable {sec : AuthSec} {w : AuthWdn} {a : AuthAnswers} {msg : ApMsg} {pc : AuthPc}
  {head : Option ApMsg}

theorem authSend_sent {status : UInt16} {r : AuthReply} (sends : r ∈ authSend w a status) :
    a.sent = true ∧ r.authTransaction = w.authSeq ∧ r.statusCode = status := by
  unfold authSend at sends
  by_cases sent : a.sent = true
  · rw [if_pos sent] at sends
    cases sends
    exact ⟨sent, rfl, rfl⟩
  · rw [if_neg sent] at sends
    cases sends

theorem authSend_isSome {status : UInt16} (sent : a.sent = true) :
    authSend w a status ≠ none := by
  simp [authSend, sent]

/-- The thread leaves with an error; the reply has the number 2. -/
theorem replyMove_error {freed : Bool} {status : UInt16} (bad : status ≠ statusSuccess)
    (early : pc ≠ .seq4Done ∨ head = none)
    (first : ∀ msg ∈ head, msg.tag = .authFrame → expected sec w pc msg = 1)
    {v : AuthWdn} : ReplyMove sec w pc head a (statusError v pc a freed status) where
  unsent off := by simp [statusError, authSend, off]
  failure _ r sends := by rwa [(authSend_sent sends).2.2]
  number msg isHead tag r sends := by
    rw [(authSend_sent sends).2.1, first msg isHead tag]
    rfl
  silent on _ _ _ none := absurd none (authSend_isSome on)
  again here msg isHead := by
    rcases early with elsewhere | empty
    · exact absurd here elsewhere
    · rw [empty] at isHead
      cases isHead
  frees waits := by cases waits

/-- The thread sends success for the authentication frame at the head. -/
theorem replyMove_success {next : AuthPc} {seq : UInt16} {freed : Bool} {mgmt : Option Mem}
    (isHead : head = some msg) (tag : msg.tag = .authFrame)
    (fits : seq.toNat = (expected sec w pc msg).toNat + 1)
    (frees : next ≠ .seq4Done → freed = true) {v : AuthWdn} :
    ReplyMove sec w pc head a (sendSuccess v next a seq freed mgmt) where
  unsent off := by simp [sendSuccess, authSend, off]
  failure other := absurd tag (other msg isHead)
  number other same _ r sends := by
    rw [isHead] at same
    cases same
    rw [(authSend_sent sends).2.1]
    exact fits
  silent on _ _ _ none := absurd none (authSend_isSome on)
  again _ _ _ _ r sends := (authSend_sent sends).2.2
  frees _ elsewhere _ := frees elsewhere

theorem replyMove_quiet {out : AuthOut} (none : out.reply = none)
    (other : ∀ msg ∈ head, msg.tag = .authFrame →
      pc = .seq3 ∧ getHdrProtected msg.mgmt 0 = true ∧ msg.len.toNat < 32) :
    ReplyMove sec w pc head a out where
  unsent _ := none
  failure _ r sends := by simp [none] at sends
  number _ _ _ r sends := by simp [none] at sends
  silent _ msg isHead tag _ := other msg isHead tag
  again _ _ _ _ r sends := by simp [none] at sends
  frees _ _ sends := by simp [none] at sends

theorem recvSeq1_replyMove (isHead : head = some msg) :
    ReplyMove sec w .seq1 head a (recvSeq1 sec w msg a) := by
  have first : ∀ msg ∈ head, msg.tag = .authFrame → expected sec w .seq1 msg = 1 :=
    fun msg _ _ => rfl
  have early : AuthPc.seq1 ≠ .seq4Done ∨ head = none := .inl (by decide)
  unfold recvSeq1
  dsimp only
  split_ifs with tag seq refused isOpen
  · refine replyMove_quiet rfl fun other same => ?_
    rw [isHead] at same
    cases same
    exact fun auth => absurd auth tag
  · exact replyMove_error (by decide) early first
  · exact replyMove_error (by decide) early first
  · exact replyMove_success isHead (not_not.mp tag) rfl fun _ => rfl
  · exact replyMove_success isHead (not_not.mp tag) rfl fun _ => rfl

theorem recvSeq3_replyMove (isHead : head = some msg) :
    ReplyMove sec w .seq3 head a (recvSeq3 sec w msg a) := by
  by_cases accepts : acceptsSeq3 sec w msg = true
  · obtain ⟨mgmt, third⟩ := recvSeq3_of_accepts (a := a) accepts
    have tag : msg.tag = .authFrame := by
      simp only [acceptsSeq3, Bool.and_eq_true, decide_eq_true_eq] at accepts
      exact accepts.1.1
    rw [third]
    refine replyMove_success isHead tag ?_ fun elsewhere => absurd rfl elsewhere
    simp [expected, accepts]
  · have first : ∀ other ∈ head, other.tag = .authFrame → expected sec w .seq3 other = 1 := by
      intro other same _
      rw [isHead] at same
      cases same
      simp [expected, accepts]
    have early : AuthPc.seq3 ≠ .seq4Done ∨ head = none := .inl (by decide)
    unfold recvSeq3
    split_ifs with tag plain
    · exact replyMove_error (by decide) early first
    · exact replyMove_error (by decide) early first
    · split
      · rename_i runaway
        refine replyMove_quiet rfl fun other same _ => ?_
        rw [isHead] at same
        cases same
        unfold wfWepDecryptAuth payloadOfs at runaway
        dsimp only at runaway
        split_ifs at runaway with short
        exact ⟨rfl, by simpa using plain, short⟩
      · exact replyMove_error (by decide) early first
      · rename_i mgmt decrypted
        split_ifs with number alg text
        · exact replyMove_error (by decide) early first
        · exact replyMove_error (by decide) early first
        · exact replyMove_error (by decide) early first
        · simp_all [acceptsSeq3]

theorem recvAgain_replyMove {seq : UInt16} (isHead : head = some msg)
    (fits : seq.toNat = (expected sec w pc msg).toNat + 1) :
    ReplyMove sec w pc head a (recvAgain w pc msg a seq) := by
  unfold recvAgain
  split_ifs with tag
  · exact replyMove_success isHead tag fits fun _ => rfl
  · refine replyMove_quiet rfl fun other same => ?_
    rw [isHead] at same
    cases same
    exact fun auth => absurd auth tag

theorem noMsg_replyMove : ReplyMove sec w pc none a (noMsg w pc a) := by
  unfold noMsg
  split_ifs
  · exact replyMove_error (by decide) (.inr rfl) (by simp)
  · exact replyMove_quiet rfl (by simp)

theorem wfAuthApThrd_replyMove : ReplyMove sec w pc head a (wfAuthApThrd sec w pc head a) := by
  unfold wfAuthApThrd
  cases head with
  | none => exact noMsg_replyMove
  | some msg =>
      cases pc with
      | seq1 => exact recvSeq1_replyMove rfl
      | noAuth => exact recvAgain_replyMove rfl rfl
      | seq3 => exact recvSeq3_replyMove rfl
      | seq4Done => exact recvAgain_replyMove rfl rfl

end Steps

/-! ## Runs -/

/-- Frames are numbered as they come, and what has been answered is not behind what is
still in the queue. -/
structure ReplyOk (s : AuthSystem) : Prop where
  filled : QueFilled s
  sorted : (s.que.map Received.id).Pairwise (· < ·)
  below : ∀ id ∈ s.que.map Received.id, id < s.received
  old : ∀ id, some id ∈ successIds s.sent → id < s.received ∧
    ∀ later ∈ s.que.map Received.id, id ≤ later
  unanswered : s.ret = .waiting → s.pc ≠ .seq4Done →
    ∀ id, some id ∈ successIds s.sent → ∀ later ∈ s.que.map Received.id, id < later

/-- The new reply keeps what the replies have to meet. -/
structure NewReply (keys : SecInfo) (sent : List SentReply) (r : SentReply) : Prop where
  answers : r.reply.statusCode = statusSuccess →
    r.answers ≠ none ∧ r.answers.map Received.id ∉ successIds sent
  number : ∀ request ∈ r.answers, ∀ n ∈ transaction keys request.frame,
    r.reply.authTransaction.toNat = n.toNat + 1

@[simp] theorem successIds_append (sent : List SentReply) (r : SentReply) :
    successIds (sent ++ [r]) =
      successIds sent ++
        if r.reply.statusCode = statusSuccess then [r.answers.map Received.id] else [] := by
  by_cases success : r.reply.statusCode = statusSuccess
  · simp [successIds, success]
  · simp [successIds, success]

theorem repliesMatch_append {keys : SecInfo} {sent : List SentReply} {r : SentReply}
    (good : RepliesMatch keys sent) :
    RepliesMatch keys (sent ++ [r]) ↔ NewReply keys sent r := by
  constructor
  · rintro ⟨answers, distinct, numbers⟩
    refine ⟨fun success => ?_, numbers r (by simp)⟩
    rw [successIds_append, if_pos success] at answers distinct
    constructor
    · intro none
      simp [none] at answers
    · intro before
      exact (List.nodup_append.mp distinct).2.2 _ before _ (by simp) rfl
  · rintro ⟨answers, number⟩
    refine ⟨?_, ?_, ?_⟩
    · rw [successIds_append]
      split_ifs with success
      · simpa [good.answers, eq_comm] using (answers success).1
      · simpa using good.answers
    · rw [successIds_append]
      split_ifs with success
      · refine List.nodup_append.mpr ⟨good.distinct, by simp, ?_⟩
        intro id before new member same
        rw [same, List.mem_singleton.mp member] at before
        exact (answers success).2 before
      · simpa using good.distinct
    · intro other member
      rcases List.mem_append.mp member with before | new
      · exact good.numbers other before
      · rw [List.mem_singleton.mp new]
        exact number

/-- A frame without its own number has not been decrypted. -/
theorem transaction_of_runaway {keys : SecInfo} {r : Received} (filled : Filled r)
    (tag : r.msg.tag = .authFrame) (protects : getHdrProtected r.msg.mgmt 0 = true)
    (short : r.msg.len.toNat < 32) : transaction keys r.frame = none := by
  obtain ⟨msg, frame, id, fresh⟩ := r
  obtain ⟨small, stale, same⟩ := filled
  dsimp only at small same tag protects short ⊢
  rw [tag] at small same
  have below : frame.length ≤ 180 := small
  have size : msg.len.toNat = frame.length := by
    rw [same]
    exact UInt16.toNat_ofNat_of_lt' (Nat.lt_of_le_of_lt below (by decide))
  unfold transaction
  split_ifs with plain long long
  · rw [same] at protects
    exact absurd plain ((getHdrProtected_write (by omega)).mp protects)
  · rfl
  · omega
  · rfl

section Run

variable {sec : AuthSec} {s : AuthSystem} {a : AuthAnswers}

theorem ids_queAfter (que : List Received) (out : AuthOut) :
    (queAfter que out).map Received.id =
      if out.freed = true then (que.map Received.id).tail else que.map Received.id := by
  unfold queAfter
  split_ifs
  · simp
  · split
    · rfl
    · rfl

theorem answered_eq_some {que : List Received} {request : Received}
    (found : answered que = some request) :
    que.head? = some request ∧ request.msg.tag = .authFrame := by
  simpa [answered, Option.filter_eq_some_iff] using found

/-- The condition is exactly that the reply of the step is a right one. -/
theorem answerable_iff (ok : ReplyOk s) (waits : s.ret = .waiting) :
    Answerable sec s (.thrd a) ↔
      ∀ reply ∈ (wfAuthApThrd sec s.wdn s.pc (s.que.head?.map Received.msg) a).reply,
        NewReply sec.keys s.sent ⟨answered s.que, reply⟩ := by
  have move : ReplyMove sec s.wdn s.pc (s.que.head?.map Received.msg) a
      (wfAuthApThrd sec s.wdn s.pc (s.que.head?.map Received.msg) a) :=
    wfAuthApThrd_replyMove
  generalize wfAuthApThrd sec s.wdn s.pc (s.que.head?.map Received.msg) a = out at move ⊢
  constructor
  · intro allowed reply sends
    have on : a.sent = true := by
      by_contra off
      rw [move.unsent (by simpa using off)] at sends
      cases sends
    have fits := allowed waits on
    refine ⟨fun success => ?_, fun request isRequest n number => ?_⟩
    · cases found : answered s.que with
      | none =>
          refine absurd success (move.failure (fun msg isHead tag => ?_) reply sends)
          obtain ⟨r, first, same⟩ := Option.map_eq_some_iff.mp isHead
          subst same
          simp [answered, first, tag] at found
      | some request =>
          obtain ⟨first, tag⟩ := answered_eq_some found
          refine ⟨by simp, fun before => ?_⟩
          by_cases done : s.pc = .seq4Done
          · exact (fits request first tag).2 done before
          · have strict := ok.unanswered waits done request.id before request.id
              (List.mem_map_of_mem (List.mem_of_head? first))
            exact absurd strict (lt_irrefl _)
    · obtain ⟨first, tag⟩ := answered_eq_some isRequest
      rw [(fits request first tag).1 n number]
      exact move.number request.msg (by simp [first]) tag reply sends
  · intro good _ on head isHead tag
    have found : answered s.que = some head := by
      simp [answered, Option.mem_def.mp isHead, tag]
    have isMsg : head.msg ∈ s.que.head?.map Received.msg := by
      rw [Option.mem_def.mp isHead]
      rfl
    cases sends : out.reply with
    | none =>
        obtain ⟨here, protects, short⟩ := move.silent on head.msg isMsg tag sends
        have filled := ok.filled (by simp [here]) head (List.mem_of_head? isHead)
        constructor
        · rw [transaction_of_runaway filled tag protects short]
          exact fun n none => by cases none
        · intro done
          cases here.symm.trans done
    | some reply =>
        have new := good reply sends
        constructor
        · intro n number
          have behind := new.number head found n number
          dsimp only at behind
          rw [move.number head.msg isMsg tag reply sends, Nat.add_right_cancel_iff] at behind
          exact (UInt16.toNat_inj.mp behind).symm
        · intro done
          have success := move.again done head.msg isMsg tag reply sends
          have fresh := (new.answers success).2
          simpa [found] using fresh

theorem ReplyOk.runThrd (ok : ReplyOk s) (waits : s.ret = .waiting) :
    ReplyOk (runThrd sec s a) := by
  have move : ReplyMove sec s.wdn s.pc (s.que.head?.map Received.msg) a
      (wfAuthApThrd sec s.wdn s.pc (s.que.head?.map Received.msg) a) :=
    wfAuthApThrd_replyMove
  have stays := (wfAuthApThrd_keyMove sec s.wdn s.pc (s.que.head?.map Received.msg) a).stays
  have filled : QueFilled (Ap.runThrd sec s a) := ok.filled.runThrd
  unfold Ap.runThrd at filled ⊢
  dsimp only at filled ⊢
  generalize wfAuthApThrd sec s.wdn s.pc (s.que.head?.map Received.msg) a = out
    at move stays filled ⊢
  have part : ((queAfter s.que out).map Received.id).Sublist (s.que.map Received.id) := by
    rw [ids_queAfter]
    split_ifs
    · exact List.tail_sublist _
    · exact List.Sublist.refl _
  -- a frame that has just been answered is the first one of the queue
  have new : ∀ id, some id ∈ successIds (s.sent ++
      (out.reply.map fun reply => ⟨answered s.que, reply⟩).toList) →
      some id ∈ successIds s.sent ∨
        out.reply.isSome = true ∧ ∃ rest, s.que.map Received.id = id :: rest := by
    intro id member
    cases sends : out.reply with
    | none => exact .inl (by simpa [sends] using member)
    | some reply =>
        simp only [sends, Option.map_some, Option.toList_some, successIds_append,
          List.mem_append] at member
        refine member.imp_right fun last => ⟨rfl, ?_⟩
        split_ifs at last with success
        · rw [List.mem_singleton] at last
          obtain ⟨request, found, same⟩ := Option.map_eq_some_iff.mp last.symm
          obtain ⟨rest, split⟩ := List.head?_eq_some_iff.mp (answered_eq_some found).1
          exact ⟨rest.map Received.id, by rw [split, List.map_cons, same]⟩
        · cases last
  refine ⟨filled, ok.sorted.sublist part, fun id member => ok.below id (part.subset member),
    fun id member => ?_, fun still elsewhere id member later inside => ?_⟩
  · rcases new id member with before | ⟨-, rest, first⟩
    · obtain ⟨below, behind⟩ := ok.old id before
      exact ⟨below, fun later inside => behind later (part.subset inside)⟩
    · have sorted := ok.sorted
      rw [first, List.pairwise_cons] at sorted
      refine ⟨ok.below id (by rw [first]; exact List.mem_cons_self), fun later inside => ?_⟩
      have member := part.subset inside
      rw [first] at member
      rcases List.mem_cons.mp member with same | behind
      · exact same.ge
      · exact (sorted.1 later behind).le
  · have earlier : s.pc ≠ .seq4Done := fun done => elsewhere (stays done)
    rcases new id member with before | ⟨sends, rest, first⟩
    · exact ok.unanswered waits earlier id before later (part.subset inside)
    · have freed := move.frees still elsewhere sends
      have sorted := ok.sorted
      rw [first, List.pairwise_cons] at sorted
      rw [ids_queAfter, if_pos freed, first] at inside
      exact sorted.1 later inside

theorem ReplyOk.recvFrame (ok : ReplyOk s) (tag : ApMsgTag) (frame : List UInt8)
    (stale : Mem) : ReplyOk (recvFrame s tag frame stale) := by
  have filled : QueFilled (Ap.recvFrame s tag frame stale) :=
    ok.filled.recvFrame tag frame stale
  unfold Ap.recvFrame at filled ⊢
  by_cases short : frame.length ≤ tag.sizeMax
  · rw [if_pos short] at filled ⊢
    refine ⟨filled, ?_, ?_, fun id member => ?_, fun waits elsewhere id member later => ?_⟩
    · simp only [List.map_append, List.map_cons, List.map_nil]
      refine List.pairwise_append.mpr ⟨ok.sorted, List.pairwise_singleton _ _, ?_⟩
      intro id member new same
      rw [List.mem_singleton.mp same]
      exact ok.below id member
    · intro id member
      simp only [List.map_append, List.map_cons, List.map_nil, List.mem_append,
        List.mem_singleton] at member
      rcases member with before | new
      · exact Nat.lt_succ_of_lt (ok.below id before)
      · rw [new]
        exact Nat.lt_succ_self _
    · obtain ⟨below, behind⟩ := ok.old id member
      refine ⟨Nat.lt_succ_of_lt below, fun later inside => ?_⟩
      simp only [List.map_append, List.map_cons, List.map_nil, List.mem_append,
        List.mem_singleton] at inside
      rcases inside with before | new
      · exact behind later before
      · rw [new]
        exact below.le
    · intro inside
      simp only [List.map_append, List.map_cons, List.map_nil, List.mem_append,
        List.mem_singleton] at inside
      rcases inside with before | new
      · exact ok.unanswered waits elsewhere id member later before
      · rw [new]
        exact (ok.old id member).1
  · rw [if_neg short]
    exact ok

theorem replyOk_start : ReplyOk authStart where
  filled _ r inside := by cases inside
  sorted := List.Pairwise.nil
  below id inside := by cases inside
  old id inside := by cases inside
  unanswered _ _ id inside := by cases inside

theorem recvFrame_sent (tag : ApMsgTag) (frame : List UInt8) (stale : Mem) :
    (recvFrame s tag frame stale).sent = s.sent := by
  unfold recvFrame
  split_ifs <;> rfl

/-- In every run the replies match the frames exactly when each of its steps answers a
frame with the number that the reply fits, and not the third frame once more. -/
theorem auth_replies_match_iff (sec : AuthSec) (events : List AuthEvent) :
    Throughout (authStep sec) (fun s => RepliesMatch sec.keys s.sent) authStart events ↔
      EachStep (authStep sec) (Answerable sec) authStart events := by
  refine throughout_iff_eachStep ReplyOk ?_ ?_ replyOk_start ?_
  · intro s next event ok stepped
    cases event with
    | thrd a =>
        cases stepped
        split_ifs with waits
        · exact ok.runThrd waits
        · exact ok
    | recv tag frame stale =>
        cases stepped
        exact ok.recvFrame tag frame stale
  · intro s event ok good
    cases event with
    | thrd a =>
        simp only [authStep, Option.some.injEq, exists_eq_left']
        by_cases waits : s.ret = .waiting
        · rw [if_pos waits, answerable_iff ok waits]
          unfold runThrd
          dsimp only
          cases (wfAuthApThrd sec s.wdn s.pc (s.que.head?.map Received.msg) a).reply with
          | none => simpa using good
          | some reply => simpa using (repliesMatch_append good).symm
        · rw [if_neg waits]
          exact iff_of_true (fun still => absurd still waits) good
    | recv tag frame stale =>
        simp only [authStep, Option.some.injEq, exists_eq_left', recvFrame_sent]
        exact iff_of_true trivial good
  · exact ⟨by simp [authStart, successIds], List.nodup_nil, by simp [authStart]⟩

/-- A third frame that passes the checks is answered twice. -/
theorem twice_answered {frame : List UInt8} {stale : Mem} (waits : s.ret = .waiting)
    (here : s.pc = .seq3) (empty : s.que = []) (challenged : s.challenged = true)
    (short : frame.length ≤ 180)
    (accepts : acceptsSeq3 sec s.wdn (fillMsg stale .authFrame frame) = true) :
    ∃ final, run (authStep sec) s (answerRun frame stale) = some final ∧
      successIds final.sent =
        successIds s.sent ++ [some s.received, some s.received] := by
  obtain ⟨mgmt, third⟩ := recvSeq3_of_accepts (a := authCall) accepts
  have sent : authCall.sent = true := rfl
  simp [answerRun, authStep, recvFrame, ApMsgTag.sizeMax, short, empty, challenged, waits,
    runThrd, here, wfAuthApThrd, third, sendSuccess, queAfter, recvAgain, stay, authSend,
    sent, answered, successIds, Option.filter_some]

end Run

/-- The authentication with the shared key succeeds, and sequence 4 is sent twice. -/
theorem auth_replies_not_match :
    ¬ Throughout (authStep sharedKeySec) (fun s => RepliesMatch sharedKeySec.keys s.sent)
      authStart (challengeRun ++ answerRun wholeFrame fun _ => 0) := by
  intro right
  obtain ⟨waits, here, empty, challenged, -⟩ := challengedSystem_facts
  have size : wholeFrame.length = seq3Size := by
    simp [wholeFrame, length_sentChallenge, seq3Size]
  obtain ⟨final, reached, ids⟩ := twice_answered waits here empty challenged
    (by simp [size, seq3Size]) accepts_wholeFrame
  obtain ⟨last, ran, good⟩ := right.final
  rw [run_append, run_challengeRun, Option.bind_some, reached, Option.some.injEq] at ran
  subst ran
  have distinct := good.distinct
  rw [ids] at distinct
  have twice := (List.nodup_append.mp distinct).2.1
  simp at twice

end Smartchip.Ap
