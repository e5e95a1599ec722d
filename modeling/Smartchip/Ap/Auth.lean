import Smartchip.Frame.Header
import Smartchip.Sec.Cipher

/-!
# Authentication at an access point

`wf_auth_ap_thrd` of `nic/auth.c`, which runs on each WDN.  A step goes from one wait of
the thread to the next.  The thread looks at the message at the head of the queue of the
WDN; whether it gives that message back is part of the result.
-/

namespace Smartchip.Ap

open Smartchip.Foundation Smartchip.Frame Smartchip.Sec

/-- `wf_ap_msg_tag_e`, but for the tag of beacons, for which there are no messages. -/
inductive ApMsgTag where
  | authFrame
  | deauthFrame
  | assocReqFrame
  | disassocFrame
  | baReqFrame
  deriving DecidableEq

/-- `wf_ap_msg_t`. -/
structure ApMsg where
  tag : ApMsgTag
  len : UInt16
  mgmt : Mem

/-- A frame is copied into a message, over what the message held before. -/
def fillMsg (stale : Mem) (tag : ApMsgTag) (data : List UInt8) : ApMsg :=
  ⟨tag, UInt16.ofNat data.length, stale.write 0 data⟩

inductive WdnState where
  | auth
  | assoc
  | block8021x
  | unblock8021x
  | dauth
  | dassoc
  deriving DecidableEq

inductive AuthAlgrthm where
  | openSystem
  | shared
  | ieee8021x
  | auto
  | wapi
  deriving DecidableEq

def AuthAlgrthm.value : AuthAlgrthm → UInt32
  | .openSystem => 0
  | .shared => 1
  | .ieee8021x => 2
  | .auto => 3
  | .wapi => 4

/-- The part of `sec_info` that the thread reads. -/
structure AuthSec where
  dot11AuthAlgrthm : AuthAlgrthm
  dot11PrivacyAlgrthm : EncryptAlgo
  keys : SecInfo

/-- The waits of the thread, named after what it waits for. -/
inductive AuthPc where
  | seq1
  | noAuth
  | seq3
  | seq4Done
  deriving DecidableEq

/-- The fields of the WDN that the thread uses. -/
structure AuthWdn where
  state : WdnState
  authAlgo : UInt32
  authSeq : UInt16
  chlgTxt : List UInt8

/-- `sent` says whether there is a buffer to send in, `rand` are the random words. -/
structure AuthAnswers where
  expired : Bool
  sent : Bool
  rand : Nat → UInt32

/-- An authentication frame that is sent. -/
structure AuthReply where
  authAlg : UInt16
  authTransaction : UInt16
  statusCode : UInt16
  challenge : List UInt8
  deriving DecidableEq

inductive PtRet where
  | waiting
  | ended
  | exited
  deriving DecidableEq

/-- `freed` says whether the message at the head goes back to its free queue, `mgmt` what
has become of its frame if it stays, `deauth` whether a deauthentication is sent. -/
structure AuthOut where
  wdn : AuthWdn
  pc : AuthPc
  freed : Bool
  mgmt : Option Mem
  reply : Option AuthReply
  deauth : Bool
  ret : PtRet

def statusSuccess : UInt16 := 0

def statusNotSupportedAuthAlg : UInt16 := 13

def statusUnknownAuthTransaction : UInt16 := 14

def statusChallengeFail : UInt16 := 15

def statusAuthTimeout : UInt16 := 16

/-! ## Frames -/

/-- `auth_send` for the sequence numbers that an access point sends. -/
def authSend (w : AuthWdn) (a : AuthAnswers) (status : UInt16) : Option AuthReply :=
  if a.sent then
    some {
      authAlg := w.authAlgo.toUInt16
      authTransaction := w.authSeq
      statusCode := status
      challenge :=
        if w.authSeq = 2 ∧ status = statusSuccess ∧ w.authAlgo = AuthAlgrthm.shared.value then
          w.chlgTxt
        else [] }
  else none

/-- The loop steps its index twice, so every other word keeps what it held. -/
def generateChallengeText (chlgTxt : List UInt8) (rand : Nat → UInt32) : List UInt8 :=
  (List.range 32).flatMap fun i =>
    if i % 2 = 0 then le32 (rand (i / 2)) else (chlgTxt.drop (4 * i)).take 4

/-- The offset of `auth_seq3.auth_alg`. -/
def payloadOfs : Nat := 28

inductive Decrypted where
  | ok (mgmt : Mem)
  | mismatch (mgmt : Mem)
  | runaway

/-- The default key that the IV selects, behind the first three bytes of the IV. -/
def wepDecrypt (keys : SecInfo) (iv data : List UInt8) : List UInt8 :=
  (arc4Encrypt (arc4Init (wepKeyOf keys iv)) data).1

/-- `wf_wep_decrypt_auth`.  The length of the payload of a frame below 32 bytes wraps
around, and its checksum would run over the whole memory. -/
def wfWepDecryptAuth (keys : SecInfo) (msg : ApMsg) : Decrypted :=
  let payloadLen := msg.len.toNat - payloadOfs - 4
  if msg.len.toNat < payloadOfs + 4 then .runaway
  else
    let payload := msg.mgmt.read payloadOfs (payloadLen + 4)
    let mgmt := msg.mgmt.write payloadOfs (wepDecrypt keys (msg.mgmt.read 24 4) payload)
    if le32 (getCrc32 (mgmt.read payloadOfs payloadLen)) =
        mgmt.read (payloadOfs + payloadLen) 4 then .ok mgmt
    else .mismatch mgmt

/-! ## The thread -/

def stay (w : AuthWdn) (pc : AuthPc) : AuthOut := ⟨w, pc, false, none, none, false, .waiting⟩

/-- `status_error` and the exit behind it. -/
def statusError (w : AuthWdn) (pc : AuthPc) (a : AuthAnswers) (freed : Bool)
    (status : UInt16) : AuthOut :=
  let w := { w with authSeq := 2 }
  ⟨w, pc, freed, none, authSend w a status, false, .exited⟩

/-- A reply of success, and the thread waits at `pc`. -/
def sendSuccess (w : AuthWdn) (pc : AuthPc) (a : AuthAnswers) (seq : UInt16) (freed : Bool)
    (mgmt : Option Mem) : AuthOut :=
  let w := { w with authSeq := seq }
  ⟨w, pc, freed, mgmt, authSend w a statusSuccess, false, .waiting⟩

def chosenAlgo (sec : AuthSec) (frameAlgo : UInt32) : UInt32 :=
  if sec.dot11AuthAlgrthm = .auto ∧
      (sec.dot11PrivacyAlgrthm = .wep40 ∨ sec.dot11PrivacyAlgrthm = .wep104) then frameAlgo
  else if sec.dot11AuthAlgrthm = .ieee8021x then AuthAlgrthm.openSystem.value
  else sec.dot11AuthAlgrthm.value

def recvSeq1 (sec : AuthSec) (w : AuthWdn) (msg : ApMsg) (a : AuthAnswers) : AuthOut :=
  if msg.tag ≠ .authFrame then ⟨w, .seq1, true, none, none, true, .exited⟩
  else
    let w := { w with state := .auth }
    let frameSeq := msg.mgmt.readLe16 26
    let frameAlgo := (msg.mgmt.readLe16 24).toUInt32
    if frameSeq ≠ 1 then statusError w .seq1 a true statusUnknownAuthTransaction
    else
      let w := { w with authAlgo := chosenAlgo sec frameAlgo }
      if AuthAlgrthm.shared.value < frameAlgo ∨ frameAlgo ≠ w.authAlgo then
        statusError w .seq1 a true statusNotSupportedAuthAlg
      else if w.authAlgo = AuthAlgrthm.openSystem.value then
        sendSuccess w .noAuth a 2 true none
      else
        let w := { w with chlgTxt := generateChallengeText w.chlgTxt a.rand }
        sendSuccess w .seq3 a 2 true none

/-- A frame instead of the third one, or the third one.  It stays in the queue when it is
right. -/
def recvSeq3 (sec : AuthSec) (w : AuthWdn) (msg : ApMsg) (a : AuthAnswers) : AuthOut :=
  if msg.tag ≠ .authFrame then statusError w .seq3 a true statusAuthTimeout
  else if getHdrProtected msg.mgmt 0 = false then
    statusError w .seq3 a true statusChallengeFail
  else
    match wfWepDecryptAuth sec.keys msg with
    -- the thread does not come back
    | .runaway => stay w .seq3
    | .mismatch _ => statusError w .seq3 a true statusChallengeFail
    | .ok mgmt =>
        if mgmt.readLe16 30 ≠ 3 then statusError w .seq3 a true statusUnknownAuthTransaction
        else if (mgmt.readLe16 28).toUInt32 ≠ w.authAlgo then
          statusError w .seq3 a true statusNotSupportedAuthAlg
        else if w.chlgTxt ≠ mgmt.read 36 128 then
          statusError w .seq3 a true statusChallengeFail
        else sendSuccess w .seq4Done a 4 false (some mgmt)

/-- The two loops that send a reply again for each authentication frame; any other message
ends the thread. -/
def recvAgain (w : AuthWdn) (pc : AuthPc) (msg : ApMsg) (a : AuthAnswers) (seq : UInt16) :
    AuthOut :=
  if msg.tag = .authFrame then sendSuccess w pc a seq true none
  else { stay w pc with ret := .ended }

/-- The timer runs while the thread waits for anything but the first frame. -/
def noMsg (w : AuthWdn) (pc : AuthPc) (a : AuthAnswers) : AuthOut :=
  if pc ≠ .seq1 ∧ a.expired then statusError w pc a false statusAuthTimeout else stay w pc

/-- One step of `wf_auth_ap_thrd` with the message at the head of the queue. -/
def wfAuthApThrd (sec : AuthSec) (w : AuthWdn) (pc : AuthPc) (head : Option ApMsg)
    (a : AuthAnswers) : AuthOut :=
  match head with
  | none => noMsg w pc a
  | some msg =>
      match pc with
      | .seq1 => recvSeq1 sec w msg a
      | .noAuth => recvAgain w .noAuth msg a 2
      | .seq3 => recvSeq3 sec w msg a
      | .seq4Done => recvAgain w .seq4Done msg a 4

/-! ## The thread and its queue -/

/-- The largest frame that the rx path loads with a tag. -/
def ApMsgTag.sizeMax : ApMsgTag → Nat
  | .authFrame => 180
  | .deauthFrame => 26
  | .assocReqFrame => 796
  | .disassocFrame => 26
  | .baReqFrame => 0

/-- A message in the queue.  The other fields are for the specification: the frame that
was received, how many were before it, and whether the challenge had been sent. -/
structure Received where
  msg : ApMsg
  frame : List UInt8
  id : Nat
  fresh : Bool

/-- For the specification: a reply and the authentication frame that it answers. -/
structure SentReply where
  answers : Option Received
  reply : AuthReply

/-- `received` counts the frames, `since` has those behind the challenge. -/
structure AuthSystem where
  wdn : AuthWdn
  pc : AuthPc
  ret : PtRet
  que : List Received
  received : Nat
  challenged : Bool
  since : List (List UInt8)
  sent : List SentReply

/-- `stale` is what the message held before. -/
inductive AuthEvent where
  | thrd (answers : AuthAnswers)
  | recv (tag : ApMsgTag) (frame : List UInt8) (stale : Mem)

def recvFrame (s : AuthSystem) (tag : ApMsgTag) (frame : List UInt8) (stale : Mem) :
    AuthSystem :=
  if frame.length ≤ tag.sizeMax then
    { s with
      que := s.que ++ [⟨fillMsg stale tag frame, frame, s.received, s.challenged⟩]
      received := s.received + 1
      since := if s.challenged then s.since ++ [frame] else s.since }
  else s

/-- The queue behind a step. -/
def queAfter (que : List Received) (out : AuthOut) : List Received :=
  if out.freed then que.tail
  else
    match que, out.mgmt with
    | head :: rest, some mgmt => { head with msg := { head.msg with mgmt } } :: rest
    | _, _ => que

def answered (que : List Received) : Option Received :=
  que.head?.filter fun head => head.msg.tag = .authFrame

def runThrd (sec : AuthSec) (s : AuthSystem) (a : AuthAnswers) : AuthSystem :=
  let out := wfAuthApThrd sec s.wdn s.pc (s.que.head?.map Received.msg) a
  { s with
    wdn := out.wdn
    pc := out.pc
    ret := out.ret
    que := queAfter s.que out
    challenged := s.challenged || (s.pc = .seq1 && out.pc = .seq3 && out.reply.isSome)
    sent := s.sent ++ (out.reply.map fun reply => ⟨answered s.que, reply⟩).toList }

def authStep (sec : AuthSec) (s : AuthSystem) : AuthEvent → Option AuthSystem
  | .thrd a => some (if s.ret = .waiting then runThrd sec s a else s)
  | .recv tag frame stale => some (recvFrame s tag frame stale)

/-- The WDN has just been added. -/
def authStart : AuthSystem where
  wdn := ⟨.auth, 0, 0, List.replicate 128 0⟩
  pc := .seq1
  ret := .waiting
  que := []
  received := 0
  challenged := false
  since := []
  sent := []

end Smartchip.Ap
