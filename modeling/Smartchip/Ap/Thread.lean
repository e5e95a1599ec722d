import Smartchip.Ap.Association
import Smartchip.Ap.Maintain

/-!
# The thread of an access point and its stations

`ap_thrd` of `nic/ap.c` runs the three threads of a WDN one behind the other and cleans up
behind them.  Frames come in at the same time: a frame is given the WDN of its sender first
and is loaded in a message later, and the thread of the AP can be anywhere in between.
-/

namespace Smartchip.Ap

open Smartchip.Foundation Smartchip.Frame Smartchip.Sec

def wdnNumMax : Nat := 5

def bcMac : MacAddr := #v[0xff, 0xff, 0xff, 0xff, 0xff, 0xff]

def WdnState.value : WdnState → Nat
  | .auth => 0
  | .assoc => 1
  | .block8021x => 2
  | .unblock8021x => 3
  | .dauth => 4
  | .dassoc => 5

inductive ApStatus where
  | uninitilized
  | stanby
  | established
  deriving DecidableEq

/-- What hostapd is told about a station. -/
inductive Indication where
  | assoc
  | disassoc
  deriving DecidableEq

/-- Where `ap_thrd` is in the life of a WDN.  Between the end of a thread and what comes
behind it a frame can be loaded. -/
inductive ApPc where
  | auth (pc : AuthPc)
  | assoc
  | maintain (pc : MaintainPc)
  | clearup
  | remove
  deriving DecidableEq

/-- A WDN.  `joined` is for the specification: the station is in the maintain phase, or has
left it and is about to be removed. -/
structure ApNode where
  mac : MacAddr
  wdnId : Nat
  aid : UInt32
  wdn : ApWdn
  info : AssocInfo
  que : List Nat
  pc : ApPc
  joined : Bool

/-- Frames are handled in the context of rx, those of block acknowledgements in a thread. -/
inductive Ctx where
  | rx
  | action
  deriving DecidableEq

def ctxOf : ApMsgTag → Ctx
  | .baReqFrame => .action
  | _ => .rx

/-- A frame that has been given a WDN, if there is one for its sender. -/
structure Pending where
  tag : ApMsgTag
  frame : List UInt8
  sa : MacAddr
  node : Option Nat

/-- `head` and `free` are the lists of WDNs, `msgFree` those of messages.  `log` and
`readFreed` are for the specification: what hostapd was told, and whether a message was read
that had been freed. -/
structure ApSystem where
  nodes : Nat → ApNode
  head : List Nat
  free : List Nat
  usedIds : List Nat
  msgs : Nat → ApMsg
  msgFree : ApMsgTag → List Nat
  pending : Ctx → Option Pending
  status : ApStatus
  log : List (MacAddr × Indication)
  readFreed : Bool

structure ApConfig where
  auth : AuthSec
  assoc : AssocSec
  net : ApNetwork

structure ApAnswers where
  auth : AuthAnswers
  assoc : AssocAnswers
  expired : Bool

/-! ## WDNs -/

def ApSystem.setNode (s : ApSystem) (n : Nat) (node : ApNode) : ApSystem :=
  { s with nodes := Function.update s.nodes n node }

def findInfo (s : ApSystem) (mac : MacAddr) : Option Nat :=
  s.head.find? fun n => (s.nodes n).mac = mac

def newWdnId (s : ApSystem) : Option Nat := (List.range 32).find? fun i => i ∉ s.usedIds

def clearedWdn : ApWdn := ⟨⟨.auth, 0, 0, List.replicate 128 0⟩, 0, 0, 0⟩

def clearedInfo : AssocInfo := ⟨0, 0, 0, 0, 0, false, false, false, false, []⟩

/-- A node behind `memset`. -/
def newNode (mac : MacAddr) (id : Nat) : ApNode :=
  ⟨mac, id, 0, clearedWdn, clearedInfo, [], .auth .seq1, false⟩

def wfWdnAdd (s : ApSystem) (mac : MacAddr) : Option (Nat × ApSystem) :=
  match findInfo s mac with
  | some n => some (n, s)
  | none =>
      match s.free, newWdnId s with
      | n :: rest, some id => some (n, {
          s.setNode n (newNode mac id) with
          head := s.head ++ [n]
          free := rest
          usedIds := id :: s.usedIds })
      | _, _ => none

def wfWdnRemove (s : ApSystem) (mac : MacAddr) : ApSystem :=
  match findInfo s mac with
  | none => s
  | some n => {
      s with
      head := s.head.erase n
      free := s.free ++ [n]
      usedIds := s.usedIds.erase (s.nodes n).wdnId }

def wdnInfoUpdate (s : ApSystem) (n : Nat) : ApSystem :=
  let node := s.nodes n
  s.setNode n {
    node with
    que := []
    pc := .auth .seq1
    aid := UInt32.ofNat (node.wdnId + 1)
    wdn := { node.wdn with rxPktStat := 0 } }

/-! ## Messages -/

def headMsg (s : ApSystem) (n : Nat) : Option ApMsg := (s.nodes n).que.head?.map s.msgs

def wfApMsgLoad (s : ApSystem) (n : Nat) (tag : ApMsgTag) (frame : List UInt8) (stale : Mem) :
    ApSystem :=
  match s.msgFree tag with
  | [] => s
  | id :: rest => {
      s.setNode n { s.nodes n with que := (s.nodes n).que ++ [id] } with
      msgFree := Function.update s.msgFree tag rest
      msgs := Function.update s.msgs id (fillMsg stale tag frame) }

/-- `wf_ap_msg_free` of the message at the head. -/
def wfApMsgFree (s : ApSystem) (n : Nat) : ApSystem :=
  { s.setNode n { s.nodes n with que := (s.nodes n).que.tail } with
    msgFree :=
      match (s.nodes n).que with
      | [] => s.msgFree
      | id :: _ =>
          let tag := (s.msgs id).tag
          Function.update s.msgFree tag (id :: s.msgFree tag) }

def freeIf (s : ApSystem) (n : Nat) (freed : Bool) : ApSystem :=
  if freed then wfApMsgFree s n else s

/-- `ap_msg_que_clearup`. -/
def apMsgQueClearup (s : ApSystem) (n : Nat) : ApSystem :=
  (s.nodes n).que.foldl (fun s _ => wfApMsgFree s n) s

/-! ## The thread -/

/-- `wf_auth_ap_thrd` in `ap_thrd`. -/
def authPhase (cfg : ApConfig) (s : ApSystem) (n : Nat) (pc : AuthPc) (a : ApAnswers) :
    ApSystem :=
  let node := s.nodes n
  let out := wfAuthApThrd cfg.auth node.wdn.toAuthWdn pc (headMsg s n) a.auth
  let s := freeIf s n out.freed
  { s.setNode n {
      s.nodes n with
      wdn := { node.wdn with toAuthWdn := out.wdn }
      pc :=
        match out.ret with
        | .waiting => .auth out.pc
        | .ended => .assoc
        | .exited => .clearup } with
    -- the third frame of an authentication is decrypted where it is
    msgs :=
      match node.que, out.mgmt with
      | id :: _, some mgmt => Function.update s.msgs id { s.msgs id with mgmt }
      | _, _ => s.msgs }

/-- `wf_assoc_ap_thrd` in `ap_thrd`; the report reads the message that was freed before. -/
def assocPhase (cfg : ApConfig) (s : ApSystem) (n : Nat) (a : ApAnswers) : ApSystem :=
  let node := s.nodes n
  let out := wfAssocApThrd cfg.net cfg.assoc node.aid node.wdn.state node.info (headMsg s n)
    a.assoc
  let s := freeIf s n out.freed
  { s.setNode n {
      s.nodes n with
      wdn := { node.wdn with state := out.state }
      info := out.info
      pc :=
        match out.ret with
        | .waiting => .assoc
        | .ended => .maintain .begun
        | .exited => .clearup } with
    log := if out.reported then s.log ++ [(node.mac, .assoc)] else s.log
    readFreed := s.readFreed || (out.reported && out.freed) }

/-- `maintain_thrd` in `ap_thrd`. -/
def maintainPhase (cfg : ApConfig) (s : ApSystem) (n : Nat) (pc : MaintainPc)
    (a : ApAnswers) : ApSystem :=
  let node := s.nodes n
  let out := maintainThrd cfg.auth.dot11AuthAlgrthm node.wdn pc
    ((headMsg s n).map ApMsg.tag) a.expired
  let s := freeIf s n out.freed
  let back := out.ret ≠ .waiting ∧ out.wdn.state = .assoc
  { s.setNode n {
      s.nodes n with
      wdn := out.wdn
      pc := if out.ret = .waiting then .maintain out.pc else if back then .assoc else .clearup
      joined := (node.joined || out.established) && ¬ back } with
    status := if out.established then .established else s.status
    log := if out.disassocInd then s.log ++ [(node.mac, .disassoc)] else s.log }

/-- `clearup` up to the removal of the WDN. -/
def clearupPhase (s : ApSystem) (n : Nat) : ApSystem :=
  let node := s.nodes n
  let s := apMsgQueClearup s n
  { s.setNode n { s.nodes n with pc := .remove } with
    log :=
      if WdnState.assoc.value < node.wdn.state.value then s.log ++ [(node.mac, .disassoc)]
      else s.log }

/-- The end of `clearup`; a thread that has ended begins again. -/
def removePhase (s : ApSystem) (n : Nat) : ApSystem :=
  let s := wfWdnRemove s (s.nodes n).mac
  { s.setNode n { s.nodes n with pc := .auth .seq1, joined := false } with
    status := if s.head = [] then .stanby else s.status }

/-- One step of `ap_thrd`. -/
def apThrd (cfg : ApConfig) (s : ApSystem) (n : Nat) (a : ApAnswers) : ApSystem :=
  match (s.nodes n).pc with
  | .auth pc => authPhase cfg s n pc a
  | .assoc => assocPhase cfg s n a
  | .maintain pc => maintainPhase cfg s n pc a
  | .clearup => clearupPhase s n
  | .remove => removePhase s n

/-! ## Frames -/

/-- A frame comes in and is given a WDN. -/
def recvFind (s : ApSystem) (tag : ApMsgTag) (sa : MacAddr) (frame : List UInt8) : ApSystem :=
  if (s.pending (ctxOf tag)).isSome then s
  else
    { s with
      pending := Function.update s.pending (ctxOf tag)
        (some ⟨tag, frame, sa, findInfo s sa⟩) }

/-- The receive functions; only `auth_ap_recv` adds a WDN. -/
def apRecv (s : ApSystem) (p : Pending) (stale : Mem) : ApSystem :=
  if p.tag.sizeMax < p.frame.length then s
  else
    match p.node with
    | some n => wfApMsgLoad s n p.tag p.frame stale
    | none =>
        if p.tag ≠ .authFrame then s
        else
          match wfWdnAdd s p.sa with
          | none => s
          | some (n, s) => wfApMsgLoad (wdnInfoUpdate s n) n p.tag p.frame stale

def takePending (s : ApSystem) (ctx : Ctx) : ApSystem :=
  { s with pending := Function.update s.pending ctx none }

def recvLoad (s : ApSystem) (ctx : Ctx) (stale : Mem) : ApSystem :=
  match s.pending ctx with
  | none => s
  | some p => apRecv (takePending s ctx) p stale

def countPacket (s : ApSystem) (n : Nat) : ApSystem :=
  let node := s.nodes n
  s.setNode n { node with wdn := { node.wdn with rxPktStat := node.wdn.rxPktStat + 1 } }

/-! ## Steps -/

inductive ApEvent where
  | find (tag : ApMsgTag) (sa : MacAddr) (frame : List UInt8)
  | load (ctx : Ctx) (stale : Mem)
  | packet (n : Nat)
  | thrd (n : Nat) (answers : ApAnswers)

/-- `ap_poll` runs the thread of the WDNs in the list. -/
def apStep (cfg : ApConfig) (s : ApSystem) : ApEvent → Option ApSystem
  | .find tag sa frame => some (recvFind s tag sa frame)
  | .load ctx stale => some (recvLoad s ctx stale)
  | .packet n => some (countPacket s n)
  | .thrd n a => some (if n ∈ s.head then apThrd cfg s n a else s)

def ApMsgTag.depth : ApMsgTag → Nat
  | .authFrame => wdnNumMax * 3
  | .deauthFrame => wdnNumMax
  | .assocReqFrame => wdnNumMax
  | .disassocFrame => wdnNumMax
  | .baReqFrame => 16

/-- The first of the messages of a tag; they are numbered tag by tag. -/
def ApMsgTag.first : ApMsgTag → Nat
  | .authFrame => 0
  | .deauthFrame => 15
  | .assocReqFrame => 20
  | .disassocFrame => 25
  | .baReqFrame => 30

def bcNode : ApNode :=
  { newNode bcMac 0 with wdn := { clearedWdn with state := .unblock8021x } }

/-- The AP has been started: all messages are free, and the broadcast WDN has been added. -/
def apStart : ApSystem where
  nodes := fun _ => bcNode
  head := [0]
  free := [1, 2, 3, 4]
  usedIds := [0]
  msgs := fun _ => ⟨.authFrame, 0, fun _ => 0⟩
  msgFree := fun tag => (List.range' tag.first tag.depth).reverse
  pending := fun _ => none
  status := .stanby
  log := []
  readFreed := false

/-! ## What a step leaves alone -/

section Node

variable {s : ApSystem} {n m : Nat} {node : ApNode}

@[simp] theorem setNode_nodes : (s.setNode n node).nodes = Function.update s.nodes n node :=
  rfl

@[simp] theorem setNode_head : (s.setNode n node).head = s.head := rfl

@[simp] theorem setNode_status : (s.setNode n node).status = s.status := rfl

@[simp] theorem setNode_log : (s.setNode n node).log = s.log := rfl

@[simp] theorem setNode_readFreed : (s.setNode n node).readFreed = s.readFreed := rfl

@[simp] theorem wfApMsgFree_nodes : (wfApMsgFree s n).nodes =
    Function.update s.nodes n { s.nodes n with que := (s.nodes n).que.tail } := rfl

@[simp] theorem freeIf_nodes {freed : Bool} : (freeIf s n freed).nodes =
    Function.update s.nodes n {
      s.nodes n with que := if freed then (s.nodes n).que.tail else (s.nodes n).que } := by
  cases freed with
  | true => rfl
  | false => exact (Function.update_eq_self n s.nodes).symm

@[simp] theorem freeIf_status {freed : Bool} : (freeIf s n freed).status = s.status := by
  cases freed <;> rfl

@[simp] theorem freeIf_log {freed : Bool} : (freeIf s n freed).log = s.log := by
  cases freed <;> rfl

@[simp] theorem freeIf_readFreed {freed : Bool} :
    (freeIf s n freed).readFreed = s.readFreed := by
  cases freed <;> rfl

theorem apMsgQueClearup_eq (s : ApSystem) (n : Nat) :
    ∃ msgFree, apMsgQueClearup s n =
      { s.setNode n { s.nodes n with que := [] } with msgFree := msgFree } := by
  have run : ∀ que : List Nat, ∀ s : ApSystem, (s.nodes n).que = que →
      ∃ msgFree, que.foldl (fun s _ => wfApMsgFree s n) s =
        { s.setNode n { s.nodes n with que := [] } with msgFree := msgFree } := by
    intro que
    induction que with
    | nil =>
        intro s empty
        refine ⟨s.msgFree, ?_⟩
        simp only [List.foldl_nil]
        rw [← empty]
        simp [ApSystem.setNode]
    | cons id rest ih =>
        intro s queued
        obtain ⟨msgFree, eq⟩ := ih (wfApMsgFree s n) (by simp [queued])
        refine ⟨msgFree, ?_⟩
        rw [List.foldl_cons, eq]
        simp [ApSystem.setNode, wfApMsgFree]
  exact run _ s rfl

theorem wfApMsgLoad_eq (s : ApSystem) (n : Nat) (tag : ApMsgTag) (frame : List UInt8)
    (stale : Mem) : ∃ que msgFree msgs, wfApMsgLoad s n tag frame stale =
      { s.setNode n { s.nodes n with que := que } with msgFree := msgFree, msgs := msgs } := by
  unfold wfApMsgLoad
  split
  · refine ⟨(s.nodes n).que, s.msgFree, s.msgs, ?_⟩
    simp [ApSystem.setNode]
  · exact ⟨_, _, _, rfl⟩

end Node

/-- A step on a WDN that keeps the lists of WDNs and the frames that wait. -/
structure Keeps (n : Nat) (s s' : ApSystem) : Prop where
  head : s'.head = s.head
  free : s'.free = s.free
  pending : s'.pending = s.pending
  others : ∀ m, m ≠ n → s'.nodes m = s.nodes m
  mac : (s'.nodes n).mac = (s.nodes n).mac

theorem Keeps.trans {n : Nat} {s s' s'' : ApSystem} (first : Keeps n s s')
    (second : Keeps n s' s'') : Keeps n s s'' where
  head := second.head.trans first.head
  free := second.free.trans first.free
  pending := second.pending.trans first.pending
  others m other := (second.others m other).trans (first.others m other)
  mac := second.mac.trans first.mac

theorem Keeps.set {n : Nat} {s s' s'' : ApSystem} {node : ApNode} (kept : Keeps n s s')
    (head : s''.head = s'.head) (free : s''.free = s'.free)
    (pending : s''.pending = s'.pending)
    (nodes : s''.nodes = Function.update s'.nodes n node)
    (mac : node.mac = (s'.nodes n).mac) : Keeps n s s'' where
  head := head.trans kept.head
  free := free.trans kept.free
  pending := pending.trans kept.pending
  others m other := by
    rw [nodes, Function.update_of_ne other]
    exact kept.others m other
  mac := by
    rw [nodes, Function.update_self, mac]
    exact kept.mac

section Phases

variable {cfg : ApConfig} {s : ApSystem} {n : Nat} {a : ApAnswers}

theorem keeps_refl : Keeps n s s := ⟨rfl, rfl, rfl, fun _ _ => rfl, rfl⟩

theorem wfApMsgFree_keeps : Keeps n s (wfApMsgFree s n) :=
  ⟨rfl, rfl, rfl, fun m other => by simp [other], by simp⟩

theorem freeIf_keeps (freed : Bool) : Keeps n s (freeIf s n freed) := by
  cases freed with
  | true => exact wfApMsgFree_keeps
  | false => exact keeps_refl

theorem apMsgQueClearup_keeps : Keeps n s (apMsgQueClearup s n) := by
  obtain ⟨msgFree, eq⟩ := apMsgQueClearup_eq s n
  rw [eq]
  exact keeps_refl.set rfl rfl rfl rfl rfl

theorem authPhase_keeps (pc : AuthPc) : Keeps n s (authPhase cfg s n pc a) :=
  (freeIf_keeps _).set rfl rfl rfl rfl rfl

theorem assocPhase_keeps : Keeps n s (assocPhase cfg s n a) :=
  (freeIf_keeps _).set rfl rfl rfl rfl rfl

theorem maintainPhase_keeps (pc : MaintainPc) : Keeps n s (maintainPhase cfg s n pc a) :=
  (freeIf_keeps _).set rfl rfl rfl rfl rfl

theorem clearupPhase_keeps : Keeps n s (clearupPhase s n) :=
  apMsgQueClearup_keeps.set rfl rfl rfl rfl rfl

/-- What a step of `ap_thrd` can be. -/
inductive Phase (cfg : ApConfig) (s : ApSystem) (n : Nat) (a : ApAnswers) : ApSystem → Prop
  | auth {pc : AuthPc} (here : (s.nodes n).pc = .auth pc) :
      Phase cfg s n a (authPhase cfg s n pc a)
  | assoc (here : (s.nodes n).pc = .assoc) : Phase cfg s n a (assocPhase cfg s n a)
  | maintain {pc : MaintainPc} (here : (s.nodes n).pc = .maintain pc) :
      Phase cfg s n a (maintainPhase cfg s n pc a)
  | clearup (here : (s.nodes n).pc = .clearup) : Phase cfg s n a (clearupPhase s n)
  | remove (here : (s.nodes n).pc = .remove) : Phase cfg s n a (removePhase s n)

theorem apThrd_phase (cfg : ApConfig) (s : ApSystem) (n : Nat) (a : ApAnswers) :
    Phase cfg s n a (apThrd cfg s n a) := by
  unfold apThrd
  cases here : (s.nodes n).pc with
  | auth pc => exact .auth here
  | assoc => exact .assoc here
  | maintain pc => exact .maintain here
  | clearup => exact .clearup here
  | remove => exact .remove here

theorem apThrd_keeps (stays : (s.nodes n).pc ≠ .remove) : Keeps n s (apThrd cfg s n a) := by
  have phase := apThrd_phase cfg s n a
  generalize apThrd cfg s n a = s' at phase
  cases phase with
  | auth here => exact authPhase_keeps _
  | assoc here => exact assocPhase_keeps
  | maintain here => exact maintainPhase_keeps _
  | clearup here => exact clearupPhase_keeps
  | remove here => exact absurd here stays

theorem wfApMsgLoad_keeps (tag : ApMsgTag) (frame : List UInt8) (stale : Mem) :
    Keeps n s (wfApMsgLoad s n tag frame stale) := by
  obtain ⟨que, msgFree, msgs, eq⟩ := wfApMsgLoad_eq s n tag frame stale
  rw [eq]
  exact keeps_refl.set rfl rfl rfl rfl rfl

theorem countPacket_keeps : Keeps n s (countPacket s n) :=
  keeps_refl.set rfl rfl rfl rfl rfl

end Phases

/-! ## The lists of WDNs -/

/-- No address has two WDNs, and a frame from a sender without one waits alone. -/
structure ListOk (s : ApSystem) : Prop where
  nodup : (s.head ++ s.free).Nodup
  macs : ∀ n ∈ s.head, ∀ m ∈ s.head, (s.nodes n).mac = (s.nodes m).mac → n = m
  ctx : ∀ c p, s.pending c = some p → ctxOf p.tag = c
  absent : ∀ p, s.pending .rx = some p → p.node = none →
    ∀ n ∈ s.head, (s.nodes n).mac ≠ p.sa

/-- The node of a station that has just been added. -/
def stationNode (mac : MacAddr) (id : Nat) : ApNode :=
  { newNode mac id with aid := UInt32.ofNat (id + 1) }

def addStation (s : ApSystem) (n : Nat) (rest : List Nat) (mac : MacAddr) (id : Nat) :
    ApSystem :=
  { s.setNode n (stationNode mac id) with
    head := s.head ++ [n]
    free := rest
    usedIds := id :: s.usedIds }

section Lists

variable {cfg : ApConfig} {s s' : ApSystem} {n : Nat} {a : ApAnswers} {mac : MacAddr}

theorem findInfo_some (found : findInfo s mac = some n) :
    n ∈ s.head ∧ (s.nodes n).mac = mac := by
  unfold findInfo at found
  exact ⟨List.mem_of_find?_eq_some found, by simpa using List.find?_some found⟩

theorem findInfo_none (found : findInfo s mac = none) :
    ∀ n ∈ s.head, (s.nodes n).mac ≠ mac := by
  unfold findInfo at found
  simpa using found

theorem ListOk.findInfo_self (ok : ListOk s) (listed : n ∈ s.head) :
    findInfo s (s.nodes n).mac = some n := by
  cases found : findInfo s (s.nodes n).mac with
  | none => exact absurd rfl (findInfo_none found n listed)
  | some m =>
      obtain ⟨other, same⟩ := findInfo_some found
      rw [ok.macs m other n listed same]

theorem ListOk.not_free (ok : ListOk s) (listed : n ∈ s.head) : n ∉ s.free :=
  fun free => (List.nodup_append.mp ok.nodup).2.2 n listed n free rfl

theorem ListOk.keeps (ok : ListOk s) (kept : Keeps n s s') : ListOk s' := by
  have mac : ∀ m, (s'.nodes m).mac = (s.nodes m).mac := by
    intro m
    by_cases same : m = n
    · rw [same]
      exact kept.mac
    · rw [kept.others m same]
  constructor
  · rw [kept.head, kept.free]
    exact ok.nodup
  · simp only [kept.head, mac]
    exact ok.macs
  · simp only [kept.pending]
    exact ok.ctx
  · simp only [kept.pending, kept.head, mac]
    exact ok.absent

/-- The thread removes its own WDN. -/
theorem ListOk.removePhase_eq (ok : ListOk s) (listed : n ∈ s.head) :
    removePhase s n = {
      s.setNode n { s.nodes n with pc := .auth .seq1, joined := false } with
      head := s.head.erase n
      free := s.free ++ [n]
      usedIds := s.usedIds.erase (s.nodes n).wdnId
      status := if s.head.erase n = [] then .stanby else s.status } := by
  simp only [removePhase, wfWdnRemove, ok.findInfo_self listed]
  rfl

theorem ListOk.remove (ok : ListOk s) (listed : n ∈ s.head) : ListOk (removePhase s n) := by
  rw [ok.removePhase_eq listed]
  have sub : ∀ m, m ∈ s.head.erase n → m ∈ s.head := fun m => List.mem_of_mem_erase
  have mac : ∀ m, (Function.update s.nodes n
      { s.nodes n with pc := .auth .seq1, joined := false } m).mac = (s.nodes m).mac := by
    intro m
    by_cases same : m = n
    · rw [same, Function.update_self]
    · rw [Function.update_of_ne same]
  constructor
  · have moved : (s.head.erase n ++ (s.free ++ [n])).Perm (s.head ++ s.free) := by
      have first : s.head.Perm (n :: s.head.erase n) := List.perm_cons_erase listed
      refine List.Perm.trans ?_ (first.symm.append_right s.free)
      rw [← List.append_assoc]
      exact List.perm_append_comm
    exact moved.nodup_iff.mpr ok.nodup
  · intro m listed' k also same
    simp only [setNode_nodes, mac] at same
    exact ok.macs m (sub m listed') k (sub k also) same
  · exact ok.ctx
  · intro p waits none m listed'
    simp only [setNode_nodes, mac]
    exact ok.absent p waits none m (sub m listed')

theorem ListOk.thrd (ok : ListOk s) (listed : n ∈ s.head) : ListOk (apThrd cfg s n a) := by
  by_cases here : (s.nodes n).pc = .remove
  · simp only [apThrd, here]
    exact ok.remove listed
  · exact ok.keeps (apThrd_keeps here)

theorem ListOk.find (ok : ListOk s) (tag : ApMsgTag) (sa : MacAddr) (frame : List UInt8) :
    ListOk (recvFind s tag sa frame) := by
  unfold recvFind
  split_ifs with busy
  · exact ok
  · refine ⟨ok.nodup, ok.macs, fun c p waits => ?_, fun p waits none => ?_⟩
    · by_cases same : c = ctxOf tag
      · subst same
        simp only [Function.update_self, Option.some.injEq] at waits
        rw [← waits]
      · simp only [Function.update_of_ne same] at waits
        exact ok.ctx c p waits
    · by_cases same : Ctx.rx = ctxOf tag
      · rw [same] at waits
        simp only [Function.update_self, Option.some.injEq] at waits
        rw [← waits] at none ⊢
        exact findInfo_none none
      · simp only [Function.update_of_ne same] at waits
        exact ok.absent p waits none

theorem ListOk.take (ok : ListOk s) (ctx : Ctx) : ListOk (takePending s ctx) := by
  have before : ∀ c p, (takePending s ctx).pending c = some p → s.pending c = some p := by
    intro c p waits
    by_cases same : c = ctx
    · rw [same] at waits
      simp [takePending] at waits
    · simpa [takePending, same] using waits
  exact ⟨ok.nodup, ok.macs, fun c p waits => ok.ctx c p (before c p waits),
    fun p waits => ok.absent p (before .rx p waits)⟩

/-- What can become of a frame that waits. -/
inductive Loads (s : ApSystem) (ctx : Ctx) (stale : Mem) : ApSystem → Prop
  | idle (none : s.pending ctx = none) : Loads s ctx stale s
  | dropped {p : Pending} (waits : s.pending ctx = some p)
      (stray : p.frame.length ≤ p.tag.sizeMax → p.node = none) :
      Loads s ctx stale (takePending s ctx)
  | known {p : Pending} {n : Nat} (waits : s.pending ctx = some p) (node : p.node = some n)
      (short : p.frame.length ≤ p.tag.sizeMax) :
      Loads s ctx stale (wfApMsgLoad (takePending s ctx) n p.tag p.frame stale)
  | station {p : Pending} {n id : Nat} {rest : List Nat} (waits : s.pending .rx = some p)
      (isRx : ctx = .rx) (node : p.node = none) (short : p.frame.length ≤ p.tag.sizeMax)
      (free : s.free = n :: rest) (fresh : newWdnId s = some id) :
      Loads s ctx stale
        (wfApMsgLoad (addStation (takePending s ctx) n rest p.sa id) n p.tag p.frame stale)

theorem wdnInfoUpdate_new {rest : List Nat} {id : Nat} :
    wdnInfoUpdate {
      s.setNode n (newNode mac id) with
      head := s.head ++ [n]
      free := rest
      usedIds := id :: s.usedIds } n = addStation s n rest mac id := by
  simp [wdnInfoUpdate, addStation, ApSystem.setNode, stationNode, newNode, clearedWdn]

theorem ListOk.loads (ok : ListOk s) (ctx : Ctx) (stale : Mem) :
    Loads s ctx stale (recvLoad s ctx stale) := by
  unfold recvLoad
  cases waits : s.pending ctx with
  | none => exact .idle waits
  | some p =>
      simp only [apRecv]
      by_cases long : p.tag.sizeMax < p.frame.length
      · rw [if_pos long]
        exact .dropped waits fun short => absurd short (not_le.mpr long)
      · rw [if_neg long]
        cases node : p.node with
        | some n => exact .known waits node (not_lt.mp long)
        | none =>
            by_cases auth : p.tag = .authFrame
            · have isRx : ctx = .rx := by
                rw [← ok.ctx ctx p waits, auth]
                rfl
              subst isRx
              have unknown : findInfo (takePending s .rx) p.sa = none := by
                change findInfo s p.sa = none
                simpa [findInfo] using ok.absent p waits node
              simp only [auth, ne_eq, not_true_eq_false, if_false, wfWdnAdd, unknown]
              cases free : s.free with
              | nil =>
                  have split : (takePending s .rx).free = [] := free
                  simp only [split]
                  exact .dropped waits fun _ => node
              | cons n rest =>
                  have split : (takePending s .rx).free = n :: rest := free
                  cases fresh : newWdnId s with
                  | none =>
                      have none : newWdnId (takePending s .rx) = none := fresh
                      simp only [none, split]
                      exact .dropped waits fun _ => node
                  | some id =>
                      have some : newWdnId (takePending s .rx) = some id := fresh
                      simp only [some, split, wdnInfoUpdate_new]
                      rw [← auth]
                      exact .station waits rfl node (not_lt.mp long) free fresh
            · rw [if_pos auth]
              exact .dropped waits fun _ => node

theorem ListOk.addStation (ok : ListOk s) {rest : List Nat} (id : Nat)
    (free : s.free = n :: rest) (idle : s.pending .rx = none)
    (unknown : ∀ m ∈ s.head, (s.nodes m).mac ≠ mac) :
    ListOk (addStation s n rest mac id) := by
  have nodup := ok.nodup
  rw [free] at nodup
  have fresh : ∀ m ∈ s.head, m ≠ n := by
    intro m listed same
    exact (List.nodup_append.mp nodup).2.2 m listed n List.mem_cons_self same
  constructor
  · simpa [Ap.addStation] using nodup
  · intro m listed k also same
    simp only [Ap.addStation, setNode_nodes, List.mem_append, List.mem_singleton]
      at listed also same
    rcases listed with old | new <;> rcases also with old' | new'
    · rw [Function.update_of_ne (fresh m old), Function.update_of_ne (fresh k old')] at same
      exact ok.macs m old k old' same
    · subst new'
      rw [Function.update_of_ne (fresh m old), Function.update_self] at same
      exact absurd same (unknown m old)
    · subst new
      rw [Function.update_of_ne (fresh k old'), Function.update_self] at same
      exact absurd same.symm (unknown k old')
    · rw [new, new']
  · exact ok.ctx
  · intro p waits
    cases idle.symm.trans waits

theorem ListOk.load (ok : ListOk s) (ctx : Ctx) (stale : Mem) :
    ListOk (recvLoad s ctx stale) := by
  have loads := ok.loads ctx stale
  generalize recvLoad s ctx stale = s' at loads
  cases loads with
  | idle none => exact ok
  | dropped waits stray => exact ok.take ctx
  | known waits node short => exact (ok.take ctx).keeps (wfApMsgLoad_keeps ..)
  | station waits isRx node short free fresh =>
      subst isRx
      have idle : (takePending s .rx).pending .rx = none := by simp [takePending]
      have unknown := ok.absent _ waits node
      exact ((ok.take .rx).addStation _ free idle unknown).keeps (wfApMsgLoad_keeps ..)

theorem apStep_total (cfg : ApConfig) (s : ApSystem) (event : ApEvent) :
    ∃ next, apStep cfg s event = some next := by
  cases event <;> exact ⟨_, rfl⟩

theorem ListOk.step (ok : ListOk s) (event : ApEvent) (moved : apStep cfg s event = some s') :
    ListOk s' := by
  cases event with
  | find tag sa frame =>
      cases moved
      exact ok.find tag sa frame
  | load ctx stale =>
      cases moved
      exact ok.load ctx stale
  | packet n =>
      cases moved
      exact ok.keeps countPacket_keeps
  | thrd n a =>
      cases moved
      split_ifs with listed
      · exact ok.thrd listed
      · exact ok

theorem listOk_start : ListOk apStart where
  nodup := by decide
  macs n listed m also _ := by simp_all [apStart]
  ctx c p waits := by cases waits
  absent p waits := by cases waits

end Lists

/-! ## What a WDN holds -/

/-- Hostapd is told about the association ids up to 2007, and the state of a station that is
maintained is one of the two that `maintain_thrd` sets. -/
structure NodeOk (node : ApNode) : Prop where
  aid : node.aid ≤ 2007
  maintained : ∀ pc, node.pc = .maintain pc → pc = .begun ∨
    node.wdn.state = .block8021x ∨ node.wdn.state = .unblock8021x

def NodesOk (s : ApSystem) : Prop := ∀ n, NodeOk (s.nodes n)

section Nodes

variable {cfg : ApConfig} {s s' : ApSystem} {n : Nat} {a : ApAnswers} {mac : MacAddr}

/-- What a step of `maintain_thrd` does with the state: behind a disassociation, the station
is associated again on its request, and this is told to hostapd where it happens. -/
structure MaintainMove (pc : MaintainPc) (head : Option ApMsgTag) (out : MaintainOut) :
    Prop where
  established : out.established = true ↔ pc = .begun
  told : out.disassocInd = true ↔ pc = .disassoc ∧ head = some .assocReqFrame
  back : (out.ret ≠ .waiting ∧ out.wdn.state = .assoc) ↔
    pc = .disassoc ∧ head = some .assocReqFrame
  waits : out.ret = .waiting →
    out.wdn.state = .block8021x ∨ out.wdn.state = .unblock8021x
  leaves : out.ret ≠ .waiting → out.wdn.state ≠ .assoc →
    WdnState.assoc.value < out.wdn.state.value

theorem maintainMsg_move {w : ApWdn} (was : w.state = .block8021x ∨ w.state = .unblock8021x)
    (tag : ApMsgTag) : MaintainMove .poll (some tag) (maintainMsg w tag) := by
  rcases was with state | state <;> cases tag <;>
    constructor <;> simp [maintainMsg, leaveLoop, goOn, state, WdnState.value]

theorem secondTick_move {w : ApWdn} (was : w.state = .block8021x ∨ w.state = .unblock8021x) :
    MaintainMove .poll none (secondTick w) := by
  unfold secondTick
  dsimp only
  rcases was with state | state <;> split_ifs <;>
    constructor <;> simp [leaveLoop, goOn, state, WdnState.value]

theorem afterDisassoc_move {w : ApWdn}
    (was : w.state = .block8021x ∨ w.state = .unblock8021x) (head : Option ApMsgTag)
    (expired : Bool) : MaintainMove .disassoc head (afterDisassoc w head expired) := by
  unfold afterDisassoc
  rcases was with state | state <;> split_ifs with request <;>
    constructor <;> simp_all [leaveLoop, goOn, WdnState.value]

theorem maintainThrd_move {w : ApWdn} {pc : MaintainPc} (algrthm : AuthAlgrthm)
    (head : Option ApMsgTag) (expired : Bool)
    (was : pc = .begun ∨ w.state = .block8021x ∨ w.state = .unblock8021x) :
    MaintainMove pc head (maintainThrd algrthm w pc head expired) := by
  cases pc with
  | begun =>
      by_cases blocks : algrthm = .ieee8021x <;>
        constructor <;> simp [maintainThrd, beginMaintain, goOn, blocks]
  | poll =>
      simp only [reduceCtorEq, false_or] at was
      cases head with
      | some tag => exact maintainMsg_move was tag
      | none =>
          cases expired with
          | true => exact secondTick_move was
          | false => constructor <;> simp [maintainThrd, goOn, was]
  | disassoc =>
      simp only [reduceCtorEq, false_or] at was
      exact afterDisassoc_move was head expired

theorem nodeOk_auth (ok : NodeOk (s.nodes n)) (pc : AuthPc) :
    NodeOk ((authPhase cfg s n pc a).nodes n) := by
  constructor
  · simpa [authPhase] using ok.aid
  · intro pc' here
    simp only [authPhase, setNode_nodes, Function.update_self] at here
    split at here <;> cases here

theorem nodeOk_assoc (ok : NodeOk (s.nodes n)) : NodeOk ((assocPhase cfg s n a).nodes n) := by
  constructor
  · simpa [assocPhase] using ok.aid
  · intro pc here
    simp only [assocPhase, setNode_nodes, Function.update_self] at here
    split at here <;> cases here
    exact .inl rfl

theorem nodeOk_maintain (ok : NodeOk (s.nodes n)) {pc : MaintainPc}
    (runs : (s.nodes n).pc = .maintain pc) :
    NodeOk ((maintainPhase cfg s n pc a).nodes n) := by
  constructor
  · simpa [maintainPhase] using ok.aid
  · intro pc' here
    simp only [maintainPhase, setNode_nodes, Function.update_self] at here ⊢
    split_ifs at here with waits back
    exact .inr ((maintainThrd_move _ _ _ (ok.maintained pc runs)).waits waits)

theorem nodeOk_clearup (ok : NodeOk (s.nodes n)) : NodeOk ((clearupPhase s n).nodes n) := by
  obtain ⟨msgFree, eq⟩ := apMsgQueClearup_eq s n
  constructor
  · simpa [clearupPhase, eq] using ok.aid
  · intro pc here
    simp [clearupPhase] at here

theorem NodesOk.keeps (ok : NodesOk s) (kept : Keeps n s s') (node : NodeOk (s'.nodes n)) :
    NodesOk s' := by
  intro m
  by_cases same : m = n
  · rw [same]
    exact node
  · rw [kept.others m same]
    exact ok m

theorem NodesOk.set (ok : NodesOk s) {node : ApNode}
    (nodes : s'.nodes = Function.update s.nodes n node) (good : NodeOk node) :
    NodesOk s' := by
  intro m
  rw [nodes]
  by_cases same : m = n
  · rw [same, Function.update_self]
    exact good
  · rw [Function.update_of_ne same]
    exact ok m

theorem NodesOk.thrd (ok : NodesOk s) (lists : ListOk s) (listed : n ∈ s.head) :
    NodesOk (apThrd cfg s n a) := by
  have phase := apThrd_phase cfg s n a
  generalize apThrd cfg s n a = s' at phase
  cases phase with
  | auth here => exact ok.keeps (authPhase_keeps _) (nodeOk_auth (ok n) _)
  | assoc here => exact ok.keeps assocPhase_keeps (nodeOk_assoc (ok n))
  | maintain here => exact ok.keeps (maintainPhase_keeps _) (nodeOk_maintain (ok n) here)
  | clearup here => exact ok.keeps clearupPhase_keeps (nodeOk_clearup (ok n))
  | remove here =>
      rw [lists.removePhase_eq listed]
      exact ok.set rfl ⟨(ok n).aid, fun pc here => by cases here⟩

theorem newWdnId_lt {id : Nat} (fresh : newWdnId s = some id) : id < 32 := by
  have listed := List.mem_of_find?_eq_some fresh
  simpa using listed

theorem nodeOk_station {id : Nat} (small : id < 32) : NodeOk (stationNode mac id) := by
  refine ⟨?_, fun pc here => by cases here⟩
  simp only [stationNode, UInt32.le_iff_toNat_le, UInt32.toNat_ofNat']
  rw [Nat.mod_eq_of_lt (by omega)]
  exact (by omega : id + 1 ≤ 2007)

theorem NodesOk.addStation (ok : NodesOk s) {id : Nat} (small : id < 32) (n : Nat)
    (rest : List Nat) (mac : MacAddr) : NodesOk (addStation s n rest mac id) :=
  ok.set rfl (nodeOk_station small)

theorem NodesOk.msgLoad (ok : NodesOk s) (n : Nat) (tag : ApMsgTag) (frame : List UInt8)
    (stale : Mem) : NodesOk (wfApMsgLoad s n tag frame stale) := by
  obtain ⟨que, msgFree, msgs, eq⟩ := wfApMsgLoad_eq s n tag frame stale
  rw [eq]
  exact ok.set rfl ⟨(ok n).aid, (ok n).maintained⟩

theorem NodesOk.load (ok : NodesOk s) (lists : ListOk s) (ctx : Ctx) (stale : Mem) :
    NodesOk (recvLoad s ctx stale) := by
  have taken : NodesOk (takePending s ctx) := ok
  have loads := lists.loads ctx stale
  generalize recvLoad s ctx stale = s' at loads
  cases loads with
  | idle none => exact ok
  | dropped waits stray => exact taken
  | known waits node short => exact taken.msgLoad _ _ _ _
  | @station p n id rest waits isRx node short free fresh =>
      exact (taken.addStation (newWdnId_lt fresh) n rest p.sa).msgLoad _ _ _ _

theorem NodesOk.step (ok : NodesOk s) (lists : ListOk s) (event : ApEvent)
    (moved : apStep cfg s event = some s') : NodesOk s' := by
  cases event with
  | find tag sa frame =>
      cases moved
      unfold recvFind
      split
      · exact ok
      · exact ok
  | load ctx stale =>
      cases moved
      exact ok.load lists ctx stale
  | packet n =>
      cases moved
      exact ok.set rfl ⟨(ok n).aid, (ok n).maintained⟩
  | thrd n a =>
      cases moved
      split_ifs with listed
      · exact ok.thrd lists listed
      · exact ok

theorem nodesOk_start : NodesOk apStart := by
  intro n
  refine ⟨?_, fun pc here => by cases here⟩
  change bcNode.aid ≤ 2007
  decide

end Nodes

/-! ## A station of an open network -/

def openCfg : ApConfig where
  auth := ⟨.openSystem, .noPrivacy, noKeys⟩
  assoc := ⟨0, 0, 0, 0⟩
  net := ⟨[0x61, 0x70], [0x82, 0x84, 0x8b, 0x96], false⟩

def apCall : ApAnswers where
  auth := ⟨false, true, fun _ => 0⟩
  assoc := ⟨true, ⟨0, 0⟩, ⟨0, 0⟩⟩
  expired := false

def openFrame : List UInt8 := 0xb0 :: (List.replicate 25 0 ++ [1, 0, 0, 0])

/-- A request for the network, with its rates. -/
def openRequest : List UInt8 :=
  List.replicate 28 0 ++ [0, 2, 0x61, 0x70] ++ [1, 4, 0x82, 0x84, 0x8b, 0x96]

def arrives (sa : MacAddr) (tag : ApMsgTag) (frame : List UInt8) : List ApEvent :=
  [.find tag sa frame, .load (ctxOf tag) fun _ => 0]

/-- A station is authenticated, and the AP is about to handle its request. -/
def asksToJoin : List ApEvent :=
  arrives staAddr .authFrame openFrame ++ .thrd 1 apCall ::
    arrives staAddr .assocReqFrame openRequest ++ [.thrd 1 apCall]

def leaveFrame (type : UInt8) : List UInt8 := type :: List.replicate 25 0

/-- The station is associated and deauthenticates itself. -/
def joinsAndLeaves : List ApEvent :=
  asksToJoin ++ [.thrd 1 apCall, .thrd 1 apCall] ++
    arrives staAddr .deauthFrame (leaveFrame 0xc0) ++
    [.thrd 1 apCall, .thrd 1 apCall, .thrd 1 apCall]

end Smartchip.Ap
