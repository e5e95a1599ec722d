import Mathlib.Algebra.Group.Nat.Defs
import Mathlib.Data.List.Sublists
import Mathlib.Logic.Function.Basic
import Smartchip.Foundation.Run
import Smartchip.Frame.Header

/-!
# Owner negotiations and invitations of P2P

`nic/p2p/p2p_frame_mgt.c`: what `wf_p2p_check_frames` keeps of the action frames that are
sent and received.  The channel lists are left out: nothing here reads them.
-/

namespace Smartchip.P2p

open Smartchip.Foundation Smartchip.Frame

def p2pOui : List UInt8 := [0x50, 0x6f, 0x9a, 0x09]

/-- A frame, and the attributes that `wf_p2p_get_attr_content` finds in its P2P element. -/
structure P2pFrame where
  buf : Mem
  p2pIe : Option (UInt8 → Option Mem)

/-- What the calls read of the other interface: whether it is connected and does not have
`full_ch_in_p2p_handshake`, and its channel. -/
structure Buddy where
  linked : Bool
  channel : UInt8

namespace P2pFrame

def body (f : P2pFrame) : Mem := fun i => f.buf (24 + i)

def attr (f : P2pFrame) (id : UInt8) : Option Mem := f.p2pIe.bind fun ie => ie id

def dialogToken (f : P2pFrame) : UInt8 := f.body 7

def addr1 (f : P2pFrame) : MacAddr := Vector.ofFn fun i => f.buf (4 + i)

def addr2 (f : P2pFrame) : MacAddr := Vector.ofFn fun i => f.buf (10 + i)

def peer (f : P2pFrame) (isTx : Bool) : MacAddr := if isTx then f.addr1 else f.addr2

def status (f : P2pFrame) : Option UInt8 := (f.attr 0x00).map fun cont => cont 0

def intent (f : P2pFrame) : Option UInt8 := (f.attr 0x04).map fun cont => cont 0

def listenCh (f : P2pFrame) : Option UInt8 := (f.attr 0x06).map fun cont => cont 4

def opCh (f : P2pFrame) : Option UInt8 := (f.attr 0x11).map fun cont => cont 4

def flags (f : P2pFrame) : Option UInt8 := (f.attr 0x12).map fun cont => cont 0

/-- The OUI subtype of a P2P public action frame. -/
def ouiSubtype (f : P2pFrame) : Option UInt8 :=
  if f.body 0 = 4 ∧ f.body 1 = 9 ∧ f.body.read 2 4 = p2pOui then some (f.body 6) else none

/-- The content `cont` of attribute `id` becomes `new cont`. -/
def withAttr (f : P2pFrame) (id : UInt8) (new : Mem → Mem) : P2pFrame :=
  { f with p2pIe := f.p2pIe.map fun ie => Function.update ie id ((ie id).map new) }

/-- `p2p_adjust_channel` -/
def adjustChannel (f : P2pFrame) (buddyCh : UInt8) : P2pFrame :=
  f.withAttr 0x11 fun cont => Function.update cont 4 buddyCh

/-- What is done to the frame before its attributes are read: a frame that is sent gets the
channel of the other interface. -/
def adjusted (f : P2pFrame) (buddy : Buddy) (isTx : Bool) : P2pFrame :=
  if isTx = true ∧ buddy.linked = true then f.adjustChannel buddy.channel else f

/-- An invitation response that is sent has its status changed as well. -/
def unknownGroup (f : P2pFrame) (isTx : Bool) : P2pFrame :=
  if isTx = true ∧ f.status = some 7 then f.withAttr 0x00 fun cont => Function.update cont 0 8
  else f

end P2pFrame

structure NegoInfo where
  state : UInt8
  peerMac : MacAddr
  active : UInt8
  token : UInt8
  status : UInt8
  reqIntent : UInt8
  reqOpCh : UInt8
  reqListenCh : UInt8
  rspIntent : UInt8
  rspOpCh : UInt8
  confOpCh : UInt8
  deriving DecidableEq

def NegoInfo.init : NegoInfo :=
  ⟨0xff, Vector.replicate 6 0, 0xff, 0, 0xff, 0xff, 0, 0, 0xff, 0, 0⟩

structure InvitInfo where
  state : UInt8
  peerMac : MacAddr
  active : UInt8
  token : UInt8
  flags : UInt8
  status : UInt8
  reqOpCh : UInt8
  rspOpCh : UInt8
  deriving DecidableEq

def InvitInfo.init : InvitInfo := ⟨0xff, Vector.replicate 6 0, 0xff, 0, 0, 0xff, 0, 0⟩

structure P2pInfo where
  negoInfo : NegoInfo
  invitInfo : InvitInfo
  linkChannel : UInt8
  peerListenChannel : UInt8
  provdiscReqIssued : Bool
  goNegoing : UInt32

def P2pInfo.init : P2pInfo := ⟨.init, .init, 0, 0, false, 0⟩

/-! ## The five frames -/

def p2pCheckNegoReq (p : P2pInfo) (f : P2pFrame) (isTx : Bool) : P2pInfo :=
  let nego := if p.negoInfo.token ≠ f.dialogToken then .init else p.negoInfo
  { p with
    negoInfo := { nego with
      peerMac := f.peer isTx
      active := if isTx then 1 else 0
      token := f.dialogToken
      reqOpCh := f.opCh.getD 0
      reqListenCh := f.listenCh.getD 0
      reqIntent := f.intent.getD 0
      state := 0 }
    peerListenChannel := if isTx then p.peerListenChannel else f.listenCh.getD 0 }

/-- The frame is of the exchange that `nego_info` is about, and comes in its turn. -/
def NegoInfo.Awaits (nego : NegoInfo) (state : UInt8) (f : P2pFrame) (isTx : Bool) : Prop :=
  nego.token = f.dialogToken ∧ nego.state = state ∧ nego.peerMac = f.peer isTx

instance (nego : NegoInfo) (state : UInt8) (f : P2pFrame) (isTx : Bool) :
    Decidable (nego.Awaits state f isTx) := by
  unfold NegoInfo.Awaits
  infer_instance

def NegoInfo.responded (nego : NegoInfo) (f : P2pFrame) : NegoInfo :=
  { nego with
    status := f.status.getD 0xff
    rspOpCh := f.opCh.getD 0xff
    rspIntent := f.intent.getD 0
    state := 1
    token := if f.status ≠ some 0 then 0 else nego.token }

def NegoInfo.confirmed (nego : NegoInfo) (f : P2pFrame) : NegoInfo :=
  { nego with
    status := f.status.getD 0xff
    confOpCh := f.opCh.getD 0
    state := 2
    token := 0 }

def p2pCheckNegoRsp (p : P2pInfo) (f : P2pFrame) (isTx : Bool) : P2pInfo :=
  let p := { p with provdiscReqIssued := if isTx then p.provdiscReqIssued else false }
  if p.negoInfo.Awaits 0 f isTx then { p with negoInfo := p.negoInfo.responded f } else p

def p2pCheckNegoConfirm (p : P2pInfo) (f : P2pFrame) (isTx : Bool) : P2pInfo :=
  let p' := if p.negoInfo.Awaits 1 f isTx then
      { p with negoInfo := p.negoInfo.confirmed f }
    else p
  { p' with linkChannel := f.opCh.getD 0xff }

def p2pCheckInvitReq (p : P2pInfo) (f : P2pFrame) (isTx : Bool) : P2pInfo :=
  let invit := if p.invitInfo.token ≠ f.dialogToken then .init else p.invitInfo
  { p with invitInfo := { invit with
      peerMac := f.peer isTx
      active := if isTx then 1 else 0
      token := f.dialogToken
      flags := f.flags.getD 0
      reqOpCh := f.opCh.getD 0xff
      state := 0 } }

def InvitInfo.Awaits (invit : InvitInfo) (f : P2pFrame) (isTx : Bool) : Prop :=
  invit.token = f.dialogToken ∧ invit.state = 0 ∧ invit.peerMac = f.peer isTx

instance (invit : InvitInfo) (f : P2pFrame) (isTx : Bool) : Decidable (invit.Awaits f isTx) := by
  unfold InvitInfo.Awaits
  infer_instance

def p2pCheckInvitRsp (p : P2pInfo) (f : P2pFrame) (isTx : Bool) : P2pInfo :=
  let f := f.unknownGroup isTx
  let p' := if p.invitInfo.Awaits f isTx then
      { p with invitInfo := { p.invitInfo with
          status := f.status.getD 0xff
          rspOpCh := f.opCh.getD 0xff
          state := 1
          token := 0 } }
    else p
  { p' with linkChannel := f.opCh.getD 0xff }

def provisionDiscReq (p : P2pInfo) (f : P2pFrame) : P2pInfo :=
  { p with provdiscReqIssued := f.p2pIe.isSome && (f.attr 0x0f).isNone }

def negoing (p : P2pInfo) (subtype : UInt32) : P2pInfo :=
  { p with goNegoing := p.goNegoing ||| 1 <<< subtype }

/-- The frames of the other subtypes are only printed. -/
def wfP2pCheckFrames (p : P2pInfo) (buddy : Buddy) (f : P2pFrame) (isTx : Bool) :
    Int × P2pInfo :=
  match f.ouiSubtype with
  | some subtype => (subtype.toNat,
      if subtype = 0 then p2pCheckNegoReq (negoing p 0) (f.adjusted buddy isTx) isTx
      else if subtype = 1 then p2pCheckNegoRsp (negoing p 1) (f.adjusted buddy isTx) isTx
      else if subtype = 2 then p2pCheckNegoConfirm (negoing p 2) (f.adjusted buddy isTx) isTx
      else if subtype = 3 then p2pCheckInvitReq (negoing p 3) (f.adjusted buddy isTx) isTx
      else if subtype = 4 then p2pCheckInvitRsp (negoing p 4) (f.adjusted buddy isTx) isTx
      else if subtype = 7 then provisionDiscReq p f
      else p)
  | none =>
      if f.body 0 = 4 then (-1, p)
      else if f.body 0 = 0x7f then ((f.body 5).toNat, p)
      else (0, p)

/-! ## Runs -/

/-- A frame as its attributes were read, and what the call found and left. -/
structure Entry where
  frame : P2pFrame
  isTx : Bool
  before : P2pInfo
  after : P2pInfo

structure P2pRun where
  info : P2pInfo
  log : List Entry

structure FrameEvent where
  buddy : Buddy
  frame : P2pFrame
  isTx : Bool

/-- The entry that the frame of the event makes. -/
def entryOf (s : P2pRun) (e : FrameEvent) : Entry where
  frame := e.frame.adjusted e.buddy e.isTx
  isTx := e.isTx
  before := s.info
  after := (wfP2pCheckFrames s.info e.buddy e.frame e.isTx).2

def p2pStep (s : P2pRun) (e : FrameEvent) : Option P2pRun :=
  some ⟨(entryOf s e).after, s.log ++ [entryOf s e]⟩

def p2pStart : P2pRun := ⟨.init, []⟩

/-! ## What is to hold -/

namespace Entry

def subtype (e : Entry) : Option UInt8 := e.frame.ouiSubtype

def peer (e : Entry) : MacAddr := e.frame.peer e.isTx

/-- A response or a confirmation of the negotiation that was taken. -/
def negoTaken (e : Entry) (subtype state : UInt8) : Prop :=
  e.subtype = some subtype ∧ e.before.negoInfo.Awaits state e.frame e.isTx

/-- A confirmation or an invitation response that was taken. -/
def channelTaken (e : Entry) : Prop :=
  e.subtype = some 2 ∧ e.before.negoInfo.Awaits 1 e.frame e.isTx ∨
    e.subtype = some 4 ∧ e.before.invitInfo.Awaits e.frame e.isTx

instance (e : Entry) : Decidable e.channelTaken := by
  unfold channelTaken
  infer_instance

/-- A response or a confirmation of another token or another peer. -/
def Foreign (e : Entry) : Prop :=
  (e.subtype = some 1 ∨ e.subtype = some 2) ∧ ¬ (e.before.negoInfo.token = e.frame.dialogToken ∧
      e.before.negoInfo.peerMac = e.peer) ∨
    e.subtype = some 4 ∧ ¬ (e.before.invitInfo.token = e.frame.dialogToken ∧
      e.before.invitInfo.peerMac = e.peer)

end Entry

/-- The frames from the last negotiation request on. -/
def sinceRequest (log : List Entry) : List Entry :=
  log.foldl (fun since e => if e.subtype = some 0 then [e] else since ++ [e]) []

/-- The channel of the last confirmation or invitation response that was taken with one. -/
def carriedChannel (log : List Entry) : UInt8 :=
  log.foldl (fun ch e => if e.channelTaken then e.frame.opCh.getD ch else ch) 0

/-- Entry `e` is of the exchange of `token` with `peer`. -/
def Entry.Of (e : Entry) (token : UInt8) (peer : MacAddr) : Prop :=
  e.frame.dialogToken = token ∧ e.peer = peer

def Agreed (since : List Entry) : Prop :=
  ∃ token peer req rsp conf, [req, rsp, conf].Sublist since ∧
    req.subtype = some 0 ∧ req.Of token peer ∧
    rsp.negoTaken 1 0 ∧ rsp.Of token peer ∧ rsp.frame.status = some 0 ∧
    conf.negoTaken 2 1 ∧ conf.Of token peer ∧ conf.frame.status = some 0

structure NegoKept (s : P2pRun) : Prop where
  agreed : s.info.negoInfo.state = 2 → s.info.negoInfo.status = 0 → Agreed (sinceRequest s.log)
  foreign : ∀ e ∈ s.log, e.Foreign → e.after.negoInfo = e.before.negoInfo ∧
    e.after.linkChannel = e.before.linkChannel
  channel : s.info.linkChannel = carriedChannel s.log

/--
A confirmation that is taken and has status 0 follows a response of status 0.  A confirmation
or an invitation response that is not taken, or has no operating channel, says the channel that
is there.
-/
def NegoAllowed (s : P2pRun) (e : FrameEvent) : Prop :=
  let f := e.frame.adjusted e.buddy e.isTx
  (f.ouiSubtype = some 2 → s.info.negoInfo.Awaits 1 f e.isTx → f.status = some 0 →
      s.info.negoInfo.status = 0) ∧
    (f.ouiSubtype = some 2 → s.info.negoInfo.Awaits 1 f e.isTx ∧ f.opCh.isSome ∨
      f.opCh.getD 0xff = s.info.linkChannel) ∧
    (f.ouiSubtype = some 4 → s.info.invitInfo.Awaits f e.isTx ∧ f.opCh.isSome ∨
      f.opCh.getD 0xff = s.info.linkChannel)

/-! ## Single frames -/

namespace P2pFrame

@[simp] theorem ouiSubtype_adjusted (f : P2pFrame) (buddy : Buddy) (isTx : Bool) :
    (f.adjusted buddy isTx).ouiSubtype = f.ouiSubtype := by
  unfold adjusted
  split_ifs <;> rfl

@[simp] theorem opCh_unknownGroup (f : P2pFrame) (isTx : Bool) :
    (f.unknownGroup isTx).opCh = f.opCh := by
  unfold unknownGroup
  split_ifs
  · cases f with
    | mk buf p2pIe => cases p2pIe <;> simp [opCh, attr, withAttr]
  · rfl

end P2pFrame

theorem rsp_spec (p : P2pInfo) (f : P2pFrame) (isTx : Bool) :
    (p2pCheckNegoRsp p f isTx).linkChannel = p.linkChannel ∧
      (p2pCheckNegoRsp p f isTx).negoInfo =
        if p.negoInfo.Awaits 0 f isTx then p.negoInfo.responded f else p.negoInfo := by
  simp only [p2pCheckNegoRsp]
  split_ifs <;> simp

theorem confirm_spec (p : P2pInfo) (f : P2pFrame) (isTx : Bool) :
    (p2pCheckNegoConfirm p f isTx).linkChannel = f.opCh.getD 0xff ∧
      (p2pCheckNegoConfirm p f isTx).negoInfo =
        if p.negoInfo.Awaits 1 f isTx then p.negoInfo.confirmed f else p.negoInfo := by
  simp only [p2pCheckNegoConfirm]
  split_ifs <;> simp

theorem invitRsp_spec (p : P2pInfo) (f : P2pFrame) (isTx : Bool) :
    (p2pCheckInvitRsp p f isTx).linkChannel = f.opCh.getD 0xff ∧
      (p2pCheckInvitRsp p f isTx).negoInfo = p.negoInfo := by
  simp only [p2pCheckInvitRsp, P2pFrame.opCh_unknownGroup, true_and]
  split_ifs <;> rfl

/-- What a frame does to `nego_info` and to `link_channel`. -/
theorem checkFrames_cases (p : P2pInfo) (buddy : Buddy) (f : P2pFrame) (isTx : Bool) :
    let g := f.adjusted buddy isTx
    let p' := (wfP2pCheckFrames p buddy f isTx).2
    (g.ouiSubtype = some 0 ∧ p'.negoInfo.state = 0 ∧ p'.negoInfo.token = g.dialogToken ∧
        p'.negoInfo.peerMac = g.peer isTx ∧ p'.linkChannel = p.linkChannel) ∨
      (g.ouiSubtype = some 1 ∧ p'.linkChannel = p.linkChannel ∧
        p'.negoInfo = if p.negoInfo.Awaits 0 g isTx then p.negoInfo.responded g
          else p.negoInfo) ∨
      (g.ouiSubtype = some 2 ∧ p'.linkChannel = g.opCh.getD 0xff ∧
        p'.negoInfo = if p.negoInfo.Awaits 1 g isTx then p.negoInfo.confirmed g
          else p.negoInfo) ∨
      (g.ouiSubtype = some 4 ∧ p'.linkChannel = g.opCh.getD 0xff ∧
        p'.negoInfo = p.negoInfo) ∨
      ((∀ n ∈ ([0, 1, 2, 4] : List UInt8), g.ouiSubtype ≠ some n) ∧
        p'.negoInfo = p.negoInfo ∧ p'.linkChannel = p.linkChannel) := by
  dsimp only
  rw [P2pFrame.ouiSubtype_adjusted]
  cases kind : f.ouiSubtype with
  | none =>
      refine .inr (.inr (.inr (.inr ⟨by simp, ?_⟩)))
      simp only [wfP2pCheckFrames, kind]
      split_ifs <;> exact ⟨rfl, rfl⟩
  | some subtype =>
      by_cases req : subtype = 0
      · subst req
        simp [wfP2pCheckFrames, kind, p2pCheckNegoReq, negoing]
      by_cases rsp : subtype = 1
      · subst rsp
        simp only [wfP2pCheckFrames, kind]
        exact .inr (.inl ⟨trivial, rsp_spec _ _ _⟩)
      by_cases conf : subtype = 2
      · subst conf
        simp only [wfP2pCheckFrames, kind]
        exact .inr (.inr (.inl ⟨trivial, confirm_spec _ _ _⟩))
      by_cases invitRsp : subtype = 4
      · subst invitRsp
        simp only [wfP2pCheckFrames, kind]
        exact .inr (.inr (.inr (.inl ⟨trivial, invitRsp_spec _ _ _⟩)))
      · refine .inr (.inr (.inr (.inr ⟨by simp [req, rsp, conf, invitRsp], ?_⟩)))
        simp only [wfP2pCheckFrames, kind, req, rsp, conf, invitRsp, if_false]
        split_ifs <;> exact ⟨rfl, rfl⟩

theorem sinceRequest_append (log : List Entry) (x : Entry) :
    sinceRequest (log ++ [x]) =
      if x.subtype = some 0 then [x] else sinceRequest log ++ [x] := by
  simp [sinceRequest]

theorem carriedChannel_append (log : List Entry) (x : Entry) :
    carriedChannel (log ++ [x]) =
      if x.channelTaken then x.frame.opCh.getD (carriedChannel log) else carriedChannel log := by
  simp [carriedChannel]

/-! ## The negotiation -/

/-- What `nego_info` says of the frames since the last request. -/
structure NegoClean (nego : NegoInfo) (since : List Entry) : Prop where
  asked : nego.state = 0 →
    (∃ req ∈ since, req.subtype = some 0 ∧ req.Of nego.token nego.peerMac) ∧
      ∀ e ∈ since, ¬ e.negoTaken 1 0
  answered : nego.state = 1 →
    (∀ e ∈ since, e.negoTaken 1 0 → e.frame.status.getD 0xff = nego.status) ∧
      (nego.status = 0 → ∃ req rsp, [req, rsp].Sublist since ∧ req.subtype = some 0 ∧
        req.Of nego.token nego.peerMac ∧ rsp.negoTaken 1 0 ∧ rsp.Of nego.token nego.peerMac ∧
        rsp.frame.status = some 0)
  agreed : nego.state = 2 → nego.status = 0 → Agreed since

theorem status_of_getD {status : Option UInt8} (zero : status.getD 0xff = 0) :
    status = some 0 := by
  cases status with
  | none => simp at zero
  | some n => simpa using zero

section Negotiation

variable {nego : NegoInfo} {since : List Entry} {x : Entry}

theorem Agreed.append (agreed : Agreed since) (x : Entry) : Agreed (since ++ [x]) := by
  obtain ⟨token, peer, req, rsp, conf, order, rest⟩ := agreed
  exact ⟨token, peer, req, rsp, conf, order.trans (List.sublist_append_left since [x]), rest⟩

theorem NegoClean.append (clean : NegoClean nego since) (other : ¬ x.negoTaken 1 0) :
    NegoClean nego (since ++ [x]) := by
  constructor
  · intro state
    obtain ⟨⟨req, member, rest⟩, none⟩ := clean.asked state
    refine ⟨⟨req, by simp [member], rest⟩, ?_⟩
    simpa [or_imp, forall_and, other] using none
  · intro state
    obtain ⟨statuses, pair⟩ := clean.answered state
    refine ⟨?_, ?_⟩
    · simpa [or_imp, forall_and, other] using statuses
    · intro zero
      obtain ⟨req, rsp, order, rest⟩ := pair zero
      exact ⟨req, rsp, order.trans (List.sublist_append_left since [x]), rest⟩
  · intro state zero
    exact (clean.agreed state zero).append x

theorem NegoClean.request (asks : x.subtype = some 0) (state : nego.state = 0)
    (exchange : x.Of nego.token nego.peerMac) : NegoClean nego [x] := by
  constructor
  · intro _
    exact ⟨⟨x, by simp, asks, exchange⟩, by simp [Entry.negoTaken, asks]⟩
  · simp [state]
  · simp [state]

theorem NegoClean.responded (clean : NegoClean nego since) (kind : x.subtype = some 1)
    (found : x.before.negoInfo = nego) (taken : nego.Awaits 0 x.frame x.isTx) :
    NegoClean (nego.responded x.frame) (since ++ [x]) := by
  obtain ⟨⟨req, member, asks, exchange⟩, none⟩ := clean.asked taken.2.1
  constructor
  · simp [NegoInfo.responded]
  · intro _
    refine ⟨?_, ?_⟩
    · intro e among taken'
      rcases List.mem_append.mp among with old | new
      · exact absurd taken' (none e old)
      · rw [List.mem_singleton.mp new]
        rfl
    · intro zero
      have accepted : x.frame.status = some 0 := status_of_getD zero
      have token : (nego.responded x.frame).token = nego.token := by
        simp [NegoInfo.responded, accepted]
      rw [token]
      refine ⟨req, x, ?_, asks, exchange, ⟨kind, found ▸ taken⟩,
        ⟨taken.1.symm, taken.2.2.symm⟩, accepted⟩
      exact (List.singleton_sublist.mpr member).append (List.Sublist.refl [x])
  · simp [NegoInfo.responded]

theorem NegoClean.confirmed (clean : NegoClean nego since) (kind : x.subtype = some 2)
    (found : x.before.negoInfo = nego) (taken : nego.Awaits 1 x.frame x.isTx)
    (allowed : x.frame.status = some 0 → nego.status = 0) :
    NegoClean (nego.confirmed x.frame) (since ++ [x]) := by
  constructor
  · simp [NegoInfo.confirmed]
  · simp [NegoInfo.confirmed]
  · intro _ zero
    have accepted : x.frame.status = some 0 := status_of_getD zero
    obtain ⟨req, rsp, order, asks, first, response, second, status⟩ :=
      (clean.answered taken.2.1).2 (allowed accepted)
    exact ⟨nego.token, nego.peerMac, req, rsp, x, order.append (List.Sublist.refl [x]), asks,
      first, response, second, status, ⟨kind, found ▸ taken⟩,
      ⟨taken.1.symm, taken.2.2.symm⟩, accepted⟩

/-- Behind a response that refused, no confirmation agrees. -/
theorem NegoClean.not_agreed (clean : NegoClean nego since) (state : nego.state = 1)
    (refused : nego.status ≠ 0) (kind : x.subtype = some 2) : ¬ Agreed (since ++ [x]) := by
  rintro ⟨token, peer, req, rsp, conf, order, -, -, taken, -, status, -⟩
  have member : rsp ∈ since ++ [x] := order.subset (by simp)
  rcases List.mem_append.mp member with old | new
  · have same := (clean.answered state).1 rsp old taken
    simp [status] at same
    exact refused same.symm
  · rw [List.mem_singleton.mp new] at taken
    simp [Entry.negoTaken, kind] at taken

end Negotiation

/-! ## Whole runs -/

structure P2pClean (s : P2pRun) : Prop where
  nego : NegoClean s.info.negoInfo (sinceRequest s.log)
  foreign : ∀ e ∈ s.log, e.Foreign → e.after.negoInfo = e.before.negoInfo ∧
    e.after.linkChannel = e.before.linkChannel
  channel : s.info.linkChannel = carriedChannel s.log

theorem P2pClean.kept {s : P2pRun} (clean : P2pClean s) : NegoKept s :=
  ⟨clean.nego.agreed, clean.foreign, clean.channel⟩

theorem foreign_append {s : P2pRun} {x : Entry} (clean : P2pClean s)
    (unchanged : x.Foreign → x.after.negoInfo = x.before.negoInfo ∧
      x.after.linkChannel = x.before.linkChannel) :
    ∀ e ∈ s.log ++ [x], e.Foreign → e.after.negoInfo = e.before.negoInfo ∧
      e.after.linkChannel = e.before.linkChannel := by
  intro e member
  rcases List.mem_append.mp member with old | new
  · exact clean.foreign e old
  · rw [List.mem_singleton.mp new]
    exact unchanged

/-- A frame that writes the channel keeps it the carried one if it is taken and has one, or
says the one that is there. -/
theorem carried_iff {opCh : Option UInt8} {taken : Prop} [Decidable taken] {link : UInt8} :
    (opCh.getD 0xff = if taken then opCh.getD link else link) ↔
      taken ∧ opCh.isSome ∨ opCh.getD 0xff = link := by
  cases opCh with
  | none => split_ifs <;> simp
  | some ch => split_ifs with is <;> simp [is]

section Step

variable {s : P2pRun} {e : FrameEvent}

theorem channelTaken_conf (kind : (entryOf s e).frame.ouiSubtype = some 2) :
    (entryOf s e).channelTaken ↔
      s.info.negoInfo.Awaits 1 (entryOf s e).frame e.isTx := by
  simp only [Entry.channelTaken, Entry.subtype, kind]
  simp [entryOf]

theorem channelTaken_invitRsp (kind : (entryOf s e).frame.ouiSubtype = some 4) :
    (entryOf s e).channelTaken ↔ s.info.invitInfo.Awaits (entryOf s e).frame e.isTx := by
  simp only [Entry.channelTaken, Entry.subtype, kind]
  simp [entryOf]

/-- A frame of another negotiation is not awaited. -/
theorem not_awaits_of_foreign {subtype : UInt8} (answer : subtype = 1 ∨ subtype = 2)
    (kind : (entryOf s e).subtype = some subtype) (foreign : (entryOf s e).Foreign)
    (state : UInt8) : ¬ s.info.negoInfo.Awaits state (entryOf s e).frame e.isTx := by
  intro taken
  rcases answer with rfl | rfl
  · simp [Entry.Foreign, kind] at foreign
    exact foreign taken.1 taken.2.2
  · simp [Entry.Foreign, kind] at foreign
    exact foreign taken.1 taken.2.2

theorem P2pClean.step (clean : P2pClean s) (allowed : NegoAllowed s e) :
    ∃ next, p2pStep s e = some next ∧ P2pClean next := by
  refine ⟨_, rfl, ?_⟩
  obtain ⟨agrees, confirms, invites⟩ := allowed
  have since := sinceRequest_append s.log (entryOf s e)
  have carried := carriedChannel_append s.log (entryOf s e)
  have channel := clean.channel
  rcases checkFrames_cases s.info e.buddy e.frame e.isTx with
    ⟨kind, state, token, peer, link⟩ | ⟨kind, link, nego⟩ | ⟨kind, link, nego⟩ |
    ⟨kind, link, nego⟩ | ⟨others, nego, link⟩
  · have asks : (entryOf s e).subtype = some 0 := kind
    refine ⟨?_, foreign_append clean ?_, ?_⟩
    · rw [since, if_pos asks]
      exact NegoClean.request asks state ⟨token.symm, peer.symm⟩
    · simp [Entry.Foreign, asks]
    · rw [carried, if_neg (by simp [Entry.channelTaken, asks])]
      exact link.trans channel
  · have answers : (entryOf s e).subtype = some 1 := kind
    rw [if_neg (by simp [answers])] at since
    refine ⟨?_, foreign_append clean ?_, ?_⟩
    · rw [since]
      change NegoClean (wfP2pCheckFrames s.info e.buddy e.frame e.isTx).2.negoInfo _
      rw [nego]
      split_ifs with taken
      · exact clean.nego.responded answers rfl taken
      · exact clean.nego.append fun took => taken took.2
    · intro foreign
      have apart := not_awaits_of_foreign (.inl rfl) answers foreign 0
      exact ⟨nego.trans (if_neg apart), link⟩
    · rw [carried, if_neg (by simp [Entry.channelTaken, answers])]
      exact link.trans channel
  · have confirm : (entryOf s e).subtype = some 2 := kind
    rw [if_neg (by simp [confirm])] at since
    refine ⟨?_, foreign_append clean ?_, ?_⟩
    · rw [since]
      change NegoClean (wfP2pCheckFrames s.info e.buddy e.frame e.isTx).2.negoInfo _
      rw [nego]
      split_ifs with taken
      · exact clean.nego.confirmed confirm rfl taken (agrees kind taken)
      · exact clean.nego.append fun took => by simp [Entry.negoTaken, confirm] at took
    · intro foreign
      have apart := not_awaits_of_foreign (.inr rfl) confirm foreign 1
      have same := (confirms kind).resolve_left fun both => apart both.1
      exact ⟨nego.trans (if_neg apart), link.trans same⟩
    · rw [carried, ← channel]
      refine link.trans (carried_iff.mpr ?_)
      rw [channelTaken_conf kind]
      exact confirms kind
  · have answers : (entryOf s e).subtype = some 4 := kind
    rw [if_neg (by simp [answers])] at since
    refine ⟨?_, foreign_append clean ?_, ?_⟩
    · rw [since]
      change NegoClean (wfP2pCheckFrames s.info e.buddy e.frame e.isTx).2.negoInfo _
      rw [nego]
      exact clean.nego.append fun took => by simp [Entry.negoTaken, answers] at took
    · intro foreign
      have apart : ¬ s.info.invitInfo.Awaits (entryOf s e).frame e.isTx := by
        intro taken
        simp only [Entry.Foreign, answers] at foreign
        simp at foreign
        exact foreign taken.1 taken.2.2
      have same := (invites kind).resolve_left fun both => apart both.1
      exact ⟨nego, link.trans same⟩
    · rw [carried, ← channel]
      refine link.trans (carried_iff.mpr ?_)
      rw [channelTaken_invitRsp kind]
      exact invites kind
  · have other : ∀ n ∈ ([0, 1, 2, 4] : List UInt8), (entryOf s e).subtype ≠ some n := others
    simp at other
    refine ⟨?_, foreign_append clean ?_, ?_⟩
    · rw [since, if_neg other.1]
      change NegoClean (wfP2pCheckFrames s.info e.buddy e.frame e.isTx).2.negoInfo _
      rw [nego]
      exact clean.nego.append fun took => other.2.1 took.1
    · simp [Entry.Foreign, other]
    · rw [carried, if_neg (by simp [Entry.channelTaken, other])]
      exact link.trans channel

theorem P2pClean.refused {next : P2pRun} (clean : P2pClean s) (refused : ¬ NegoAllowed s e)
    (steps : p2pStep s e = some next) : ¬ NegoKept next := by
  cases steps
  intro kept
  have link := kept.channel
  rw [carriedChannel_append, ← clean.channel] at link
  refine refused ⟨?_, ?_, ?_⟩
  · intro kind taken status
    by_contra answered
    have confirm : (entryOf s e).subtype = some 2 := kind
    have spec := (checkFrames_cases s.info e.buddy e.frame e.isTx).resolve_left (by simp [kind])
    have nego := ((spec.resolve_left (by simp [kind])).resolve_right (by simp [kind])).2.2
    rw [if_pos taken] at nego
    have agreed := kept.agreed
    rw [sinceRequest_append, if_neg (by simp [confirm])] at agreed
    refine clean.nego.not_agreed taken.2.1 answered confirm (agreed ?_ ?_)
    · exact (congrArg NegoInfo.state nego).trans rfl
    · exact (congrArg NegoInfo.status nego).trans (by simp [NegoInfo.confirmed, status])
  · intro kind
    have spec := (checkFrames_cases s.info e.buddy e.frame e.isTx).resolve_left (by simp [kind])
    have written := ((spec.resolve_left (by simp [kind])).resolve_right (by simp [kind])).2.1
    have same := carried_iff.mp (written.symm.trans link)
    rwa [channelTaken_conf kind] at same
  · intro kind
    have spec := (checkFrames_cases s.info e.buddy e.frame e.isTx).resolve_left (by simp [kind])
    have written := (((spec.resolve_left (by simp [kind])).resolve_left
      (by simp [kind])).resolve_right (by simp [kind])).2.1
    have same := carried_iff.mp (written.symm.trans link)
    rwa [channelTaken_invitRsp kind] at same

end Step

theorem p2pStart_clean : P2pClean p2pStart := by
  refine ⟨⟨?_, ?_, ?_⟩, ?_, ?_⟩ <;>
    simp [p2pStart, P2pInfo.init, NegoInfo.init, carriedChannel]

/--
A negotiation that ends well had its three frames, no foreign response or confirmation changes
anything, and the channel is the carried one, throughout exactly the runs in which a refused
negotiation is not confirmed, and a confirmation or an invitation response that is not taken, or
has no channel, says the channel that is there.
-/
theorem negotiation_kept_iff (events : List FrameEvent) :
    Throughout p2pStep NegoKept p2pStart events ↔
      EachStep p2pStep NegoAllowed p2pStart events := by
  apply throughout_iff_of_clean P2pClean
  · exact fun s clean => clean.kept
  · exact fun s event clean allowed => clean.step allowed
  · exact fun s event next clean refused steps => clean.refused refused steps
  · exact p2pStart_clean

/-- A frame that a peer sends, with a status and a channel. -/
def peerFrame (subtype token : UInt8) (status opCh : Option UInt8) : FrameEvent where
  buddy := ⟨false, 0⟩
  frame := {
    buf := Mem.write (fun _ => 0) 0 (List.replicate 10 0 ++ [2, 0, 0, 0, 0, 9] ++
      List.replicate 8 0 ++ [4, 9] ++ p2pOui ++ [subtype, token])
    p2pIe := some fun id => if id = 0x00 then status.map fun value _ => value
      else if id = 0x11 then opCh.map fun value _ => value else none }
  isTx := false

/-- The peer refuses, and then confirms with the token 0. -/
def refusedThenConfirmed : List FrameEvent :=
  [peerFrame 0 5 none (some 6), peerFrame 1 5 (some 1) none, peerFrame 2 0 (some 0) (some 6)]

/-- A confirmation of no negotiation. -/
def strayConfirm : List FrameEvent := [peerFrame 2 5 (some 0) (some 11)]

/-- A refused negotiation ends in state 2 with status 0, and a stray confirmation sets the
channel. -/
theorem nego_confirmed_after_refusal :
    (run p2pStep p2pStart refusedThenConfirmed).map (fun s =>
        (s.info.negoInfo.state, s.info.negoInfo.status)) = some (2, 0) ∧
      ¬ Throughout p2pStep NegoKept p2pStart refusedThenConfirmed ∧
      (run p2pStep p2pStart strayConfirm).map (fun s =>
        (s.info.linkChannel, carriedChannel s.log)) = some (11, 0) ∧
      ¬ Throughout p2pStep NegoKept p2pStart strayConfirm := by
  have refusal : (run p2pStep p2pStart refusedThenConfirmed).map (fun s =>
      ((s.info.negoInfo.state, s.info.negoInfo.status),
        (sinceRequest s.log).map fun e => (e.subtype, e.frame.status))) =
      some ((2, 0), [(some 0, none), (some 1, some 1), (some 2, some 0)]) := by
    decide +kernel
  have stray : (run p2pStep p2pStart strayConfirm).map (fun s =>
      (s.info.linkChannel, carriedChannel s.log)) = some (11, 0) := by
    decide +kernel
  refine ⟨by decide +kernel, ?_, stray, ?_⟩
  · intro throughout
    obtain ⟨final, kept, seen⟩ := throughout.observed refusal
    simp only [Prod.mk.injEq] at seen
    obtain ⟨⟨state, status⟩, frames⟩ := seen
    obtain ⟨token, peer, req, rsp, conf, order, -, -, taken, -, accepted, -⟩ :=
      kept.agreed state status
    have member : (rsp.subtype, rsp.frame.status) ∈
        (sinceRequest final.log).map fun e => (e.subtype, e.frame.status) :=
      List.mem_map_of_mem (order.subset (by simp))
    rw [frames, taken.1, accepted] at member
    revert member
    decide
  · intro throughout
    obtain ⟨final, kept, seen⟩ := throughout.observed stray
    simp only [Prod.mk.injEq] at seen
    have same := kept.channel
    rw [seen.1, seen.2] at same
    exact absurd same (by decide)

end Smartchip.P2p
