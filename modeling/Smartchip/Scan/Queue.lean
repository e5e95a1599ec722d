import Smartchip.Foundation.Run
import Smartchip.Frame.Header
import Smartchip.Utility.Queue

/-!
# The queue of scan results

`nic/wlan_mgmt.c`: the thread of `rx_frame_handle` keeps one node for every BSS
that was heard, strongest first, while readers walk the queue under a counter
and a semaphore.  A step is one turn of a loop of the thread or one call of a
reader, so readers come and go between any two turns.
-/

namespace Smartchip.Scan

open Smartchip.Foundation Smartchip.Frame Smartchip.Utility

inductive ScanList where
  | free
  | ready
  deriving DecidableEq

inductive FrameType where
  | other
  | beacon
  | probeResp
  deriving DecidableEq

structure ScanNode where
  ttl : UInt32
  signalStrength : UInt8
  bssid : MacAddr
  channel : UInt8
  frameType : FrameType

/-- A node after `memset`. -/
def ScanNode.cleared : ScanNode where
  ttl := 0
  signalStrength := 0
  bssid := Vector.replicate 6 0
  channel := 0
  frameType := .other

/-- `phySta` is the signal strength, if the frame came with a PHY status, and
`body` is the frame from the beacon fields on. -/
structure RxFrmMsg where
  phySta : Option UInt8
  frameType : FrameType
  bssid : MacAddr
  body : List UInt8

abbrev ScanEntry := Entry ScanList Nat

/-- Where the thread is: between two messages, in the search loop of
`wlan_mgmt_scan_que_node_push`, or in the loop of `wlan_mgmt_scan_que_refresh`. -/
inductive Phase where
  | idle
  | searching (pnewNode : Nat) (msg : RxFrmMsg) (pos : ScanEntry)
      (pswapNode pinstPos : Option Nat)
  | refreshing (chMap : List UInt8) (pos n : ScanEntry)

structure ScanQue where
  que : Queues ScanList Nat
  node : Nat → ScanNode
  readCnt : UInt8
  sema : Nat
  scanQueNodeTtl : UInt8
  connect : Bool
  curBssid : MacAddr
  phase : Phase

def ScanQue.setNode (s : ScanQue) (i : Nat) (node : ScanNode) : ScanQue :=
  { s with node := Function.update s.node i node }

def ScanQue.setTtl (s : ScanQue) (i : Nat) (ttl : UInt32) : ScanQue :=
  s.setNode i { s.node i with ttl }

def isBssOnlink (s : ScanQue) (bssid : MacAddr) : Bool :=
  s.connect && decide (s.curBssid = bssid)

/-! ## The lock -/

def readTry (s : ScanQue) : ScanQue :=
  if s.readCnt = 0xFF then s
  else if s.readCnt = 0 then
    if s.sema = 0 then s
    else { s with sema := s.sema - 1, readCnt := s.readCnt + 1 }
  else { s with readCnt := s.readCnt + 1 }

def readPost (s : ScanQue) : ScanQue :=
  if s.readCnt = 0 then s
  else if s.readCnt - 1 = 0 then
    { s with readCnt := s.readCnt - 1, sema := s.sema + 1 }
  else { s with readCnt := s.readCnt - 1 }

/-- The loop of `wf_wlan_mgmt_scan_que_for_begin` at one node. -/
def readVisit (s : ScanQue) (i : Nat) : ScanQue :=
  if s.readCnt = 0 then s else s.setTtl i ((s.node i).ttl &&& 0xFF)

/-! ## A received frame -/

/-- `elements` stands for the walk over the elements: the channel, or `none` at
one of its error returns.  The other fields are set before the walk. -/
def wlanMgmtScanNodeInfo (elements : List UInt8 → Option UInt8) (msg : RxFrmMsg)
    (node : ScanNode) : ScanNode × Bool :=
  let node := { node with
    frameType := msg.frameType
    signalStrength := msg.phySta.getD node.signalStrength
    bssid := msg.bssid }
  match elements msg.body with
  | none => (node, false)
  | some channel => ({ node with channel }, true)

/-- The new node goes back to the free queue. -/
def pullBack (s : ScanQue) (pnewNode : Nat) : ScanQue :=
  { s with que := wfEnqueHead s.que (.node pnewNode) .free, phase := .idle }

/-- The part of `rx_frame_handle` up to the search loop; `none` is a step that
treats a queue head as a node. -/
def rxFrame (elements : List UInt8 → Option UInt8) (s : ScanQue)
    (msg : RxFrmMsg) : Option ScanQue :=
  match wfDequeHead s.que .free with
  | (none, _) => some s
  | (some (.head _), _) => none
  | (some (.node pnewNode), que) =>
      let info := wlanMgmtScanNodeInfo elements msg .cleared
      let s := { s with que, node := Function.update s.node pnewNode info.1 }
      let pos := s.que.links.next (.head .ready)
      if info.2 then some { s with phase := .searching pnewNode msg pos none none }
      else some (pullBack s pnewNode)

def ttlPrbHoldTimesMsk : UInt32 := 0xFF000000

def prbHold : UInt32 := 0x05000000

/-- Whether a beacon has to leave a probe response in place for now. -/
def holdsProbe (s : ScanQue) (msg : RxFrmMsg) (i : Nat) : Bool :=
  decide ((s.node i).frameType = .probeResp) && decide (msg.frameType = .beacon) &&
    (s.node i).ttl &&& ttlPrbHoldTimesMsk != 0

/-- The writer's section of `wlan_mgmt_scan_que_node_push`. -/
def insertNode (s : ScanQue) (pnewNode : Nat) (pswapNode pinstPos : Option Nat) :
    ScanQue :=
  if s.sema = 0 then pullBack s pnewNode
  else
    let s := s.setTtl pnewNode (s.scanQueNodeTtl.toUInt32 ||| prbHold)
    let que :=
      match pinstPos with
      | some pos => wfEnquePrev s.que (.node pnewNode) (.node pos) .ready
      | none => wfEnqueTail s.que (.node pnewNode) .ready
    let que :=
      match pswapNode with
      | some i => wfEnqueTail (wfDeque que (.node i) .ready).2 (.node i) .free
      | none => que
    { s with que, phase := .idle }

/-- From the end of the search loop on. -/
def nodePush (s : ScanQue) (pnewNode : Nat) (msg : RxFrmMsg)
    (pswapNode pinstPos : Option Nat) : Option ScanQue :=
  match pswapNode with
  | some i =>
      if holdsProbe s msg i then
        some (pullBack (s.setTtl i ((s.node i).ttl - 0x01000000)) pnewNode)
      else if msg.phySta = none then some (pullBack s pnewNode)
      else some (insertNode s pnewNode (some i) pinstPos)
  | none =>
      if wfQueIsEmpty s.que .free then
        if msg.phySta = none then some (pullBack s pnewNode)
        else
          match wfQueTail s.que .ready with
          | some (.node i) =>
              if isBssOnlink s (s.node i).bssid then some (pullBack s pnewNode)
              else some (insertNode s pnewNode (some i) pinstPos)
          | _ => none
      else some (insertNode s pnewNode none pinstPos)

def foundAt (found : Option Nat) (test : Bool) (i : Nat) : Option Nat :=
  if found = none ∧ test then some i else found

def searchTurn (s : ScanQue) (pnewNode : Nat) (msg : RxFrmMsg) (pos : ScanEntry)
    (pswapNode pinstPos : Option Nat) : Option ScanQue :=
  match pos with
  | .head .free => none
  | .head .ready => nodePush s pnewNode msg pswapNode pinstPos
  | .node i =>
      let pswapNode := foundAt pswapNode
        (decide ((s.node pnewNode).bssid = (s.node i).bssid)) i
      let pinstPos := foundAt pinstPos
        (decide ((s.node i).signalStrength < (s.node pnewNode).signalStrength)) i
      let phase := Phase.searching pnewNode msg (s.que.links.next pos) pswapNode
        pinstPos
      if pswapNode.isSome && pinstPos.isSome then
        nodePush s pnewNode msg pswapNode pinstPos
      else some { s with phase }

/-! ## Refresh -/

def refreshStart (s : ScanQue) (chMap : List UInt8) : ScanQue :=
  let pos := s.que.links.next (.head .ready)
  { s with phase := .refreshing chMap pos (s.que.links.next pos) }

/-- The body of the loop of `wlan_mgmt_scan_que_refresh` at a node. -/
def refreshNode (s : ScanQue) (chMap : List UInt8) (i : Nat) : ScanQue :=
  if (s.node i).channel ∉ chMap then s
  else
    let ttl := (s.node i).ttl
    let s := s.setTtl i (if ttl ≠ 0 then ttl - 1 else ttl)
    if (s.node i).ttl = 0 ∧ s.sema ≠ 0 then
      { s with que :=
          wfEnqueTail (wfDeque s.que (.node i) .ready).2 (.node i) .free }
    else s

def refreshTurn (s : ScanQue) (chMap : List UInt8) (pos n : ScanEntry) :
    Option ScanQue :=
  match pos with
  | .head .free => none
  | .head .ready => some { s with phase := .idle }
  | .node i =>
      let s := refreshNode s chMap i
      some { s with phase := .refreshing chMap n (s.que.links.next n) }

/-! ## The system -/

inductive Input where
  | frame (msg : RxFrmMsg)
  | refresh (chMap : List UInt8)
  | work
  | readTry
  | readVisit (i : Nat)
  | readPost
  | link (connect : Bool) (curBssid : MacAddr)

/-- A message waits until the thread is idle. -/
def step (elements : List UInt8 → Option UInt8) (s : ScanQue) :
    Input → Option ScanQue
  | .frame msg =>
      match s.phase with
      | .idle => rxFrame elements s msg
      | _ => some s
  | .refresh chMap =>
      match s.phase with
      | .idle => some (refreshStart s chMap)
      | _ => some s
  | .work =>
      match s.phase with
      | .idle => some s
      | .searching pnewNode msg pos pswapNode pinstPos =>
          searchTurn s pnewNode msg pos pswapNode pinstPos
      | .refreshing chMap pos n => refreshTurn s chMap pos n
  | .readTry => some (readTry s)
  | .readVisit i => some (readVisit s i)
  | .readPost => some (readPost s)
  | .link connect curBssid => some { s with connect, curBssid }

def scanQueFree (scanQueDeep : Nat) : Queues ScanList Nat :=
  (List.range scanQueDeep).foldl (fun que i => wfEnqueHead que (.node i) .free)
    wfQueInit

def wlanMgmtScanQueInit (scanQueDeep : Nat) (scanQueNodeTtl : UInt8) : ScanQue where
  que := scanQueFree scanQueDeep
  node := fun _ => .cleared
  readCnt := 0
  sema := 1
  scanQueNodeTtl
  connect := false
  curBssid := Vector.replicate 6 0
  phase := .idle

end Smartchip.Scan
