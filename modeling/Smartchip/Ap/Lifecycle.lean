import Mathlib.Data.List.Chain
import Smartchip.Ap.Thread

/-!
# What hostapd is told about the stations

A station is associated and disassociated in turn, and its WDN goes after the last of them.
The thread runs on the WDN for broadcasts too.  It waits there for ever, until a management
frame comes that names the broadcast address as its source.
-/

namespace Smartchip.Ap

open Smartchip.Foundation Smartchip.Frame

/-- What was told about the station with an address. -/
def told (log : List (MacAddr × Indication)) (mac : MacAddr) : List Indication :=
  (log.filter fun entry => entry.1 = mac).map Prod.snd

/-- A station of which nothing was told is not associated. -/
def lastTold (log : List (MacAddr × Indication)) (mac : MacAddr) : Indication :=
  (told log mac).getLast?.getD .disassoc

/-- The WDN that `new_boradcast_wdn` adds. -/
def bcWdn : Nat := 0

/-- The indications of a station alternate from an association on, a station without a WDN
is not associated, and the WDN for broadcasts stays where it is. -/
structure StationsTold (s : ApSystem) : Prop where
  alternating : ∀ mac, (.disassoc :: told s.log mac).IsChain (· ≠ ·)
  matched : ∀ mac, (∀ n ∈ s.head, (s.nodes n).mac ≠ mac) → lastTold s.log mac = .disassoc
  broadcast : bcWdn ∈ s.head ∧ (s.nodes bcWdn).mac = bcMac ∧ told s.log bcMac = []

/-- No frame from the broadcast address finds a message. -/
def SparesBroadcast (s : ApSystem) : ApEvent → Prop
  | .load ctx _ => ∀ p ∈ s.pending ctx, p.sa = bcMac →
      p.tag.sizeMax < p.frame.length ∨ s.msgFree p.tag = []
  | _ => True

instance decidableSparesBroadcast (s : ApSystem) :
    ∀ event, Decidable (SparesBroadcast s event)
  | .load ctx _ => inferInstanceAs (Decidable (∀ p ∈ s.pending ctx, p.sa = bcMac →
      p.tag.sizeMax < p.frame.length ∨ s.msgFree p.tag = []))
  | .find .. => isTrue trivial
  | .packet _ => isTrue trivial
  | .thrd .. => isTrue trivial

/-! ## The log -/

section Log

variable {log : List (MacAddr × Indication)} {mac other : MacAddr} {i : Indication}

@[simp] theorem told_append_self : told (log ++ [(mac, i)]) mac = told log mac ++ [i] := by
  simp [told]

theorem told_append_other (ne : other ≠ mac) :
    told (log ++ [(mac, i)]) other = told log other := by
  simp [told, Ne.symm ne]

@[simp] theorem lastTold_append_self : lastTold (log ++ [(mac, i)]) mac = i := by
  simp [lastTold]

theorem lastTold_append_other (ne : other ≠ mac) :
    lastTold (log ++ [(mac, i)]) other = lastTold log other := by
  simp [lastTold, told_append_other ne]

theorem isChain_append_told (chain : (.disassoc :: told log mac).IsChain (· ≠ ·))
    (turn : lastTold log mac ≠ i) :
    (.disassoc :: told (log ++ [(mac, i)]) mac).IsChain (· ≠ ·) := by
  rw [told_append_self, ← List.cons_append, List.isChain_append]
  refine ⟨chain, List.isChain_singleton i, ?_⟩
  simpa [List.getLast?_cons, lastTold] using turn

end Log

/-! ## The life of a station -/

/-- What was told last about a station, by where its thread is. -/
def LifeAt (node : ApNode) (last : Indication) : Prop :=
  match node.pc with
  | .auth _ => last = .disassoc ∧ node.wdn.state = .auth
  | .assoc => last = .disassoc ∧ (node.wdn.state = .auth ∨ node.wdn.state = .assoc)
  | .maintain _ => last = .assoc
  | .clearup => last = .assoc ↔ WdnState.assoc.value < node.wdn.state.value
  | .remove => last = .disassoc

/-- A step tells at most one thing about its station, in turn. -/
def Tells (n : Nat) (s s' : ApSystem) : Prop :=
  ∃ new : Option Indication,
    s'.log = s.log ++ (new.map fun i => ((s.nodes n).mac, i)).toList ∧
    (∀ i, new = some i → lastTold s.log (s.nodes n).mac ≠ i) ∧
    LifeAt (s'.nodes n) (new.getD (lastTold s.log (s.nodes n).mac))

section Life

variable {cfg : ApConfig} {s s' : ApSystem} {n : Nat} {a : ApAnswers}

theorem tells_none (log : s'.log = s.log)
    (life : LifeAt (s'.nodes n) (lastTold s.log (s.nodes n).mac)) : Tells n s s' :=
  ⟨none, by simpa using log, by simp, life⟩

theorem tells_some {i : Indication} (log : s'.log = s.log ++ [((s.nodes n).mac, i)])
    (turn : lastTold s.log (s.nodes n).mac ≠ i) (life : LifeAt (s'.nodes n) i) :
    Tells n s s' :=
  ⟨some i, by simpa using log, by simpa using turn, life⟩

/-- Nothing is told about another station. -/
theorem Tells.other (tells : Tells n s s') {mac : MacAddr} (ne : mac ≠ (s.nodes n).mac) :
    told s'.log mac = told s.log mac ∧ lastTold s'.log mac = lastTold s.log mac := by
  obtain ⟨new, log, -, -⟩ := tells
  rw [log]
  cases new with
  | none => simp
  | some i => exact ⟨told_append_other ne, lastTold_append_other ne⟩

theorem Tells.life (tells : Tells n s s') :
    LifeAt (s'.nodes n) (lastTold s'.log (s.nodes n).mac) := by
  obtain ⟨new, log, -, life⟩ := tells
  rw [log]
  cases new with
  | none => simpa using life
  | some i => simpa using life

theorem Tells.chain (tells : Tells n s s') {mac : MacAddr}
    (chain : (.disassoc :: told s.log mac).IsChain (· ≠ ·)) :
    (.disassoc :: told s'.log mac).IsChain (· ≠ ·) := by
  by_cases same : mac = (s.nodes n).mac
  · obtain ⟨new, log, turn, -⟩ := tells
    rw [same] at chain ⊢
    rw [log]
    cases new with
    | none => simpa using chain
    | some i => exact isChain_append_told chain (turn i rfl)
  · rw [(tells.other same).1]
    exact chain

theorem wfAuthApThrd_state {w : AuthWdn} (sec : AuthSec) (pc : AuthPc)
    (head : Option ApMsg) (a : AuthAnswers) (was : w.state = .auth) :
    (wfAuthApThrd sec w pc head a).wdn.state = .auth := by
  cases head with
  | none =>
      simp only [wfAuthApThrd, noMsg]
      split <;> exact was
  | some msg =>
      cases pc with
      | seq1 =>
          simp only [wfAuthApThrd, recvSeq1]
          split_ifs <;> first | exact was | rfl
      | noAuth =>
          simp only [wfAuthApThrd, recvAgain]
          split <;> exact was
      | seq3 =>
          simp only [wfAuthApThrd, recvSeq3]
          split_ifs
          · exact was
          · exact was
          · cases wfWepDecryptAuth sec.keys msg with
            | runaway => exact was
            | mismatch mgmt => exact was
            | ok mgmt =>
                dsimp only
                split_ifs <;> exact was
      | seq4Done =>
          simp only [wfAuthApThrd, recvAgain]
          split <;> exact was

theorem authPhase_tells {pc : AuthPc} (here : (s.nodes n).pc = .auth pc)
    (life : LifeAt (s.nodes n) (lastTold s.log (s.nodes n).mac)) :
    Tells n s (authPhase cfg s n pc a) := by
  simp only [LifeAt, here] at life
  obtain ⟨last, state⟩ := life
  refine tells_none (by simp [authPhase]) ?_
  have auth := wfAuthApThrd_state cfg.auth pc (headMsg s n) a.auth state
  rw [last]
  simp only [authPhase, setNode_nodes, Function.update_self, LifeAt]
  cases (wfAuthApThrd cfg.auth (s.nodes n).wdn.toAuthWdn pc (headMsg s n) a.auth).ret with
  | waiting => exact ⟨trivial, auth⟩
  | ended => exact ⟨trivial, .inl auth⟩
  | exited => simp [auth, WdnState.value]

/-- `wf_assoc_ap_thrd` ends where it reports the station. -/
structure AssocMove (state : WdnState) (out : AssocOut) : Prop where
  told : out.reported = true ↔ out.ret = .ended
  state : out.state = state ∨ out.state = .assoc

theorem wfAssocApThrd_move {net : ApNetwork} {sec : AssocSec} {aid : UInt32}
    {state : WdnState} {info : AssocInfo} {head : Option ApMsg} {a : AssocAnswers}
    (small : aid ≤ 2007) : AssocMove state (wfAssocApThrd net sec aid state info head a) := by
  cases head with
  | none => constructor <;> simp [wfAssocApThrd]
  | some msg =>
      by_cases tag : msg.tag = .assocReqFrame
      · simp only [wfAssocApThrd, tag, ne_eq, not_true_eq_false, if_false, recvAssocReq]
        split <;> constructor <;> simp [small]
      · constructor <;> simp [wfAssocApThrd, tag]

theorem assocPhase_tells (ok : NodeOk (s.nodes n)) (here : (s.nodes n).pc = .assoc)
    (life : LifeAt (s.nodes n) (lastTold s.log (s.nodes n).mac)) :
    Tells n s (assocPhase cfg s n a) := by
  simp only [LifeAt, here] at life
  obtain ⟨last, state⟩ := life
  obtain ⟨told, moved⟩ : AssocMove (s.nodes n).wdn.state (wfAssocApThrd cfg.net cfg.assoc
    (s.nodes n).aid (s.nodes n).wdn.state (s.nodes n).info (headMsg s n) a.assoc) :=
    wfAssocApThrd_move ok.aid
  generalize outEq : wfAssocApThrd cfg.net cfg.assoc (s.nodes n).aid (s.nodes n).wdn.state
    (s.nodes n).info (headMsg s n) a.assoc = out at told moved
  have early : out.state = .auth ∨ out.state = .assoc := by
    rcases moved with same | assoc
    · rwa [same]
    · exact .inr assoc
  cases ret : out.ret with
  | waiting =>
      have quiet : out.reported = false := by simpa [ret] using told
      refine tells_none (by simp [assocPhase, outEq, quiet]) ?_
      simp only [assocPhase, outEq, ret, setNode_nodes, Function.update_self, LifeAt]
      exact ⟨last, early⟩
  | ended =>
      have reported : out.reported = true := told.mpr ret
      refine tells_some (i := .assoc) (by simp [assocPhase, outEq, reported]) ?_ ?_
      · simp [last]
      · simp [assocPhase, outEq, ret, LifeAt]
  | exited =>
      have quiet : out.reported = false := by simpa [ret] using told
      refine tells_none (by simp [assocPhase, outEq, quiet]) ?_
      simp only [assocPhase, outEq, ret, setNode_nodes, Function.update_self, LifeAt]
      rcases early with state' | state' <;> simp [last, state', WdnState.value]

theorem maintainPhase_tells (ok : NodeOk (s.nodes n)) {pc : MaintainPc}
    (here : (s.nodes n).pc = .maintain pc)
    (life : LifeAt (s.nodes n) (lastTold s.log (s.nodes n).mac)) :
    Tells n s (maintainPhase cfg s n pc a) := by
  simp only [LifeAt, here] at life
  obtain ⟨established, told, back, waits, leaves⟩ : MaintainMove pc
    ((headMsg s n).map ApMsg.tag) (maintainThrd cfg.auth.dot11AuthAlgrthm (s.nodes n).wdn pc
      ((headMsg s n).map ApMsg.tag) a.expired) :=
    maintainThrd_move _ _ _ (ok.maintained pc here)
  generalize outEq : maintainThrd cfg.auth.dot11AuthAlgrthm (s.nodes n).wdn pc
    ((headMsg s n).map ApMsg.tag) a.expired = out at established told back waits leaves
  cases ind : out.disassocInd with
  | true =>
      obtain ⟨ended, state⟩ := back.mpr (told.mp ind)
      refine tells_some (i := .disassoc) (by simp [maintainPhase, outEq, ind]) (by simp [life]) ?_
      simp [maintainPhase, outEq, ended, state, LifeAt]
  | false =>
      have stays : ¬ (out.ret ≠ .waiting ∧ out.wdn.state = .assoc) := by
        rw [back, ← told, ind]
        simp
      refine tells_none (by simp [maintainPhase, outEq, ind]) ?_
      by_cases ret : out.ret = .waiting
      · simp [maintainPhase, outEq, ret, LifeAt, life]
      · have other : out.wdn.state ≠ .assoc := fun state => stays ⟨ret, state⟩
        simp [maintainPhase, outEq, ret, other, LifeAt, life, leaves ret other]

theorem clearupPhase_tells (here : (s.nodes n).pc = .clearup)
    (life : LifeAt (s.nodes n) (lastTold s.log (s.nodes n).mac)) :
    Tells n s (clearupPhase s n) := by
  simp only [LifeAt, here] at life
  obtain ⟨msgFree, eq⟩ := apMsgQueClearup_eq s n
  by_cases joined : WdnState.assoc.value < (s.nodes n).wdn.state.value
  · refine tells_some (i := .disassoc) (by simp [clearupPhase, eq, joined]) ?_ ?_
    · simp [life.mpr joined]
    · simp [clearupPhase, LifeAt]
  · refine tells_none (by simp [clearupPhase, eq, joined]) ?_
    have last : lastTold s.log (s.nodes n).mac = .disassoc := by
      cases was : lastTold s.log (s.nodes n).mac with
      | assoc => exact absurd (life.mp was) joined
      | disassoc => rfl
    simp [clearupPhase, LifeAt, last]

end Life

/-! ## Runs -/

structure LifeOk (s : ApSystem) : Prop where
  lists : ListOk s
  nodes : NodesOk s
  bcListed : bcWdn ∈ s.head
  bcHasMac : (s.nodes bcWdn).mac = bcMac
  bcIdle : (s.nodes bcWdn).pc = .auth .seq1 ∧ (s.nodes bcWdn).que = []
  bcTold : told s.log bcMac = []
  targets : ∀ ctx p, s.pending ctx = some p → p.node = some bcWdn → p.sa = bcMac
  stations : ∀ n ∈ s.head, n ≠ bcWdn →
    LifeAt (s.nodes n) (lastTold s.log (s.nodes n).mac)
  alternating : ∀ mac, (.disassoc :: told s.log mac).IsChain (· ≠ ·)
  matched : ∀ mac, (∀ n ∈ s.head, (s.nodes n).mac ≠ mac) → lastTold s.log mac = .disassoc

/-- The parts of a node that say where its station is. -/
def SameLife (node node' : ApNode) : Prop :=
  node'.mac = node.mac ∧ node'.pc = node.pc ∧ node'.wdn.state = node.wdn.state

section Runs

variable {cfg : ApConfig} {s s' : ApSystem} {n : Nat} {a : ApAnswers}

theorem LifeOk.told (ok : LifeOk s) : StationsTold s :=
  ⟨ok.alternating, ok.matched, ok.bcListed, ok.bcHasMac, ok.bcTold⟩

theorem LifeOk.mac_ne (ok : LifeOk s) {m : Nat} (listed : n ∈ s.head) (also : m ∈ s.head)
    (ne : m ≠ n) : (s.nodes m).mac ≠ (s.nodes n).mac :=
  fun same => ne (ok.lists.macs m also n listed same)

/-- A step that tells nothing and moves no station. -/
theorem LifeOk.same (ok : LifeOk s) (lists : ListOk s') (nodes : NodesOk s')
    (head : s'.head = s.head) (log : s'.log = s.log)
    (lives : ∀ m, SameLife (s.nodes m) (s'.nodes m)) (bcQue : (s'.nodes bcWdn).que = [])
    (targets : ∀ ctx p, s'.pending ctx = some p → p.node = some bcWdn → p.sa = bcMac) :
    LifeOk s' where
  lists := lists
  nodes := nodes
  bcListed := head ▸ ok.bcListed
  bcHasMac := (lives bcWdn).1.trans ok.bcHasMac
  bcIdle := ⟨(lives bcWdn).2.1.trans ok.bcIdle.1, bcQue⟩
  bcTold := log ▸ ok.bcTold
  targets := targets
  stations m listed station := by
    rw [head] at listed
    have life := ok.stations m listed station
    obtain ⟨mac, pc, state⟩ := lives m
    simp only [LifeAt] at life ⊢
    rwa [log, mac, pc, state]
  alternating := log ▸ ok.alternating
  matched mac absent := by
    rw [log]
    refine ok.matched mac fun m listed => ?_
    rw [← (lives m).1]
    exact absent m (head ▸ listed)

/-- A step of the thread of a station. -/
theorem LifeOk.tells (ok : LifeOk s) (listed : n ∈ s.head) (station : n ≠ bcWdn)
    (nodes : NodesOk s') (kept : Keeps n s s') (tells : Tells n s s') : LifeOk s' := by
  have bc := kept.others bcWdn (Ne.symm station)
  have bcNe : bcMac ≠ (s.nodes n).mac := by
    rw [← ok.bcHasMac]
    exact ok.mac_ne listed ok.bcListed (Ne.symm station)
  constructor
  · exact ok.lists.keeps kept
  · exact nodes
  · rw [kept.head]
    exact ok.bcListed
  · rw [bc]
    exact ok.bcHasMac
  · rw [bc]
    exact ok.bcIdle
  · rw [(tells.other bcNe).1]
    exact ok.bcTold
  · rw [kept.pending]
    exact ok.targets
  · intro m listed' station'
    rw [kept.head] at listed'
    by_cases same : m = n
    · subst same
      rw [kept.mac]
      exact tells.life
    · rw [kept.others m same, (tells.other (ok.mac_ne listed listed' same)).2]
      exact ok.stations m listed' station'
  · intro mac
    exact tells.chain (ok.alternating mac)
  · intro mac absent
    rw [kept.head] at absent
    have ne : mac ≠ (s.nodes n).mac := by
      intro same
      refine absent n listed ?_
      rw [kept.mac, same]
    rw [(tells.other ne).2]
    refine ok.matched mac fun m listed' => ?_
    by_cases same : m = n
    · rw [same]
      exact Ne.symm ne
    · rw [← kept.others m same]
      exact absent m listed'

theorem LifeOk.remove (ok : LifeOk s) (listed : n ∈ s.head) (station : n ≠ bcWdn)
    (here : (s.nodes n).pc = .remove) (nodes : NodesOk (removePhase s n)) :
    LifeOk (removePhase s n) := by
  have lists := ok.lists.remove listed
  have last := ok.stations n listed station
  simp only [LifeAt, here] at last
  rw [ok.lists.removePhase_eq listed] at lists nodes ⊢
  have sub : ∀ m, m ∈ s.head.erase n → m ∈ s.head ∧ m ≠ n := fun m member =>
    ⟨List.mem_of_mem_erase member, fun same =>
      (List.nodup_append.mp ok.lists.nodup).1.not_mem_erase (same ▸ member)⟩
  constructor
  · exact lists
  · exact nodes
  · exact (List.mem_erase_of_ne (Ne.symm station)).mpr ok.bcListed
  · simpa [Function.update_of_ne (Ne.symm station)] using ok.bcHasMac
  · simpa [Function.update_of_ne (Ne.symm station)] using ok.bcIdle
  · exact ok.bcTold
  · exact ok.targets
  · intro m listed' station'
    obtain ⟨before, ne⟩ := sub m listed'
    simpa [Function.update_of_ne ne] using ok.stations m before station'
  · exact ok.alternating
  · intro mac absent
    by_cases mine : mac = (s.nodes n).mac
    · rw [mine]
      exact last
    · refine ok.matched mac fun m listed' => ?_
      by_cases same : m = n
      · rw [same]
        exact Ne.symm mine
      · have gone := absent m ((List.mem_erase_of_ne same).mpr listed')
        simpa [Function.update_of_ne same] using gone

theorem LifeOk.addStation (ok : LifeOk s) {rest : List Nat} {id : Nat} {mac : MacAddr}
    (small : id < 32) (free : s.free = n :: rest) (idle : s.pending .rx = none)
    (unknown : ∀ m ∈ s.head, (s.nodes m).mac ≠ mac) :
    LifeOk (addStation s n rest mac id) := by
  have member : n ∈ s.free := by simp [free]
  have old : ∀ m ∈ s.head, m ≠ n := fun m listed same =>
    ok.lists.not_free (same ▸ listed) member
  have bcOld := old bcWdn ok.bcListed
  constructor
  · exact ok.lists.addStation id free idle unknown
  · exact ok.nodes.addStation small n rest mac
  · exact List.mem_append_left _ ok.bcListed
  · simpa [Ap.addStation, bcOld] using ok.bcHasMac
  · simpa [Ap.addStation, bcOld] using ok.bcIdle
  · exact ok.bcTold
  · exact ok.targets
  · intro m listed station
    rcases List.mem_append.mp listed with before | new
    · simpa [Ap.addStation, old m before] using ok.stations m before station
    · rw [List.mem_singleton] at new
      subst new
      have last := ok.matched mac unknown
      simpa [Ap.addStation, LifeAt, stationNode, newNode, clearedWdn] using last
  · exact ok.alternating
  · intro mac' absent
    refine ok.matched mac' fun m listed => ?_
    have gone := absent m (List.mem_append_left _ listed)
    simpa [Ap.addStation, old m listed] using gone

theorem LifeOk.msgLoad (ok : LifeOk s) (station : n ≠ bcWdn) (tag : ApMsgTag)
    (frame : List UInt8) (stale : Mem) : LifeOk (wfApMsgLoad s n tag frame stale) := by
  have lists := ok.lists.keeps (wfApMsgLoad_keeps (n := n) tag frame stale)
  have nodes := ok.nodes.msgLoad n tag frame stale
  obtain ⟨que, msgFree, msgs, eq⟩ := wfApMsgLoad_eq s n tag frame stale
  rw [eq] at lists nodes ⊢
  refine ok.same lists nodes rfl rfl (fun m => ?_) ?_ ok.targets
  · by_cases same : m = n
    · subst same
      simp [SameLife]
    · simp [SameLife, same]
  · simpa [Ne.symm station] using ok.bcIdle.2

theorem LifeOk.take (ok : LifeOk s) (ctx : Ctx) : LifeOk (takePending s ctx) := by
  refine ok.same (ok.lists.take ctx) ok.nodes rfl rfl (fun m => ⟨rfl, rfl, rfl⟩)
    ok.bcIdle.2 ?_
  intro c p waits
  by_cases same : c = ctx
  · rw [same] at waits
    simp [takePending] at waits
  · refine ok.targets c p ?_
    simpa [takePending, same] using waits

theorem LifeOk.load (ok : LifeOk s) {ctx : Ctx} {stale : Mem}
    (spares : SparesBroadcast s (.load ctx stale)) : LifeOk (recvLoad s ctx stale) := by
  have loads := ok.lists.loads ctx stale
  generalize recvLoad s ctx stale = s' at loads
  cases loads with
  | idle none => exact ok
  | dropped waits stray => exact ok.take ctx
  | @known p n waits node short =>
      by_cases bc : n = bcWdn
      · subst bc
        have empty : s.msgFree p.tag = [] :=
          (spares p waits (ok.targets ctx p waits node)).resolve_left (not_lt.mpr short)
        have same : wfApMsgLoad (takePending s ctx) bcWdn p.tag p.frame stale =
            takePending s ctx := by
          unfold wfApMsgLoad
          rw [show (takePending s ctx).msgFree p.tag = [] from empty]
        rw [same]
        exact ok.take ctx
      · exact (ok.take ctx).msgLoad bc ..
  | @station p n id rest waits isRx node short free fresh =>
      subst isRx
      have idle : (takePending s .rx).pending .rx = none := by simp [takePending]
      have unknown := ok.lists.absent p waits node
      have station : n ≠ bcWdn := by
        intro same
        refine ok.lists.not_free ok.bcListed ?_
        rw [free, same]
        exact List.mem_cons_self
      exact ((ok.take .rx).addStation (newWdnId_lt fresh) free idle unknown).msgLoad station ..

theorem LifeOk.find (ok : LifeOk s) (tag : ApMsgTag) (sa : MacAddr) (frame : List UInt8) :
    LifeOk (recvFind s tag sa frame) := by
  have lists := ok.lists.find tag sa frame
  unfold recvFind at lists ⊢
  split_ifs at lists ⊢ with busy
  · exact ok
  · refine ok.same lists ok.nodes rfl rfl (fun m => ⟨rfl, rfl, rfl⟩) ok.bcIdle.2 ?_
    intro c p waits
    by_cases same : c = ctxOf tag
    · subst same
      simp only [Function.update_self, Option.some.injEq] at waits
      rw [← waits]
      intro found
      rw [← (findInfo_some found).2, ok.bcHasMac]
    · simp only [Function.update_of_ne same] at waits
      exact ok.targets c p waits

theorem LifeOk.thrd (ok : LifeOk s) (listed : n ∈ s.head) : LifeOk (apThrd cfg s n a) := by
  have nodes : NodesOk (apThrd cfg s n a) := ok.nodes.thrd ok.lists listed
  by_cases bc : n = bcWdn
  · -- its queue is empty, so its thread waits for the first frame
    subst bc
    obtain ⟨here, empty⟩ := ok.bcIdle
    have kept : Keeps bcWdn s (apThrd cfg s bcWdn a) := apThrd_keeps (by simp [here])
    refine ok.same (ok.lists.keeps kept) nodes kept.head ?_ (fun m => ?_) ?_ ?_
    · simp [apThrd, here, authPhase]
    · by_cases same : m = bcWdn
      · subst same
        simp [SameLife, apThrd, here, authPhase, headMsg, empty, wfAuthApThrd, noMsg, stay]
      · rw [kept.others m same]
        exact ⟨rfl, rfl, rfl⟩
    · simp [apThrd, here, authPhase, empty]
    · rw [kept.pending]
      exact ok.targets
  · have life := ok.stations n listed bc
    have phase := apThrd_phase cfg s n a
    generalize apThrd cfg s n a = s' at nodes phase
    cases phase with
    | auth here => exact ok.tells listed bc nodes (authPhase_keeps _) (authPhase_tells here life)
    | assoc here =>
        exact ok.tells listed bc nodes assocPhase_keeps
          (assocPhase_tells (ok.nodes n) here life)
    | maintain here =>
        exact ok.tells listed bc nodes (maintainPhase_keeps _)
          (maintainPhase_tells (ok.nodes n) here life)
    | clearup here =>
        exact ok.tells listed bc nodes clearupPhase_keeps (clearupPhase_tells here life)
    | remove here => exact ok.remove listed bc here nodes

theorem LifeOk.packet (ok : LifeOk s) (n : Nat) : LifeOk (countPacket s n) := by
  have nodes : NodesOk (countPacket s n) :=
    ok.nodes.set rfl ⟨(ok.nodes n).aid, (ok.nodes n).maintained⟩
  refine ok.same (ok.lists.keeps countPacket_keeps) nodes rfl rfl (fun m => ?_) ?_ ok.targets
  · by_cases same : m = n
    · subst same
      simp [SameLife, countPacket]
    · simp [SameLife, countPacket, same]
  · by_cases same : bcWdn = n
    · subst same
      simpa [countPacket] using ok.bcIdle.2
    · simpa [countPacket, same] using ok.bcIdle.2

theorem LifeOk.step (ok : LifeOk s) {event : ApEvent} (spares : SparesBroadcast s event) :
    ∃ next, apStep cfg s event = some next ∧ LifeOk next := by
  cases event with
  | find tag sa frame => exact ⟨_, rfl, ok.find tag sa frame⟩
  | load ctx stale => exact ⟨_, rfl, ok.load spares⟩
  | packet n => exact ⟨_, rfl, ok.packet n⟩
  | thrd n a =>
      refine ⟨_, rfl, ?_⟩
      split_ifs with listed
      · exact ok.thrd listed
      · exact ok

theorem lifeOk_start : LifeOk apStart where
  lists := listOk_start
  nodes := nodesOk_start
  bcListed := by decide
  bcHasMac := rfl
  bcIdle := ⟨rfl, rfl⟩
  bcTold := rfl
  targets := by
    intro ctx p waits
    cases waits
  stations := by
    intro n listed station
    simp only [apStart, List.mem_singleton] at listed
    exact absurd listed station
  alternating _ := List.isChain_singleton _
  matched _ _ := rfl

end Runs

/-- The stations are told about in turn, and the WDN for broadcasts stays, in every run in
which no frame from the broadcast address is loaded. -/
theorem stations_told (cfg : ApConfig) (events : List ApEvent)
    (spares : EachStep (apStep cfg) SparesBroadcast apStart events) :
    Throughout (apStep cfg) StationsTold apStart events :=
  spares.throughout LifeOk (fun _ ok => ok.told) (fun _ _ ok spares => ok.step spares)
    lifeOk_start

theorem stations_told_joinsAndLeaves :
    (run (apStep openCfg) apStart joinsAndLeaves).map (fun s => told s.log staAddr) =
      some [.assoc, .disassoc] ∧
    Throughout (apStep openCfg) StationsTold apStart joinsAndLeaves :=
  ⟨by decide +kernel, stations_told openCfg joinsAndLeaves (by decide +kernel)⟩

/-- A disassociation that names the broadcast address as its source. -/
def spoofs : List ApEvent :=
  arrives bcMac .disassocFrame (leaveFrame 0xa0) ++ [.thrd 0 apCall, .thrd 0 apCall]

theorem stations_not_told :
    ¬ ∀ cfg events, Throughout (apStep cfg) StationsTold apStart events := by
  intro always
  obtain ⟨final, ran, good⟩ := (always openCfg spoofs).final
  have log : (run (apStep openCfg) apStart spoofs).map (fun s => told s.log bcMac) =
      some [.disassoc] := by decide +kernel
  rw [ran, Option.map_some, good.broadcast.2.2] at log
  cases log

end Smartchip.Ap
