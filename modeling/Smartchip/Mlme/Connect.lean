import Smartchip.Foundation.Run
import Smartchip.Mlme.Core
import Smartchip.Scan.Cleanup

/-!
# The connection flag

The flag is set behind the preparation of a connection.  It is cleared at `conn_break`,
but only for a request that wants to be told, and the WDN it stands for is that of the
BSSID as long as nobody writes another one.
-/

namespace Smartchip.Mlme

open Smartchip.Foundation Smartchip.Frame
open Smartchip.Scan (HwOwner)

universe u v

/-- The parts of a connection: none yet or no more, a WDN has been built, the connection
is maintained, it is broken off. -/
inductive Phase where
  | outside
  | joining
  | connected
  | breaking
  deriving DecidableEq

def CorePc.phase : CorePc → Phase
  | .idle | .buildWdn | .clearup | .clearupWait | .p2p => .outside
  | .scanStart caller | .scanRun caller | .scanWait caller _ =>
      match caller with
      | .request | .connect => .outside
      | .maintain | .probe => .connected
  | .authStart | .authRun | .authWait | .assocStart | .assocRun | .assocWait
  | .preconnect | .preconnectBody | .setConnect => .joining
  | .maintain | .deauth | .deauthBody | .baReq | .baReqBody | .baRsp | .baRspBody =>
      .connected
  | .connBreak => .breaking

/-- The flag is set only while the connection is maintained, up to the step that breaks it
off, and then the WDN is that of the BSSID. -/
structure ConnectOk {Party : Type u} (s : MlmeNic Party) : Prop where
  phase : s.connect = true → s.pc.phase = .connected ∨ s.pc.phase = .breaking
  wdn : s.connect = true → s.pwdn = some s.curBssid ∧ s.curBssid ∈ s.wdns

/-- A connection that is broken off is one whose request wants to be told, and the BSSID
of a connection is not overwritten. -/
def KeepsFlag {Nic : Type v} {Party : Type u} (m : MlmeSystem Nic Party) :
    MlmeEvent Nic Party → Prop
  | .core n _ =>
      (m.nic n).pc = .connBreak → (m.nic n).connect = true → (m.nic n).indicateEn = true
  | .connectCb n bssid =>
      (m.nic n).connect = true → (m.nic n).state.upToAssoc = false →
        bssid = (m.nic n).curBssid
  | _ => True

/-! ## What a step does to the connection -/

section Steps

variable {Party : Type u} {s s' : MlmeNic Party} {a : CoreAnswers} {prbTimes : Nat}
  {lock : SubThread → Option HwOwner} {phase : Phase}

/-- A step inside a phase, or one that breaks off. -/
structure Quiet (phase : Phase) (s s' : MlmeNic Party) : Prop where
  connect : s'.connect = s.connect
  pwdn : s'.pwdn = s.pwdn
  wdns : s'.wdns = s.wdns
  curBssid : s'.curBssid = s.curBssid
  inside : s'.pc.phase = phase ∨ s'.pc.phase = .breaking
  state : phase = .joining → s.state.upToAssoc = true → s'.pc.phase = .joining →
    s'.state.upToAssoc = true

theorem Quiet.refl (here : s.pc.phase = phase) : Quiet phase s s :=
  ⟨rfl, rfl, rfl, rfl, .inl here, fun _ kept _ => kept⟩

/-- A step that changes neither the addresses nor the state. -/
theorem quiet_of_state (same : s'.connect = s.connect ∧ s'.pwdn = s.pwdn ∧
      s'.wdns = s.wdns ∧ s'.curBssid = s.curBssid ∧ s'.state = s.state)
    (inside : s'.pc.phase = phase ∨ s'.pc.phase = .breaking) : Quiet phase s s' := by
  obtain ⟨connect, pwdn, wdns, curBssid, state⟩ := same
  refine ⟨connect, pwdn, wdns, curBssid, inside, fun _ kept _ => ?_⟩
  rw [state]
  exact kept

theorem idle_quiet (here : s.pc.phase = .outside) : Quiet .outside s (idle s a) := by
  unfold idle restart
  split_ifs
  · exact .refl here
  · split
    · exact .refl here
    · split
      all_goals exact ⟨rfl, rfl, rfl, rfl, .inl rfl, nofun⟩

theorem scanFailed_quiet (caller : ScanCaller) :
    Quiet (CorePc.scanStart caller).phase s (scanFailed s caller) := by
  cases caller with
  | request => exact ⟨rfl, rfl, rfl, rfl, .inl rfl, nofun⟩
  | connect => exact ⟨rfl, rfl, rfl, rfl, .inr rfl, nofun⟩
  | maintain => exact ⟨rfl, rfl, rfl, rfl, .inl rfl, nofun⟩
  | probe => exact ⟨rfl, rfl, rfl, rfl, .inl rfl, nofun⟩

theorem scanStart_quiet (caller : ScanCaller) :
    Quiet (CorePc.scanStart caller).phase s (scanStart s caller a) := by
  unfold scanStart
  split_ifs
  · exact quiet_of_state ⟨rfl, rfl, rfl, rfl, rfl⟩ (.inl rfl)
  · exact scanFailed_quiet caller

theorem scanEnded_quiet (caller : ScanCaller) :
    Quiet (CorePc.scanStart caller).phase s (scanEnded s caller) := by
  cases caller with
  | request => exact ⟨rfl, rfl, rfl, rfl, .inl rfl, nofun⟩
  | connect =>
      unfold scanEnded
      dsimp only
      split_ifs
      · exact ⟨rfl, rfl, rfl, rfl, .inl rfl, nofun⟩
      · exact ⟨rfl, rfl, rfl, rfl, .inr rfl, nofun⟩
      · exact ⟨rfl, rfl, rfl, rfl, .inr rfl, nofun⟩
  | maintain => exact ⟨rfl, rfl, rfl, rfl, .inl rfl, nofun⟩
  | probe => exact ⟨rfl, rfl, rfl, rfl, .inl rfl, nofun⟩

theorem scanStopped_quiet (caller : ScanCaller) (found : Bool) :
    Quiet (CorePc.scanStart caller).phase s (scanStopped s caller found) := by
  cases caller with
  | request => exact ⟨rfl, rfl, rfl, rfl, .inl rfl, nofun⟩
  | connect =>
      unfold scanStopped
      dsimp only
      split_ifs
      · exact ⟨rfl, rfl, rfl, rfl, .inl rfl, nofun⟩
      · exact ⟨rfl, rfl, rfl, rfl, .inr rfl, nofun⟩
  | maintain => exact ⟨rfl, rfl, rfl, rfl, .inl rfl, nofun⟩
  | probe => exact ⟨rfl, rfl, rfl, rfl, .inl rfl, nofun⟩

/-- A step of a thread that the MLME thread runs changes only that thread. -/
theorem stepScan_quiet {next : MlmeNic Party → MlmeNic Party} (here : s.pc.phase = phase)
    (ended : ∀ scan, Quiet phase { s with scan } (next { s with scan })) :
    Quiet phase s (stepScan prbTimes lock s a next).nic := by
  unfold stepScan
  dsimp only
  split_ifs
  · exact { ended _ with }
  · exact { Quiet.refl here with }

theorem stepAuth_quiet {next : MlmeNic Party → MlmeNic Party} (here : s.pc.phase = phase)
    (ended : ∀ auth, Quiet phase { s with auth } (next { s with auth })) :
    Quiet phase s (stepAuth lock s a next).nic := by
  unfold stepAuth
  dsimp only
  split_ifs
  · exact { ended _ with }
  · exact { Quiet.refl here with }

theorem stepAssoc_quiet {next : MlmeNic Party → MlmeNic Party} (here : s.pc.phase = phase)
    (ended : ∀ assoc, Quiet phase { s with assoc } (next { s with assoc })) :
    Quiet phase s (stepAssoc lock s a next).nic := by
  unfold stepAssoc
  dsimp only
  split_ifs
  · exact { ended _ with }
  · exact { Quiet.refl here with }

theorem waitLock_quiet {thread : SubThread} {body : CorePc} (here : s.pc.phase = phase)
    (there : body.phase = phase) : Quiet phase s (waitLock lock thread s body).nic := by
  unfold waitLock
  split_ifs
  · exact quiet_of_state ⟨rfl, rfl, rfl, rfl, rfl⟩ (.inl there)
  · exact .refl here

theorem maintain_quiet (here : s.pc.phase = .connected) :
    Quiet .connected s (maintain s a) := by
  unfold maintain
  split
  · exact .refl here
  · split
    all_goals exact ⟨rfl, rfl, rfl, rfl, .inl rfl, nofun⟩

theorem baBody_quiet : Quiet .connected s (baBody s).nic := by
  unfold baBody
  split_ifs
  · exact ⟨rfl, rfl, rfl, rfl, .inl rfl, nofun⟩
  · exact ⟨rfl, rfl, rfl, rfl, .inl rfl, nofun⟩

/-- The four steps that change the flag or the addresses. -/
def CorePc.writes : CorePc → Bool
  | .buildWdn | .setConnect | .connBreak | .clearup => true
  | _ => false

theorem coreStep_quiet (notWrites : s.pc.writes = false) :
    Quiet s.pc.phase s (coreStep prbTimes lock s a).nic := by
  unfold coreStep
  cases here : s.pc with
  | idle => exact idle_quiet (by rw [here]; rfl)
  | scanStart caller => exact scanStart_quiet caller
  | scanRun caller =>
      refine stepScan_quiet (by rw [here]) fun scan => ?_
      exact scanEnded_quiet caller
  | scanWait caller found =>
      refine stepScan_quiet (by rw [here]) fun scan => ?_
      exact scanStopped_quiet caller found
  | authStart =>
      dsimp only
      unfold authStart
      split_ifs
      · exact quiet_of_state ⟨rfl, rfl, rfl, rfl, rfl⟩ (.inl rfl)
      · exact quiet_of_state ⟨rfl, rfl, rfl, rfl, rfl⟩ (.inr rfl)
  | authRun =>
      refine stepAuth_quiet (by rw [here]) fun auth => ?_
      unfold authEnded
      split_ifs
      · exact ⟨rfl, rfl, rfl, rfl, .inl rfl, fun _ _ _ => rfl⟩
      · exact quiet_of_state ⟨rfl, rfl, rfl, rfl, rfl⟩ (.inr rfl)
  | authWait =>
      refine stepAuth_quiet (by rw [here]) fun auth => ?_
      exact quiet_of_state ⟨rfl, rfl, rfl, rfl, rfl⟩ (.inr rfl)
  | assocStart =>
      dsimp only
      unfold assocStart
      split_ifs
      · exact quiet_of_state ⟨rfl, rfl, rfl, rfl, rfl⟩ (.inl rfl)
      · exact quiet_of_state ⟨rfl, rfl, rfl, rfl, rfl⟩ (.inr rfl)
  | assocRun =>
      refine stepAssoc_quiet (by rw [here]) fun assoc => ?_
      unfold assocEnded
      split_ifs
      · exact quiet_of_state ⟨rfl, rfl, rfl, rfl, rfl⟩ (.inl rfl)
      · exact quiet_of_state ⟨rfl, rfl, rfl, rfl, rfl⟩ (.inr rfl)
  | assocWait =>
      refine stepAssoc_quiet (by rw [here]) fun assoc => ?_
      exact quiet_of_state ⟨rfl, rfl, rfl, rfl, rfl⟩ (.inr rfl)
  | preconnect => exact waitLock_quiet (by rw [here]) rfl
  | preconnectBody =>
      cases failed : a.rateFail with
      | true => exact quiet_of_state ⟨rfl, rfl, rfl, rfl, rfl⟩ (.inr rfl)
      | false => exact quiet_of_state ⟨rfl, rfl, rfl, rfl, rfl⟩ (.inl rfl)
  | maintain => exact maintain_quiet (by rw [here]; rfl)
  | deauth => exact waitLock_quiet (by rw [here]) rfl
  | deauthBody => exact ⟨rfl, rfl, rfl, rfl, .inr rfl, nofun⟩
  | baReq => exact waitLock_quiet (by rw [here]) rfl
  | baReqBody => exact baBody_quiet
  | baRsp => exact waitLock_quiet (by rw [here]) rfl
  | baRspBody => exact baBody_quiet
  | clearupWait =>
      dsimp only
      split_ifs
      · exact ⟨rfl, rfl, rfl, rfl, .inl rfl, nofun⟩
      · exact .refl (by rw [here])
  | p2p =>
      dsimp only
      split_ifs
      · exact ⟨rfl, rfl, rfl, rfl, .inl rfl, nofun⟩
      · exact .refl (by rw [here])
  | buildWdn | setConnect | connBreak | clearup =>
      rw [here] at notWrites
      cases notWrites

/-! ## What the steps keep -/

/-- While a connection is built its WDN is that of the BSSID, which the system cannot
overwrite then, and a connection has a WDN. -/
structure Joined (s : MlmeNic Party) : Prop where
  wdn : s.pc.phase = .joining → s.pwdn = some s.curBssid ∧ s.curBssid ∈ s.wdns
  state : s.pc.phase = .joining → s.state.upToAssoc = true
  connected : s.pc.phase = .connected → s.pwdn ≠ none

theorem ConnectOk.off (ok : ConnectOk s) (outside : s.pc.phase = .outside) :
    s.connect = false := by
  cases flag : s.connect with
  | false => rfl
  | true =>
      rcases ok.phase flag with connected | breaking
      · cases outside.symm.trans connected
      · cases outside.symm.trans breaking

theorem connectOk_of_off (off : s.connect = false) : ConnectOk s :=
  ⟨fun on => absurd on (by simp [off]), fun on => absurd on (by simp [off])⟩

theorem Quiet.joined (quiet : Quiet s.pc.phase s s') (joined : Joined s) : Joined s' := by
  have back : ∀ p, s'.pc.phase = p → p ≠ .breaking → s.pc.phase = p := by
    intro p here notBreaking
    rcases quiet.inside with same | breaking
    · exact same.symm.trans here
    · exact absurd (here.symm.trans breaking) notBreaking
  refine ⟨fun here => ?_, fun here => ?_, fun here => ?_⟩
  · rw [quiet.pwdn, quiet.curBssid, quiet.wdns]
    exact joined.wdn (back _ here nofun)
  · have joining := back _ here nofun
    exact quiet.state joining (joined.state joining) here
  · rw [quiet.pwdn]
    exact joined.connected (back _ here nofun)

theorem Quiet.connectOk (quiet : Quiet s.pc.phase s s') (ok : ConnectOk s) :
    ConnectOk s' := by
  refine ⟨fun on => ?_, fun on => ?_⟩
  · rw [quiet.connect] at on
    rcases quiet.inside with same | breaking
    · rw [same]
      exact ok.phase on
    · exact .inr breaking
  · rw [quiet.connect] at on
    rw [quiet.pwdn, quiet.curBssid, quiet.wdns]
    exact ok.wdn on

theorem buildWdn_joined : Joined (buildWdn s a) := by
  unfold buildWdn
  by_cases room : s.curBssid ∈ s.wdns ∨ a.wdnFree = true
  · rw [if_pos room]
    dsimp only
    by_cases ready : a.wdnReady = true
    · rw [if_pos ready]
      refine ⟨fun _ => ⟨rfl, ?_⟩, fun _ => rfl, nofun⟩
      dsimp only
      split_ifs with old
      · exact old
      · simp
    · rw [if_neg ready]
      exact ⟨nofun, nofun, nofun⟩
  · rw [if_neg room]
    exact ⟨nofun, nofun, nofun⟩

theorem buildWdn_connect : (buildWdn s a).connect = s.connect := by
  unfold buildWdn
  dsimp only
  split_ifs
  all_goals rfl

theorem coreStep_joined (joined : Joined s) :
    Joined (coreStep prbTimes lock s a).nic := by
  by_cases notWrites : s.pc.writes = false
  · exact (coreStep_quiet notWrites).joined joined
  · unfold coreStep
    cases here : s.pc with
    | buildWdn => exact buildWdn_joined
    | setConnect =>
        have wdn := joined.wdn (by rw [here]; rfl)
        refine ⟨nofun, nofun, fun _ => ?_⟩
        change s.pwdn ≠ none
        simp [wdn.1]
    | connBreak =>
        dsimp only
        unfold connBreak
        split_ifs
        · exact ⟨nofun, nofun, nofun⟩
        · exact ⟨nofun, nofun, nofun⟩
    | clearup => exact ⟨nofun, nofun, nofun⟩
    | _ =>
        rw [here] at notWrites
        exact absurd rfl notWrites

/-- A step keeps the flag right unless it breaks a connection off and nobody is told. -/
theorem coreStep_connectOk (joined : Joined s) (ok : ConnectOk s) :
    ConnectOk (coreStep prbTimes lock s a).nic ↔
      (s.pc = .connBreak → s.connect = true → s.indicateEn = true) := by
  by_cases notWrites : s.pc.writes = false
  · have elsewhere : s.pc ≠ .connBreak := by
      intro here
      rw [here] at notWrites
      cases notWrites
    simp [(coreStep_quiet notWrites).connectOk ok, elsewhere]
  · unfold coreStep
    cases here : s.pc with
    | buildWdn =>
        have off : (buildWdn s a).connect = false := by
          rw [buildWdn_connect]
          exact ok.off (by rw [here]; rfl)
        simp [CoreOut.of, connectOk_of_off off]
    | setConnect =>
        have wdn := joined.wdn (by rw [here]; rfl)
        have set : ConnectOk (maintainAgain { s with connect := true }) :=
          ⟨fun _ => .inl rfl, fun _ => wdn⟩
        exact ⟨fun _ => nofun, fun _ => set⟩
    | connBreak =>
        dsimp only [CoreOut.of]
        unfold connBreak
        by_cases told : s.indicateEn = true
        · simp [told, connectOk_of_off]
        · rw [if_neg told]
          cases flag : s.connect with
          | false => simp [connectOk_of_off, MlmeNic.goto, flag]
          | true =>
              refine ⟨fun kept => ?_, fun tells => absurd (tells rfl rfl) told⟩
              rcases kept.phase flag with outside | outside
              · cases outside
              · cases outside
    | clearup =>
        have off : (connClearup s).connect = false := by
          refine Eq.trans ?_ (ok.off (by rw [here]; rfl))
          unfold connClearup
          dsimp only
          split_ifs
          all_goals rfl
        simp [CoreOut.of, connectOk_of_off off]
    | _ =>
        rw [here] at notWrites
        exact absurd rfl notWrites

/-- A look at the messages sets a BSSID only before a connection is built. -/
theorem look_quiet (s : MlmeNic Party) (a : CoreAnswers) :
    Quiet s.pc.phase s (look s a) ∨
      s.pc.phase = .outside ∧ (look s a).pc.phase = .outside ∧
        (look s a).connect = s.connect := by
  have stop : ∀ caller found, s.pc = .scanRun caller →
      Quiet s.pc.phase s (stopScan s caller found) := by
    intro caller found here
    unfold stopScan wfScanStop
    rw [here]
    split_ifs
    · exact quiet_of_state ⟨rfl, rfl, rfl, rfl, rfl⟩ (.inl rfl)
    · exact quiet_of_state ⟨rfl, rfl, rfl, rfl, rfl⟩ (.inl rfl)
  unfold look
  split
  · exact .inl (.refl rfl)
  · rename_i msg _
    split
    · rename_i caller here
      cases caller with
      | request =>
          unfold lookScan
          dsimp only
          split
          · exact .inl (stop _ _ here)
          · exact .inl (.refl rfl)
      | connect =>
          unfold lookScan
          dsimp only
          split
          · exact .inl (stop _ _ here)
          · exact .inl (stop _ _ here)
          · refine .inr ⟨by rw [here]; rfl, rfl, ?_⟩
            unfold setCurNetwork stopScan wfScanStop
            split_ifs
            all_goals rfl
          · exact .inl (.refl rfl)
      | maintain =>
          unfold lookScan
          dsimp only
          split
          all_goals first | exact .inl (stop _ _ here) | exact .inl (.refl rfl)
      | probe =>
          unfold lookScan
          dsimp only
          split
          all_goals first | exact .inl (stop _ _ here) | exact .inl (.refl rfl)
    · left
      unfold lookExchange
      split
      all_goals try exact .refl rfl
      all_goals
        split
        · rename_i here
          rw [here]
          exact quiet_of_state ⟨rfl, rfl, rfl, rfl, rfl⟩ (.inl rfl)
        · rename_i here
          rw [here]
          exact quiet_of_state ⟨rfl, rfl, rfl, rfl, rfl⟩ (.inl rfl)
        · exact .refl rfl

theorem look_joined (joined : Joined s) : Joined (look s a) := by
  rcases look_quiet s a with quiet | ⟨-, outside, -⟩
  · exact quiet.joined joined
  · refine ⟨fun here => ?_, fun here => ?_, fun here => ?_⟩
    all_goals cases outside.symm.trans here

theorem look_connectOk (ok : ConnectOk s) : ConnectOk (look s a) := by
  rcases look_quiet s a with quiet | ⟨outside, -, same⟩
  · exact quiet.connectOk ok
  · exact connectOk_of_off (same.trans (ok.off outside))

theorem connectCb_joined (joined : Joined s) (bssid : MacAddr) :
    Joined (connectCb s bssid) := by
  unfold connectCb
  split_ifs with upTo
  · exact joined
  · refine ⟨fun here => ?_, fun here => ?_, joined.connected⟩
    · exact absurd (joined.state here) upTo
    · exact absurd (joined.state here) upTo

theorem connectCb_connectOk (ok : ConnectOk s) (bssid : MacAddr) :
    ConnectOk (connectCb s bssid) ↔
      (s.connect = true → s.state.upToAssoc = false → bssid = s.curBssid) := by
  unfold connectCb
  cases upTo : s.state.upToAssoc with
  | true => simp [ok]
  | false =>
      simp only [Bool.false_eq_true, if_false, forall_const]
      constructor
      · intro kept on
        have old := (ok.wdn on).1
        have new := (kept.wdn on).1
        exact Option.some.inj (new.symm.trans old)
      · intro same
        refine ⟨ok.phase, fun on => ?_⟩
        dsimp only
        rw [same on]
        exact ok.wdn on

end Steps

/-! ## Runs -/

section Run

variable {Nic : Type v} {Party : Type u} [DecidableEq Nic] {m : MlmeSystem Nic Party}

theorem applyLock_nic (thread : Nic × SubThread) (act : Option LockAct) :
    (applyLock m thread act).nic = m.nic := by
  cases act with
  | none => rfl
  | some act => cases act <;> rfl

theorem coreEvent_nic (prbTimes : Nat) (n : Nic) (a : CoreAnswers) :
    (coreEvent prbTimes m n a).nic = Function.update m.nic n
      (coreStep prbTimes (fun thread => hwView m.hw (n, thread)) (m.nic n) a).nic := by
  unfold coreEvent
  dsimp only
  split
  · rfl
  · split_ifs
    · exact applyLock_nic _ _
    · exact applyLock_nic _ _

variable [DecidableEq Party]

/-- What an event does to the interface that it is about. -/
theorem mlmeStep_nic (prbTimes : Nat) (event : MlmeEvent Nic Party) :
    ∃ next n s', mlmeStep prbTimes m event = some next ∧
      next.nic = Function.update m.nic n s' ∧
      (Joined (m.nic n) → Joined s') ∧
      (Joined (m.nic n) → ConnectOk (m.nic n) → (ConnectOk s' ↔ KeepsFlag m event)) := by
  have aside : ∀ (s s' : MlmeNic Party), Quiet s.pc.phase s s' →
      (Joined s → Joined s') ∧ (Joined s → ConnectOk s → (ConnectOk s' ↔ True)) := by
    intro s s' quiet
    refine ⟨quiet.joined, fun _ ok => ?_⟩
    simp [quiet.connectOk ok]
  cases event with
  | core n a =>
      refine ⟨_, n, _, rfl, coreEvent_nic prbTimes n a, coreStep_joined, ?_⟩
      exact coreStep_connectOk
  | look n a =>
      refine ⟨_, n, _, rfl, rfl, look_joined, fun _ ok => ?_⟩
      simp [KeepsFlag, look_connectOk ok]
  | scan n event => exact ⟨_, n, _, rfl, rfl, aside _ _ { Quiet.refl rfl with }⟩
  | recvAuth n frame => exact ⟨_, n, _, rfl, rfl, aside _ _ { Quiet.refl rfl with }⟩
  | recvAssoc n frame => exact ⟨_, n, _, rfl, rfl, aside _ _ { Quiet.refl rfl with }⟩
  | connectCb n bssid =>
      refine ⟨_, n, _, rfl, rfl, fun joined => connectCb_joined joined bssid, fun _ ok => ?_⟩
      exact connectCb_connectOk ok bssid

def Consistent (m : MlmeSystem Nic Party) : Prop := ∀ n, ConnectOk (m.nic n)

theorem mlmeStep_joined (prbTimes : Nat) (event : MlmeEvent Nic Party)
    {next : MlmeSystem Nic Party} (joined : ∀ n, Joined (m.nic n))
    (hstep : mlmeStep prbTimes m event = some next) (n : Nic) : Joined (next.nic n) := by
  obtain ⟨after, own, s', hafter, same, kept, -⟩ := mlmeStep_nic (m := m) prbTimes event
  rw [hstep, Option.some.injEq] at hafter
  subst hafter
  rw [same]
  by_cases here : n = own
  · subst here
    rw [Function.update_self]
    exact kept (joined n)
  · rw [Function.update_of_ne here]
    exact joined n

end Run

end Smartchip.Mlme
