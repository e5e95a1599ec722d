import Smartchip.Foundation.Run
import Smartchip.Mlme.Exchange

/-!
# The messages of the station threads

Each of the four messages of a thread is pending, free or in the hands of the thread.
The association thread puts back whatever it takes.  The authentication thread keeps a
response while it looks for the challenge text, and leaves with it when there is none.
-/

namespace Smartchip.Mlme

open Smartchip.Foundation Smartchip.Frame Smartchip.Utility

structure StaSystem where
  auth : AuthSta
  assoc : AssocSta

inductive StaSystemEvent where
  | auth (event : StaEvent)
  | assoc (event : StaEvent)

def staStep (s : StaSystem) : StaSystemEvent → Option StaSystem
  | .auth event => some { s with auth := authStep s.auth event }
  | .assoc event => some { s with assoc := assocStep s.assoc event }

def staInit : StaSystem := ⟨authSta, assocSta⟩

/-- Every message is in one place, and a thread that has ended has none. -/
structure Conserved (s : StaSystem) : Prop where
  auth : Accounted s.auth.q.que s.auth.pmsg.toList staMessages
  assoc : Accounted s.assoc.q.que [] staMessages
  ended : s.auth.pc = .exited → s.auth.pmsg = none

/-- The response kept for its challenge text has one, and that fits into `chlg_txt`. -/
def ChallengeFits (s : AuthSta) : Prop :=
  ∀ msg ∈ s.pmsg, ∀ found ∈ findChallenge (s.q.value msg) (s.q.len msg),
    ∃ pie ∈ found, s.q.value msg (pie + 1) ≤ 128

def HasChallenge (s : StaSystem) : StaSystemEvent → Prop
  | .auth (.thrd _) => s.auth.pc = .challenge → ChallengeFits s.auth
  | _ => True

/-! ## What the steps keep -/

theorem nodup_staMessages : staMessages.Nodup := by decide

section Feeding

variable {q : StaQue} {held : List StaMsg}

theorem accounted_post (all : Accounted q.que held staMessages) (tag : StaTag) :
    Accounted (q.post tag).que held staMessages := by
  unfold StaQue.post
  split
  · exact all
  · rename_i msg que fresh
    exact (all.new nodup_staMessages fresh).push nodup_staMessages

theorem accounted_postFrame (all : Accounted q.que held staMessages) (frame : List UInt8) :
    Accounted (q.postFrame frame).que held staMessages := by
  unfold StaQue.postFrame
  split
  · exact all
  · rename_i msg que fresh
    exact (all.new nodup_staMessages fresh).push nodup_staMessages

end Feeding

section Auth

variable {s : AuthSta} {a : StaAnswers}

/-- Only for a challenge text does the thread keep a message from one step to the next. -/
structure AuthOk (s : AuthSta) : Prop where
  all : Accounted s.q.que s.pmsg.toList staMessages
  held : s.pc ≠ .challenge → s.pmsg = none

/-- The thread has taken a message and is to put it back in this step. -/
structure AuthTaken (s : AuthSta) (msg : StaMsg) : Prop where
  all : Accounted s.q.que [msg] staMessages
  held : s.pmsg = none

theorem AuthOk.elsewhere (ok : AuthOk s) {s' : AuthSta} (notChallenge : s.pc ≠ .challenge)
    (q : s'.q = s.q) (pmsg : s'.pmsg = s.pmsg) : AuthOk s' := by
  refine ⟨?_, fun _ => ?_⟩
  · rw [q, pmsg]
    exact ok.all
  · rw [pmsg]
    exact ok.held notChallenge

theorem AuthOk.take (ok : AuthOk s) (notChallenge : s.pc ≠ .challenge) {msg : StaMsg}
    {que : MsgQue StaMsg} (pops : wfMsgPop s.q.que = some (msg, que)) :
    AuthTaken { s with q := { s.q with que } } msg := by
  have none := ok.held notChallenge
  have all := ok.all
  rw [none] at all
  exact ⟨all.pop nodup_staMessages pops, none⟩

theorem AuthTaken.drop {msg : StaMsg} (taken : AuthTaken s msg) : AuthOk (s.drop msg) := by
  refine ⟨?_, fun _ => taken.held⟩
  change Accounted (wfMsgDel s.q.que msg) s.pmsg.toList staMessages
  rw [taken.held]
  exact taken.all.del nodup_staMessages

theorem AuthTaken.drop_then {msg : StaMsg} (taken : AuthTaken s msg) {s' : AuthSta}
    (q : s'.q = s.q.del msg) (pmsg : s'.pmsg = s.pmsg) : AuthOk s' := by
  refine ⟨?_, fun _ => ?_⟩
  · rw [q, pmsg]
    exact taken.drop.all
  · rw [pmsg]
    exact taken.held

theorem AuthOk.popStart (ok : AuthOk s) (here : s.pc = .popStart) :
    AuthOk (s.popStart a) := by
  have notChallenge : s.pc ≠ .challenge := by simp [here]
  unfold AuthSta.popStart
  split
  · exact ok.elsewhere notChallenge rfl rfl
  · rename_i msg que pops
    have taken := ok.take notChallenge pops
    split
    · exact taken.drop_then rfl rfl
    · exact taken.drop_then rfl rfl

theorem AuthTaken.seq2 {msg : StaMsg} (taken : AuthTaken s msg) : AuthOk (s.seq2 msg) := by
  unfold AuthSta.seq2
  dsimp only
  split_ifs with seq unsupported success shared
  · exact taken.drop_then rfl rfl
  · exact ⟨taken.all, fun notChallenge => absurd rfl notChallenge⟩
  · exact taken.drop_then rfl rfl
  · exact taken.drop_then rfl rfl
  · exact taken.drop_then rfl rfl

theorem AuthTaken.seq4 {msg : StaMsg} (taken : AuthTaken s msg) : AuthOk (s.seq4 msg) := by
  unfold AuthSta.seq4
  dsimp only
  split_ifs with seq success
  · exact taken.drop_then rfl rfl
  · exact taken.drop_then rfl rfl
  · exact taken.drop_then rfl rfl

theorem AuthOk.await (ok : AuthOk s) (notChallenge : s.pc ≠ .challenge) {again : AuthPc}
    {rsp : AuthSta → StaMsg → AuthSta}
    (next : ∀ s msg, AuthTaken s msg → AuthOk (rsp s msg)) :
    AuthOk (s.await a again rsp) := by
  unfold AuthSta.await
  split
  · split_ifs
    · exact ok.elsewhere notChallenge rfl rfl
    · exact ok.elsewhere notChallenge rfl rfl
  · rename_i msg que pops
    have taken := ok.take notChallenge pops
    split
    · exact taken.drop_then rfl rfl
    · exact next _ msg taken
    · exact taken.drop_then rfl rfl

/-- The response kept for its challenge text goes back when the text fits. -/
theorem AuthOk.challenge (ok : AuthOk s) (fits : ChallengeFits s) : AuthOk s.challenge := by
  unfold AuthSta.challenge
  split
  · exact ok
  · rename_i msg held
    dsimp only
    split
    · exact ok
    · rename_i missing
      obtain ⟨pie, found, -⟩ := fits msg held none missing
      cases found
    · rename_i pie found
      obtain ⟨other, same, short⟩ := fits msg held (some pie) found
      cases same
      rw [if_neg (UInt8.not_lt.mpr short)]
      have all := ok.all
      rw [held] at all
      exact ⟨all.del nodup_staMessages, fun _ => rfl⟩

theorem AuthOk.thrd (ok : AuthOk s) (fits : s.pc = .challenge → ChallengeFits s) :
    AuthOk (s.thrd a) := by
  unfold AuthSta.thrd
  cases here : s.pc with
  | waitHw =>
      have notChallenge : s.pc ≠ .challenge := by simp [here]
      dsimp only
      split
      · exact ok.elsewhere notChallenge rfl rfl
      · exact ok.elsewhere notChallenge rfl rfl
  | popStart => exact ok.popStart here
  | begin =>
      have notChallenge : s.pc ≠ .challenge := by simp [here]
      dsimp only
      unfold AuthSta.start
      split_ifs
      all_goals exact ok.elsewhere notChallenge rfl rfl
  | sendSeq1 =>
      have notChallenge : s.pc ≠ .challenge := by simp [here]
      dsimp only
      unfold AuthSta.sendSeq1
      split_ifs
      all_goals exact ok.elsewhere notChallenge rfl rfl
  | waitSeq2 => exact ok.await (by simp [here]) fun _ _ taken => taken.seq2
  | challenge => exact ok.challenge (fits here)
  | sendSeq3 =>
      have notChallenge : s.pc ≠ .challenge := by simp [here]
      dsimp only
      unfold AuthSta.sendSeq3
      split_ifs
      all_goals exact ok.elsewhere notChallenge rfl rfl
  | waitSeq4 => exact ok.await (by simp [here]) fun _ _ taken => taken.seq4
  | exit =>
      have none := ok.held (by simp [here])
      have all := ok.all
      rw [none] at all
      exact ⟨all, fun _ => rfl⟩
  | exited => exact ok

theorem AuthOk.authStep (ok : AuthOk s) (event : StaEvent)
    (fits : ∀ a, event = .thrd a → s.pc = .challenge → ChallengeFits s) :
    AuthOk (authStep s event) := by
  cases event with
  | thrd a => exact ok.thrd (fits a rfl)
  | spawn junk =>
      unfold Mlme.authStep
      by_cases exited : s.pc = .exited
      · simp only [exited, if_true]
        exact ok.elsewhere (by simp [exited]) rfl rfl
      · simp only [exited, if_false]
        exact ok
  | start => exact ⟨accounted_post ok.all _, ok.held⟩
  | stop =>
      unfold Mlme.authStep
      dsimp only
      split_ifs
      · exact ⟨accounted_post ok.all _, ok.held⟩
      · exact ok
  | recv frame =>
      unfold Mlme.authStep
      dsimp only
      split_ifs
      · exact ok
      · exact ⟨accounted_postFrame ok.all _, ok.held⟩
  | takeHw => exact ⟨ok.all, ok.held⟩
  | freeHw => exact ⟨ok.all, ok.held⟩

end Auth

section Assoc

variable {s : AssocSta} {a : StaAnswers}

def AssocOk (s : AssocSta) : Prop := Accounted s.q.que [] staMessages

theorem AssocOk.pop_drop (ok : AssocOk s) {msg : StaMsg} {que : MsgQue StaMsg}
    (pops : wfMsgPop s.q.que = some (msg, que)) : Accounted (wfMsgDel que msg) [] staMessages :=
  (ok.pop nodup_staMessages pops).del nodup_staMessages

theorem AssocOk.thrd (ok : AssocOk s) : AssocOk (s.thrd a) := by
  unfold AssocSta.thrd
  cases s.pc with
  | waitHw =>
      dsimp only
      split
      · exact ok
      · exact ok
  | popStart =>
      dsimp only
      unfold AssocSta.popStart
      split
      · exact ok
      · rename_i msg que pops
        dsimp only
        split
        · exact ok.pop_drop pops
        · exact ok.pop_drop pops
  | send =>
      dsimp only
      unfold AssocSta.send
      split_ifs
      · exact ok
      · exact ok
      · exact ok
  | waitMsg =>
      dsimp only
      unfold AssocSta.await
      split
      · split_ifs
        · exact ok
        · exact ok
      · rename_i msg que pops
        dsimp only
        split
        · exact ok.pop_drop pops
        · unfold AssocSta.rsp
          dsimp only
          split_ifs
          · exact ok.pop_drop pops
          · exact ok.pop_drop pops
        · exact ok.pop_drop pops
  | exit => exact ok
  | exited => exact ok

theorem AssocOk.assocStep (ok : AssocOk s) (event : StaEvent) :
    AssocOk (assocStep s event) := by
  cases event with
  | thrd a => exact ok.thrd
  | spawn junk =>
      unfold Mlme.assocStep
      dsimp only
      split_ifs
      · exact ok
      · exact ok
  | start => exact accounted_post ok _
  | stop =>
      unfold Mlme.assocStep
      dsimp only
      split_ifs
      · exact accounted_post ok _
      · exact ok
  | recv frame =>
      unfold Mlme.assocStep
      dsimp only
      split_ifs
      · exact ok
      · exact accounted_postFrame ok _
  | takeHw => exact ok
  | freeHw => exact ok

end Assoc

/-- In every run in which the responses kept for their challenge text have one. -/
theorem station_messages_conserved (events : List StaSystemEvent)
    (steps : EachStep staStep HasChallenge staInit events) :
    Throughout staStep Conserved staInit events := by
  refine steps.throughout (fun s => AuthOk s.auth ∧ AssocOk s.assoc) ?_ ?_ ?_
  · rintro s ⟨auth, assoc⟩
    exact ⟨auth.all, assoc, fun exited => auth.held (by simp [exited])⟩
  · rintro s event ⟨auth, assoc⟩ has
    cases event with
    | auth event =>
        refine ⟨_, rfl, auth.authStep event ?_, assoc⟩
        rintro a rfl
        exact has
    | assoc event => exact ⟨_, rfl, auth, assoc.assocStep event⟩
  · have all : Accounted staQueInit.que [] staMessages := List.Perm.refl _
    exact ⟨⟨all, fun _ => rfl⟩, all⟩

instance (s : AuthSta) : Decidable (ChallengeFits s) :=
  inferInstanceAs (Decidable (∀ msg ∈ s.pmsg, ∀ found ∈ findChallenge (s.q.value msg)
    (s.q.len msg), ∃ pie ∈ found, s.q.value msg (pie + 1) ≤ 128))

instance (s : StaSystem) (event : StaSystemEvent) : Decidable (HasChallenge s event) :=
  match event with
  | .auth (.thrd _) =>
      inferInstanceAs (Decidable (s.auth.pc = .challenge → ChallengeFits s.auth))
  | .auth (.spawn _) | .auth .start | .auth .stop | .auth (.recv _) | .auth .takeHw
  | .auth .freeHw | .assoc _ => isTrue trivial

def authRsp (seq status : UInt16) (elements : List UInt8) : List UInt8 :=
  List.replicate 24 0 ++ le16 1 ++ le16 seq ++ le16 status ++ elements

/-- The access point refuses the open algorithm and sends `elements` in
its challenge. -/
def sharedKeyRun (elements : List UInt8) : List StaSystemEvent :=
  let step := StaSystemEvent.auth (StaEvent.thrd ⟨true, 0, false, 0⟩)
  [StaSystemEvent.auth .start, StaSystemEvent.auth (.spawn 0), step, step, step, step,
    StaSystemEvent.auth (.recv (authRsp 2 13 [])), step, step,
    StaSystemEvent.auth (.recv (authRsp 2 0 elements)), step, step, step]

theorem station_messages_conserved_challenge :
    EachStep staStep HasChallenge staInit (sharedKeyRun (16 :: 128 :: List.replicate 128 7)) ∧
      Throughout staStep Conserved staInit
        (sharedKeyRun (16 :: 128 :: List.replicate 128 7)) := by
  have has : EachStep staStep HasChallenge staInit
      (sharedKeyRun (16 :: 128 :: List.replicate 128 7)) := by
    decide +kernel
  exact ⟨has, station_messages_conserved _ has⟩

/-- The challenge is missing, and one of the two messages for responses is lost. -/
theorem station_message_lost :
    ¬ Throughout staStep Conserved staInit (sharedKeyRun []) := by
  intro conserved
  obtain ⟨s, reached, good⟩ := conserved.final
  have found : (run staStep staInit (sharedKeyRun [])).all (fun s =>
      decide (s.auth.q.que.pend.length + s.auth.q.que.free.length = 3 ∧
        s.auth.pc = .exited)) = true := by
    decide +kernel
  rw [reached, Option.all_some, decide_eq_true_iff] at found
  have size := good.auth.length_eq
  rw [good.ended found.2] at size
  simp [found.1, staMessages] at size

end Smartchip.Mlme
