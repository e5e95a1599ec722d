import Smartchip.Ap.Auth
import Smartchip.Foundation.Run

/-!
# Who has the shared key

The thread takes the third frame from its message, which is as long as the longest frame
and keeps what it held before.  A whole frame is judged by its own bytes; for a shorter one
the challenge text is compared with bytes of an earlier frame.
-/

namespace Smartchip.Ap

open Smartchip.Foundation Smartchip.Frame Smartchip.Sec

/-! ## Frames -/

/-- What the keystream gives for the part of a frame behind the IV. -/
def plainOf (keys : SecInfo) (frame : List UInt8) : List UInt8 :=
  wepDecrypt keys ((frame.drop 24).take 4) (frame.drop 28)

/-- The body of a frame, if its ICV is right for the key that its IV selects. -/
def wepBody (keys : SecInfo) (frame : List UInt8) : Option (List UInt8) :=
  let body := (plainOf keys frame).take (frame.length - 32)
  if le32 (getCrc32 body) = (plainOf keys frame).drop (frame.length - 32) then some body
  else none

/-- A protected third frame whose challenge text is this one. -/
structure ProvesKey (keys : SecInfo) (chlgTxt frame : List UInt8) : Prop where
  isProtected : le16At frame 0 &&& 0x4000 ≠ 0
  body : ∃ body, wepBody keys frame = some body ∧
    le16At body 0 = 1 ∧ le16At body 2 = 3 ∧ (body.drop 8).take 128 = chlgTxt

/-- An authentication with the shared key has succeeded only with such a frame, received
behind the challenge. -/
def KeyProved (sec : AuthSec) (s : AuthSystem) : Prop :=
  s.ret = .ended → s.wdn.authAlgo = AuthAlgrthm.shared.value →
    ∃ frame ∈ s.since, ProvesKey sec.keys s.wdn.chlgTxt frame

/-- The checks of the third frame. -/
def acceptsSeq3 (sec : AuthSec) (w : AuthWdn) (msg : ApMsg) : Bool :=
  msg.tag = .authFrame && getHdrProtected msg.mgmt 0 &&
    match wfWepDecryptAuth sec.keys msg with
    | .ok mgmt =>
        mgmt.readLe16 30 = 3 && (mgmt.readLe16 28).toUInt32 = w.authAlgo &&
          w.chlgTxt = mgmt.read 36 128
    | _ => false

/-- `sizeof` of a third frame: the header, `auth_seq3` with the challenge text and the
ICV. -/
def seq3Size : Nat := 168

/-- The frame that passes the checks is a whole one that was received behind the
challenge. -/
def WholeFrame (sec : AuthSec) (s : AuthSystem) : AuthEvent → Prop
  | .thrd _ => s.ret = .waiting → s.pc = .seq3 → ∀ head ∈ s.que.head?,
      acceptsSeq3 sec s.wdn head.msg = true → seq3Size ≤ head.frame.length ∧ head.fresh = true
  | .recv _ _ _ => True

/-- The message has been filled from the frame. -/
def Filled (r : Received) : Prop :=
  r.frame.length ≤ r.msg.tag.sizeMax ∧ ∃ stale, r.msg = fillMsg stale r.msg.tag r.frame

theorem getHdrProtected_write {mem : Mem} {bytes : List UInt8} (long : 2 ≤ bytes.length) :
    getHdrProtected (mem.write 0 bytes) 0 = true ↔ le16At bytes 0 &&& 0x4000 ≠ 0 := by
  have header : (mem.write 0 bytes).readLe16 (0 + 0) = le16At bytes 0 :=
    Mem.readLe16_write_getD (by omega)
  unfold getHdrProtected
  change ((mem.write 0 bytes).readLe16 (0 + 0) &&& 0x4000 != 0) = true ↔ _
  simp [header]

theorem wepBody_eq_some {keys : SecInfo} {frame body : List UInt8}
    (opened : wepBody keys frame = some body) :
    body = (plainOf keys frame).take (frame.length - 32) := by
  unfold wepBody at opened
  dsimp only at opened
  split_ifs at opened
  exact (Option.some.inj opened).symm

@[simp] theorem length_plainOf (keys : SecInfo) (frame : List UInt8) :
    (plainOf keys frame).length = frame.length - 28 := by
  simp [plainOf, wepDecrypt, arc4Encrypt]

section Whole

variable {keys : SecInfo} {stale : Mem} {tag : ApMsgTag} {frame : List UInt8}

theorem read_plain_body (mem : Mem) :
    (mem.write 28 (plainOf keys frame)).read 28 (frame.length - 32) =
      (plainOf keys frame).take (frame.length - 32) := by
  have inside : 0 + (frame.length - 32) ≤ (plainOf keys frame).length := by
    rw [length_plainOf]
    omega
  have part : (mem.write 28 (plainOf keys frame)).read (28 + 0) (frame.length - 32) = _ :=
    Mem.read_write_inside mem inside
  simpa using part

theorem read_plain_icv (mem : Mem) (long : 32 ≤ frame.length) :
    (mem.write 28 (plainOf keys frame)).read (28 + (frame.length - 32)) 4 =
      (plainOf keys frame).drop (frame.length - 32) := by
  have inside : frame.length - 32 + 4 ≤ (plainOf keys frame).length := by
    rw [length_plainOf]
    omega
  rw [Mem.read_write_inside mem inside, List.take_of_length_le]
  rw [List.length_drop, length_plainOf]
  omega

/-- A frame is decrypted from its own bytes. -/
theorem decrypt_fillMsg (long : 32 ≤ frame.length) (short : frame.length < 65536) :
    wfWepDecryptAuth keys (fillMsg stale tag frame) =
      if (wepBody keys frame).isSome then
        .ok ((stale.write 0 frame).write 28 (plainOf keys frame))
      else .mismatch ((stale.write 0 frame).write 28 (plainOf keys frame)) := by
  have size : (UInt16.ofNat frame.length).toNat = frame.length :=
    UInt16.toNat_ofNat_of_lt' short
  have iv : (stale.write 0 frame).read 24 4 = (frame.drop 24).take 4 := by
    have part : (stale.write 0 frame).read (0 + 24) 4 = _ :=
      Mem.read_write_inside stale (by omega)
    rwa [Nat.zero_add] at part
  have payload : (stale.write 0 frame).read 28 (frame.length - 32 + 4) = frame.drop 28 := by
    have part : (stale.write 0 frame).read (0 + 28) (frame.length - 32 + 4) = _ :=
      Mem.read_write_inside stale (by omega)
    rw [Nat.zero_add] at part
    rw [part, List.take_of_length_le]
    rw [List.length_drop]
    omega
  have less : frame.length - 28 - 4 = frame.length - 32 := by omega
  have plain : wepDecrypt keys ((frame.drop 24).take 4) (frame.drop 28) =
    plainOf keys frame := rfl
  have enough : ¬ frame.length < 28 + 4 := by omega
  simp only [wfWepDecryptAuth, fillMsg, size, payloadOfs, less, iv, payload, plain, enough,
    if_false, read_plain_body, read_plain_icv _ long, wepBody]
  split_ifs <;> simp_all

end Whole

/-- The frame is judged by its own bytes. -/
theorem provesKey_of_accepts {sec : AuthSec} {w : AuthWdn} {r : Received}
    (filled : Filled r) (long : seq3Size ≤ r.frame.length)
    (shared : w.authAlgo = AuthAlgrthm.shared.value)
    (accepts : acceptsSeq3 sec w r.msg = true) : ProvesKey sec.keys w.chlgTxt r.frame := by
  obtain ⟨msg, frame, id, fresh⟩ := r
  obtain ⟨short, stale, same⟩ := filled
  dsimp only at short same long accepts ⊢
  unfold seq3Size at long
  unfold acceptsSeq3 at accepts
  simp only [Bool.and_eq_true, decide_eq_true_eq] at accepts
  obtain ⟨⟨tag, protects⟩, checks⟩ := accepts
  rw [tag] at short same
  subst same
  have size : (plainOf sec.keys frame).length = frame.length - 28 := length_plainOf ..
  have below : frame.length ≤ 180 := short
  rw [decrypt_fillMsg (by omega) (by omega)] at checks
  cases opened : wepBody sec.keys frame with
  | none => simp [opened] at checks
  | some body =>
      have bodyEq := wepBody_eq_some opened
      simp only [opened, Option.isSome_some, if_true, Bool.and_eq_true, decide_eq_true_eq]
        at checks
      obtain ⟨⟨transaction, alg⟩, text⟩ := checks
      rw [show 30 = 28 + 2 from rfl, Mem.readLe16_write_getD (by omega)] at transaction
      rw [show 28 = 28 + 0 from rfl, Mem.readLe16_write_getD (by omega), shared] at alg
      rw [show 36 = 28 + 8 from rfl, Mem.read_write_inside _ (by omega)] at text
      refine ⟨(getHdrProtected_write (by omega)).mp protects, body, opened, ?_, ?_, ?_⟩
      · rw [bodyEq, le16At_take (by omega)]
        exact UInt16.toUInt32_inj.mp alg
      · rw [bodyEq, le16At_take (by omega)]
        exact transaction
      · rw [bodyEq, List.drop_take, List.take_take, text]
        congr 1
        omega

/-! ## Steps -/

/-- What a step of the thread can do, as far as the key is concerned. -/
structure KeyMove (sec : AuthSec) (w : AuthWdn) (pc : AuthPc) (head : Option ApMsg)
    (out : AuthOut) : Prop where
  ended : out.ret = .ended → out.pc = .noAuth ∨ out.pc = .seq4Done
  noAuth : out.pc = .noAuth → (pc = .noAuth → w.authAlgo = 0) → out.wdn.authAlgo = 0
  seq3 : out.pc = .seq3 → (pc = .seq3 → w.authAlgo = 1) → out.wdn.authAlgo = 1
  seq4 : out.pc = .seq4Done → out.wdn.chlgTxt = w.chlgTxt ∧
    (pc = .seq4Done ∨ pc = .seq3 ∧ ∃ msg, head = some msg ∧ acceptsSeq3 sec w msg = true)
  mgmt : out.pc ≠ .seq4Done → out.mgmt = none
  stays : pc = .seq4Done → out.pc = .seq4Done

section Steps

variable {sec : AuthSec} {w : AuthWdn} {a : AuthAnswers} {msg : ApMsg} {pc : AuthPc}
  {head : Option ApMsg}

/-- The thread goes on at the same wait, or leaves from there. -/
theorem keyMove_same {out : AuthOut} (samePc : out.pc = pc) (ended : out.ret ≠ .ended)
    (algo : out.wdn.authAlgo = w.authAlgo ∨ pc = .seq1) (text : out.wdn.chlgTxt = w.chlgTxt)
    (mgmt : out.mgmt = none) : KeyMove sec w pc head out where
  ended done := absurd done ended
  noAuth here before := by
    rcases algo with same | start
    · rw [same]
      exact before (samePc.symm.trans here)
    · cases start.symm.trans (samePc.symm.trans here)
  seq3 here before := by
    rcases algo with same | start
    · rw [same]
      exact before (samePc.symm.trans here)
    · cases start.symm.trans (samePc.symm.trans here)
  seq4 here := ⟨text, .inl (samePc.symm.trans here)⟩
  mgmt _ := mgmt
  stays here := samePc.trans here

theorem recvSeq1_keyMove : KeyMove sec w .seq1 head (recvSeq1 sec w msg a) := by
  unfold recvSeq1
  dsimp only
  split_ifs with tag seq refused isOpen
  · exact keyMove_same rfl nofun (.inr rfl) rfl rfl
  · exact keyMove_same rfl nofun (.inr rfl) rfl rfl
  · exact keyMove_same rfl nofun (.inr rfl) rfl rfl
  · exact ⟨nofun, fun _ _ => isOpen, nofun, nofun, fun _ => rfl, nofun⟩
  · refine ⟨nofun, nofun, fun _ _ => ?_, nofun, fun _ => rfl, nofun⟩
    -- the algorithm of the frame is one of the first two
    change chosenAlgo sec (msg.mgmt.readLe16 24).toUInt32 = 1
    obtain ⟨small, same⟩ := not_or.mp refused
    rw [not_not] at same
    rw [← same] at isOpen ⊢
    rw [UInt32.lt_iff_toNat_lt] at small
    have some : (msg.mgmt.readLe16 24).toUInt32.toNat ≠ 0 :=
      fun zero => isOpen (UInt32.toNat_inj.mp zero)
    have one : AuthAlgrthm.shared.value.toNat = 1 := rfl
    apply UInt32.toNat_inj.mp
    change _ = 1
    omega

theorem recvSeq3_keyMove (isHead : head = some msg) :
    KeyMove sec w .seq3 head (recvSeq3 sec w msg a) := by
  unfold recvSeq3
  split_ifs with tag plain
  · exact keyMove_same rfl nofun (.inl rfl) rfl rfl
  · exact keyMove_same rfl nofun (.inl rfl) rfl rfl
  · split
    · exact keyMove_same rfl nofun (.inl rfl) rfl rfl
    · exact keyMove_same rfl nofun (.inl rfl) rfl rfl
    · rename_i mgmt decrypted
      split_ifs with transaction alg text
      · exact keyMove_same rfl nofun (.inl rfl) rfl rfl
      · exact keyMove_same rfl nofun (.inl rfl) rfl rfl
      · exact keyMove_same rfl nofun (.inl rfl) rfl rfl
      · have accepts : acceptsSeq3 sec w msg = true := by
          unfold acceptsSeq3
          simp_all
        exact ⟨nofun, nofun, nofun, fun _ => ⟨rfl, .inr ⟨rfl, msg, isHead, accepts⟩⟩,
          fun elsewhere => absurd rfl elsewhere, nofun⟩

theorem recvAgain_keyMove {seq : UInt16} (loops : pc = .noAuth ∨ pc = .seq4Done) :
    KeyMove sec w pc head (recvAgain w pc msg a seq) := by
  unfold recvAgain
  split_ifs
  · refine keyMove_same rfl nofun (.inl rfl) rfl rfl
  · refine ⟨fun _ => loops, fun here before => before here, fun here before => before here,
      fun here => ⟨rfl, .inl here⟩, fun _ => rfl, id⟩

theorem noMsg_keyMove : KeyMove sec w pc head (noMsg w pc a) := by
  unfold noMsg
  split_ifs
  · exact keyMove_same rfl nofun (.inl rfl) rfl rfl
  · exact keyMove_same rfl nofun (.inl rfl) rfl rfl

theorem wfAuthApThrd_keyMove (sec : AuthSec) (w : AuthWdn) (pc : AuthPc)
    (head : Option ApMsg) (a : AuthAnswers) :
    KeyMove sec w pc head (wfAuthApThrd sec w pc head a) := by
  unfold wfAuthApThrd
  cases head with
  | none => exact noMsg_keyMove
  | some msg =>
      cases pc with
      | seq1 => exact recvSeq1_keyMove
      | noAuth => exact recvAgain_keyMove (.inl rfl)
      | seq3 => exact recvSeq3_keyMove rfl
      | seq4Done => exact recvAgain_keyMove (.inr rfl)

end Steps

/-! ## Runs -/

/-- The messages hold their frames; the third one is decrypted where it is. -/
def QueFilled (s : AuthSystem) : Prop := s.pc ≠ .seq4Done → ∀ r ∈ s.que, Filled r

structure KeyOk (sec : AuthSec) (s : AuthSystem) : Prop where
  filled : QueFilled s
  fresh : ∀ r ∈ s.que, r.fresh = true → r.frame ∈ s.since
  noAuth : s.pc = .noAuth → s.wdn.authAlgo = 0
  seq3 : s.pc = .seq3 → s.wdn.authAlgo = 1
  key : s.pc = .seq4Done → ∃ frame ∈ s.since, ProvesKey sec.keys s.wdn.chlgTxt frame
  ended : s.ret = .ended → s.pc = .noAuth ∨ s.pc = .seq4Done

section Run

variable {sec : AuthSec} {s : AuthSystem} {a : AuthAnswers}

/-- What is in the queue behind a step was there before, with its frame. -/
theorem mem_queAfter {que : List Received} {out : AuthOut} {r : Received}
    (inside : r ∈ queAfter que out) :
    ∃ old ∈ que, old.frame = r.frame ∧ old.fresh = r.fresh ∧ (out.mgmt = none → old = r) := by
  unfold queAfter at inside
  split_ifs at inside
  · exact ⟨r, List.mem_of_mem_tail inside, rfl, rfl, fun _ => rfl⟩
  · split at inside
    · rename_i head rest mgmt changed
      rcases List.mem_cons.mp inside with first | later
      · exact ⟨head, List.mem_cons_self, by rw [first], by rw [first], by simp [changed]⟩
      · exact ⟨r, List.mem_cons_of_mem _ later, rfl, rfl, fun _ => rfl⟩
    · exact ⟨r, inside, rfl, rfl, fun _ => rfl⟩

theorem QueFilled.runThrd (filled : QueFilled s) : QueFilled (runThrd sec s a) := by
  have move : KeyMove sec s.wdn s.pc (s.que.head?.map Received.msg)
      (wfAuthApThrd sec s.wdn s.pc (s.que.head?.map Received.msg) a) :=
    wfAuthApThrd_keyMove ..
  intro elsewhere r inside
  obtain ⟨old, member, -, -, same⟩ := mem_queAfter inside
  rw [← same (move.mgmt elsewhere)]
  exact filled (fun before => elsewhere (move.stays before)) old member

theorem QueFilled.recvFrame (filled : QueFilled s) (tag : ApMsgTag) (frame : List UInt8)
    (stale : Mem) : QueFilled (recvFrame s tag frame stale) := by
  intro elsewhere r inside
  unfold Ap.recvFrame at elsewhere inside
  by_cases short : frame.length ≤ tag.sizeMax
  · rw [if_pos short] at elsewhere inside
    rcases List.mem_append.mp inside with old | new
    · exact filled elsewhere r old
    · rw [List.mem_singleton.mp new]
      exact ⟨short, stale, rfl⟩
  · rw [if_neg short] at elsewhere inside
    exact filled elsewhere r inside

theorem KeyOk.sound (ok : KeyOk sec s) : KeyProved sec s := by
  intro ended shared
  rcases ok.ended ended with isOpen | key
  · have none := ok.noAuth isOpen
    rw [shared] at none
    cases none
  · exact ok.key key

theorem KeyOk.runThrd (ok : KeyOk sec s) (waits : s.ret = .waiting)
    (whole : WholeFrame sec s (.thrd a)) : KeyOk sec (runThrd sec s a) := by
  have move : KeyMove sec s.wdn s.pc (s.que.head?.map Received.msg)
      (wfAuthApThrd sec s.wdn s.pc (s.que.head?.map Received.msg) a) :=
    wfAuthApThrd_keyMove ..
  have filled : QueFilled (Ap.runThrd sec s a) := ok.filled.runThrd
  unfold Ap.runThrd at filled ⊢
  dsimp only at filled ⊢
  generalize wfAuthApThrd sec s.wdn s.pc (s.que.head?.map Received.msg) a = out
    at move filled ⊢
  refine ⟨filled, fun r inside isFresh => ?_, fun here => ?_, fun here => ?_,
    fun here => ?_, move.ended⟩
  · obtain ⟨old, member, frame, fresh, -⟩ := mem_queAfter inside
    rw [← frame]
    exact ok.fresh old member (fresh.trans isFresh)
  · exact move.noAuth here ok.noAuth
  · exact move.seq3 here ok.seq3
  · obtain ⟨text, before | ⟨before, msg, isHead, accepts⟩⟩ := move.seq4 here
    · dsimp only
      rw [text]
      exact ok.key before
    · obtain ⟨r, head, same⟩ := Option.map_eq_some_iff.mp isHead
      subst same
      have member : r ∈ s.que := List.mem_of_head? head
      obtain ⟨long, fresh⟩ := whole waits before r head accepts
      have whole := ok.filled (by rw [before]; exact nofun) r member
      refine ⟨r.frame, ok.fresh r member fresh, ?_⟩
      dsimp only
      rw [text]
      exact provesKey_of_accepts whole long (ok.seq3 before) accepts

theorem KeyOk.recvFrame (ok : KeyOk sec s) (tag : ApMsgTag) (frame : List UInt8)
    (stale : Mem) : KeyOk sec (recvFrame s tag frame stale) := by
  have filled : QueFilled (Ap.recvFrame s tag frame stale) := ok.filled.recvFrame tag frame stale
  unfold Ap.recvFrame at filled ⊢
  split_ifs at filled ⊢ with short challenged
  · refine ⟨filled, fun r inside isFresh => ?_, ok.noAuth, ok.seq3, fun here => ?_, ok.ended⟩
    · rcases List.mem_append.mp inside with old | new
      · exact List.mem_append_left _ (ok.fresh r old isFresh)
      · rw [List.mem_singleton.mp new]
        exact List.mem_append_right _ (List.mem_singleton.mpr rfl)
    · obtain ⟨proof, member, proves⟩ := ok.key here
      exact ⟨proof, List.mem_append_left _ member, proves⟩
  · refine ⟨filled, fun r inside isFresh => ?_, ok.noAuth, ok.seq3, ok.key, ok.ended⟩
    · rcases List.mem_append.mp inside with old | new
      · exact ok.fresh r old isFresh
      · rw [List.mem_singleton.mp new] at isFresh
        exact absurd isFresh challenged
  · exact ok

theorem keyOk_start (sec : AuthSec) : KeyOk sec authStart where
  filled _ r inside := by cases inside
  fresh r inside := by cases inside
  noAuth here := by cases here
  seq3 here := by cases here
  key here := by cases here
  ended here := by cases here

end Run

/-- A frame without the challenge text proves nothing. -/
theorem ProvesKey.long {keys : SecInfo} {chlgTxt frame : List UInt8}
    (proves : ProvesKey keys chlgTxt frame) (whole : chlgTxt.length = 128) :
    seq3Size ≤ frame.length := by
  obtain ⟨-, body, opened, -, -, text⟩ := proves
  have size := congrArg List.length text
  rw [whole, wepBody_eq_some opened] at size
  simp only [List.length_take, List.length_drop, length_plainOf] at size
  unfold seq3Size
  omega

/-! ## A station with the key, and one without -/

def wepKey : WepKey := ⟨[1, 2, 3, 4, 5], Nat.le_of_ble_eq_true rfl⟩

def sharedKeySec : AuthSec :=
  ⟨.shared, .wep40, { noKeys with dot11DefKey := fun _ => wepKey }⟩

def authHeader (flags : UInt8) : List UInt8 := [0xB0, flags] ++ List.replicate 22 0

def seq1Frame : List UInt8 := authHeader 0 ++ le16 1 ++ le16 1 ++ le16 0

/-- A protected frame with this body. -/
def seq3Frame (body : List UInt8) : List UInt8 :=
  authHeader 0x40 ++ [0, 0, 0, 0] ++ sealBody ([0, 0, 0] ++ wepKey.skey) body

def authCall : AuthAnswers := ⟨false, true, fun _ => 0x01010101⟩

def sentChallenge : List UInt8 :=
  generateChallengeText (List.replicate 128 0) authCall.rand

@[simp] theorem length_seq3Frame (body : List UInt8) :
    (seq3Frame body).length = 32 + body.length := by
  simp [seq3Frame, authHeader]
  omega

theorem plainOf_seq3Frame (body : List UInt8) :
    plainOf sharedKeySec.keys (seq3Frame body) = body ++ le32 (getCrc32 body) :=
  arc4Encrypt_sealBody _ body

theorem wepBody_seq3Frame (body : List UInt8) :
    wepBody sharedKeySec.keys (seq3Frame body) = some body := by
  unfold wepBody
  simp [plainOf_seq3Frame]

/-- The frame is accepted if its body and what the message held behind it are right. -/
theorem accepts_seq3Frame {w : AuthWdn} {stale : Mem} (rest : List UInt8)
    (alg : w.authAlgo = 1) (short : rest.length ≤ 132)
    (text : ((stale.write 0 (seq3Frame (1 :: 0 :: 3 :: 0 :: rest))).write 28
      (1 :: 0 :: 3 :: 0 :: rest ++ le32 (getCrc32 (1 :: 0 :: 3 :: 0 :: rest)))).read 36 128 =
        w.chlgTxt) :
    acceptsSeq3 sharedKeySec w
      (fillMsg stale .authFrame (seq3Frame (1 :: 0 :: 3 :: 0 :: rest))) = true := by
  have long : 32 ≤ (seq3Frame (1 :: 0 :: 3 :: 0 :: rest)).length := by simp
  have below : (seq3Frame (1 :: 0 :: 3 :: 0 :: rest)).length < 65536 := by
    simp
    omega
  have flags : le16At (seq3Frame (1 :: 0 :: 3 :: 0 :: rest)) 0 = ofLe16 0xB0 0x40 := by
    simp [le16At, seq3Frame, authHeader]
  have protects : getHdrProtected
      (stale.write 0 (seq3Frame (1 :: 0 :: 3 :: 0 :: rest))) 0 = true := by
    rw [getHdrProtected_write (by omega), flags]
    decide
  unfold acceptsSeq3
  rw [decrypt_fillMsg long below, wepBody_seq3Frame, plainOf_seq3Frame]
  simp only [fillMsg, protects, Option.isSome_some, if_true, text, decide_true, Bool.and_true,
    Bool.true_and, Bool.and_eq_true, decide_eq_true_eq, alg]
  constructor
  · rw [show 30 = 28 + 2 from rfl, Mem.readLe16_write_getD (by simp)]
    simp only [le16At, List.cons_append, List.getD_cons_succ, List.getD_cons_zero]
    rfl
  · rw [show 28 = 28 + 0 from rfl, Mem.readLe16_write_getD (by simp)]
    simp only [le16At, List.cons_append, List.getD_cons_succ, List.getD_cons_zero]
    rfl

theorem recvSeq3_of_accepts {sec : AuthSec} {w : AuthWdn} {a : AuthAnswers} {msg : ApMsg}
    (accepts : acceptsSeq3 sec w msg = true) :
    ∃ mgmt, recvSeq3 sec w msg a = sendSuccess w .seq4Done a 4 false (some mgmt) := by
  unfold acceptsSeq3 at accepts
  simp only [Bool.and_eq_true, decide_eq_true_eq] at accepts
  obtain ⟨⟨tag, protects⟩, checks⟩ := accepts
  cases decrypted : wfWepDecryptAuth sec.keys msg with
  | runaway => simp [decrypted] at checks
  | mismatch mgmt => simp [decrypted] at checks
  | ok mgmt =>
      simp only [decrypted, Bool.and_eq_true, decide_eq_true_eq] at checks
      obtain ⟨⟨transaction, alg⟩, text⟩ := checks
      exact ⟨mgmt, by simp [recvSeq3, tag, protects, decrypted, transaction, alg, text]⟩

/-- A station has sent its first frame, and the challenge has been sent to it. -/
def challengeRun : List AuthEvent :=
  [AuthEvent.recv .authFrame seq1Frame fun _ => 0, AuthEvent.thrd authCall]

/-- The third frame, and an association request behind it. -/
def answerRun (frame : List UInt8) (stale : Mem) : List AuthEvent :=
  [AuthEvent.recv .authFrame frame stale, AuthEvent.thrd authCall, AuthEvent.thrd authCall,
    AuthEvent.recv .assocReqFrame (List.replicate 28 0) fun _ => 0, AuthEvent.thrd authCall]

def challengedSystem : AuthSystem :=
  (run (authStep sharedKeySec) authStart challengeRun).getD authStart

theorem run_challengeRun :
    run (authStep sharedKeySec) authStart challengeRun = some challengedSystem := rfl

theorem challengedSystem_facts :
    challengedSystem.ret = .waiting ∧ challengedSystem.pc = .seq3 ∧
      challengedSystem.que = [] ∧ challengedSystem.challenged = true ∧
      challengedSystem.since = [] ∧ challengedSystem.wdn.authAlgo = 1 ∧
      challengedSystem.wdn.chlgTxt = sentChallenge := by
  decide +kernel

section Answer

variable {sec : AuthSec} {s : AuthSystem} {frame : List UInt8} {stale : Mem}

@[simp] theorem fillMsg_tag (tag : ApMsgTag) : (fillMsg stale tag frame).tag = tag := rfl

/-- A third frame that passes the checks, whatever it is, ends the thread with success. -/
theorem run_answerRun (waits : s.ret = .waiting) (here : s.pc = .seq3) (empty : s.que = [])
    (challenged : s.challenged = true) (short : frame.length ≤ 180)
    (accepts : acceptsSeq3 sec s.wdn (fillMsg stale .authFrame frame) = true) :
    ∃ final, run (authStep sec) s (answerRun frame stale) = some final ∧
      final.ret = .ended ∧ final.wdn.authAlgo = s.wdn.authAlgo ∧
      final.wdn.chlgTxt = s.wdn.chlgTxt ∧
      final.since = s.since ++ [frame, List.replicate 28 0] := by
  obtain ⟨mgmt, third⟩ := recvSeq3_of_accepts (a := authCall) accepts
  simp [answerRun, authStep, recvFrame, ApMsgTag.sizeMax, short, empty, challenged, waits,
    runThrd, here, wfAuthApThrd, third, sendSuccess, queAfter, recvAgain, stay]

/-- If it is a whole one, every step of the run is allowed. -/
theorem wholeFrame_answerRun (waits : s.ret = .waiting) (here : s.pc = .seq3)
    (empty : s.que = []) (challenged : s.challenged = true) (short : frame.length ≤ 180)
    (long : seq3Size ≤ frame.length)
    (accepts : acceptsSeq3 sec s.wdn (fillMsg stale .authFrame frame) = true) :
    EachStep (authStep sec) (WholeFrame sec) s (answerRun frame stale) := by
  obtain ⟨mgmt, third⟩ := recvSeq3_of_accepts (a := authCall) accepts
  simp [answerRun, EachStep, WholeFrame, authStep, recvFrame, ApMsgTag.sizeMax, short, empty,
    challenged, waits, long, runThrd, here, wfAuthApThrd, third, sendSuccess, queAfter,
    recvAgain, stay]

end Answer

/-- A whole third frame with the challenge in it. -/
def wholeFrame : List UInt8 :=
  seq3Frame (1 :: 0 :: 3 :: 0 :: ([0, 0, 16, 128] ++ sentChallenge))

/-- One that ends behind the transaction number. -/
def shortFrame : List UInt8 := seq3Frame (1 :: 0 :: 3 :: 0 :: [])

/-- What an authentication frame left in the message that has the challenge where that of
the third frame is. -/
def plantedText : Mem :=
  Mem.write (fun _ => 0) 0 (authHeader 0 ++ List.replicate 12 0 ++ sentChallenge)

theorem length_sentChallenge : sentChallenge.length = 128 := by decide +kernel

theorem accepts_wholeFrame :
    acceptsSeq3 sharedKeySec challengedSystem.wdn
      (fillMsg (fun _ => 0) .authFrame wholeFrame) = true := by
  obtain ⟨-, -, -, -, -, alg, text⟩ := challengedSystem_facts
  refine accepts_seq3Frame _ alg (by simp [length_sentChallenge]) ?_
  rw [text, show 36 = 28 + 8 from rfl,
    Mem.read_write_inside _ (by simp [length_sentChallenge])]
  simp [List.take_left' length_sentChallenge]

theorem accepts_shortFrame :
    acceptsSeq3 sharedKeySec challengedSystem.wdn
      (fillMsg plantedText .authFrame shortFrame) = true := by
  obtain ⟨-, -, -, -, -, alg, text⟩ := challengedSystem_facts
  refine accepts_seq3Frame _ alg (by simp) ?_
  rw [text, Mem.read_write_apart _ (by simp),
    Mem.read_write_apart _ (by simp), plantedText,
    show 36 = 0 + 36 from rfl,
    Mem.read_write_inside _ (by simp [length_sentChallenge, authHeader])]
  simp [authHeader, List.take_of_length_le (le_of_eq length_sentChallenge)]

/-! ## Every run -/

/-- In every run in which the thread accepts only whole frames that came behind the
challenge. -/
theorem shared_key_proved (sec : AuthSec) (events : List AuthEvent)
    (steps : EachStep (authStep sec) (WholeFrame sec) authStart events) :
    Throughout (authStep sec) (KeyProved sec) authStart events := by
  refine steps.throughout (KeyOk sec) (fun s ok => ok.sound) ?_ (keyOk_start sec)
  intro s event ok whole
  cases event with
  | thrd a =>
      refine ⟨_, rfl, ?_⟩
      split_ifs with waits
      · exact ok.runThrd waits whole
      · exact ok
  | recv tag frame stale => exact ⟨_, rfl, ok.recvFrame tag frame stale⟩

theorem shared_key_proved_whole :
    EachStep (authStep sharedKeySec) (WholeFrame sharedKeySec) authStart
        (challengeRun ++ answerRun wholeFrame fun _ => 0) ∧
      Throughout (authStep sharedKeySec) (KeyProved sharedKeySec) authStart
        (challengeRun ++ answerRun wholeFrame fun _ => 0) := by
  obtain ⟨waits, here, empty, challenged, -⟩ := challengedSystem_facts
  have size : wholeFrame.length = seq3Size := by
    simp [wholeFrame, length_sentChallenge, seq3Size]
  have first : EachStep (authStep sharedKeySec) (WholeFrame sharedKeySec) authStart
      challengeRun := by
    simp [challengeRun, EachStep, WholeFrame, authStep, authStart, recvFrame, seq1Frame,
      authHeader, ApMsgTag.sizeMax]
  have second := wholeFrame_answerRun waits here empty challenged
    (by simp [size, seq3Size]) size.ge accepts_wholeFrame
  have whole := first.append run_challengeRun second
  exact ⟨whole, shared_key_proved _ _ whole⟩

/-- The short frame ends the thread with success too. -/
theorem shared_key_not_proved :
    ¬ Throughout (authStep sharedKeySec) (KeyProved sharedKeySec) authStart
      (challengeRun ++ answerRun shortFrame plantedText) := by
  intro proved
  obtain ⟨waits, here, empty, challenged, since, alg, text⟩ := challengedSystem_facts
  have size : shortFrame.length = 36 := by simp [shortFrame]
  obtain ⟨final, reached, ended, sameAlg, sameText, frames⟩ :=
    run_answerRun waits here empty challenged (by simp [size]) accepts_shortFrame
  obtain ⟨last, ran, good⟩ := proved.final
  rw [run_append, run_challengeRun, Option.bind_some, reached, Option.some.injEq] at ran
  subst ran
  obtain ⟨frame, member, proves⟩ := good ended (sameAlg.trans alg)
  have long := proves.long (by rw [sameText, text, length_sentChallenge])
  rw [frames, since] at member
  have short : frame.length ≤ 36 := by
    simp only [List.nil_append, List.mem_cons, List.not_mem_nil, or_false] at member
    rcases member with rfl | rfl
    · exact size.le
    · simp
  unfold seq3Size at long
  omega

end Smartchip.Ap
