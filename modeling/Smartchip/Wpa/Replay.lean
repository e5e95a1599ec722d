import Smartchip.Wpa.KeyLog

/-!
# Frames that are sent again, and frames that are made up

What the supplicant does with a message 3 that it has already answered, and with a code of a
version that it does not know.
-/

namespace Smartchip.Wpa

variable (cfg : Config) (crypto : Crypto)

/-- The pairwise keys given to the driver, each with its answer, the newest first. -/
def pairwiseKeys : List Event → List (KeySet × Bool)
  | [] => []
  | .adopted _ _ :: older => pairwiseKeys older
  | .pairwise _ key done :: older => (key, done) :: pairwiseKeys older
  | .group _ _ _ :: older => pairwiseKeys older

/-- The key that is left of a temporal key once the driver has it. -/
def zeroKey (frame : KeyFrame) : KeySet where
  alg := wpaCipherToAlg cfg.pairwiseCipher
  addr := .bssid
  keyIdx := 0
  setTx := true
  seq := (if cfg.rsnProto then nullRsc else frame.keyRsc).take (wpaCipherRscLen cfg.pairwiseCipher)
  key := List.replicate (wpaCipherKeyLen cfg.pairwiseCipher) 0

/-- The key data in the clear. -/
def clearKeyData (sm : WpaSm) (frame : KeyFrame) : Option (List UInt8) :=
  if cfg.rsnEnable = true ∧ frame.encrKeyData = true then decryptKeyData cfg crypto sm frame
  else some frame.keyData

variable {cfg crypto}

theorem wpaCipherKeyLen_le (cipher : Cipher) : wpaCipherKeyLen cipher ≤ 32 := by
  cases cipher <;> simp [wpaCipherKeyLen]

theorem processChecked_eq (sm : WpaSm) (d : Delivery) :
    processChecked cfg crypto sm d =
      match clearKeyData cfg crypto sm d.frame with
      | none => sm
      | some keyData => processMessage cfg crypto sm d keyData := by
  unfold processChecked clearKeyData
  split_ifs <;> rfl

/-! ## What the group keys leave alone -/

structure Held (before after : WpaSm) : Prop where
  ptk : after.ptk = before.ptk
  tptk : after.tptk = before.tptk
  ptkSet : after.ptkSet = before.ptkSet
  tptkSet : after.tptkSet = before.tptkSet
  anonce : after.anonce = before.anonce
  keys : pairwiseKeys after.log = pairwiseKeys before.log

theorem Held.refl (sm : WpaSm) : Held sm sm := ⟨rfl, rfl, rfl, rfl, rfl, rfl⟩

theorem Held.trans {first second third : WpaSm} (left : Held first second)
    (right : Held second third) : Held first third where
  ptk := right.ptk.trans left.ptk
  tptk := right.tptk.trans left.tptk
  ptkSet := right.ptkSet.trans left.ptkSet
  tptkSet := right.tptkSet.trans left.tptkSet
  anonce := right.anonce.trans left.anonce
  keys := right.keys.trans left.keys

section Steps

variable {sm : WpaSm} {d : Delivery}

theorem installGtk_held (gd : GtkData) (keyRsc : List UInt8) :
    Held sm (installGtk cfg sm d gd keyRsc).1 :=
  ⟨rfl, rfl, rfl, rfl, rfl, rfl⟩

theorem pairwiseGtk_held (gtk : List UInt8) : Held sm (pairwiseGtk cfg sm d gtk).1 := by
  unfold pairwiseGtk
  dsimp only
  split
  · exact .refl sm
  · split
    · exact installGtk_held _ _
    · exact (installGtk_held _ _).trans (installGtk_held _ _)

theorem groupPart_held (gtk : Option (List UInt8)) : Held sm (groupPart cfg sm d gtk).1 := by
  unfold groupPart
  split
  · exact .refl sm
  · cases gtk with
    | none => exact .refl sm
    | some gtk => exact pairwiseGtk_held gtk

theorem process1Of2_held (keyData : List UInt8) :
    Held sm (process1Of2 cfg crypto sm d keyData) := by
  unfold process1Of2
  dsimp only
  split
  · exact .refl sm
  · have ciphered : Held sm
        (if cfg.rsnProto then sm else { sm with groupCipher := wpaGroupCipher sm d.frame }) := by
      split
      · exact .refl sm
      · exact ⟨rfl, rfl, rfl, rfl, rfl, rfl⟩
    split
    · exact ciphered
    · exact ciphered.trans (installGtk_held _ _)

theorem process1Of4_keys (keyData : List UInt8) :
    pairwiseKeys (process1Of4 cfg crypto sm d keyData).log = pairwiseKeys sm.log := by
  have renewed : (renew sm d).1.log = sm.log := by
    unfold renew
    split_ifs <;> rfl
  unfold process1Of4
  dsimp only
  split
  · rfl
  · split
    · rw [renewed]
    · split
      · rw [renewed]
      · rw [renewed]

/-! ## A message 3 that is taken -/

/-- A pairwise key message with a code. -/
structure IsMessage3 (frame : KeyFrame) : Prop where
  type : ¬(frame.type ≠ eapolKeyTypeWpa ∧ frame.type ≠ eapolKeyTypeRsn)
  pairwise : frame.pairwise = true
  keyIndex : frame.keyIndex = 0
  mic : frame.mic = true

/-- What is looked at before the keys of a message 3 are installed. -/
structure Installs (cfg : Config) (sm : WpaSm) (frame : KeyFrame) (keyData : List UInt8) :
    Prop where
  parsed : ∃ ie, parseIes keyData .zero = some ie ∧
    ¬(ie.gtk.isSome = true ∧ frame.encrKeyData = false) ∧ validateIe cfg ie = true
  nonce : sm.anonce = frame.keyNonce
  length : frame.keyLength.toNat = wpaCipherKeyLen cfg.pairwiseCipher
  known : frame.ver = 1 ∨ frame.ver = 2
  install : frame.install = true
  cipher : wpaCipherValidPairwise cfg.pairwiseCipher = true

theorem installKeys_keys {gtk : Option (List UInt8)}
    (given : pairwiseKeys (installKeys cfg sm d gtk).log ≠ pairwiseKeys sm.log) :
    d.frame.install = true ∧ wpaCipherValidPairwise cfg.pairwiseCipher = true := by
  have kept : pairwiseKeys (installKeys cfg sm d gtk).log =
      pairwiseKeys (pairwisePart cfg sm d).1.log := by
    unfold installKeys
    dsimp only
    split
    · rfl
    · split
      · exact (groupPart_held gtk).keys
      · exact (groupPart_held gtk).keys
  rw [kept] at given
  unfold pairwisePart at given
  split at given
  · rename_i install
    refine ⟨install, ?_⟩
    by_contra invalid
    have nothing : (installPtk cfg sm d).1 = sm := by
      unfold installPtk
      split_ifs with unused unsupported
      · rfl
      · rfl
      · exact absurd (by simpa using invalid) unsupported
    exact given (by rw [nothing])
  · exact absurd rfl given

theorem process3Of4_keys {keyData : List UInt8}
    (given : pairwiseKeys (process3Of4 cfg crypto sm d keyData).log ≠ pairwiseKeys sm.log) :
    Installs cfg sm d.frame keyData ∧ d.sends = true := by
  unfold process3Of4 at given
  split at given
  · exact absurd rfl given
  rename_i ie parsed
  split at given
  · exact absurd rfl given
  rename_i clear
  split at given
  · exact absurd rfl given
  rename_i valid
  split at given
  · exact absurd rfl given
  rename_i nonce
  split at given
  · exact absurd rfl given
  rename_i length
  split at given
  · exact absurd rfl given
  rename_i sent
  have replied : replySent crypto d sm.ptk.kck = true := by simpa using sent
  obtain ⟨install, cipher⟩ := installKeys_keys given
  refine ⟨⟨⟨ie, parsed, clear, by simpa using valid⟩, by simpa using nonce, by simpa using length,
    known_of_sent replied, install, cipher⟩, ?_⟩
  simp only [replySent, Bool.and_eq_true] at replied
  exact replied.1

/-- Conversely such a message 3 installs the pairwise key, and the group keys change nothing of
what the next message 3 is checked against. -/
theorem Installs.held {keyData : List UInt8} (installs : Installs cfg sm d.frame keyData)
    (sends : d.sends = true) :
    Held (installPtk cfg { sm with renewSnonce := true } d).1
      (process3Of4 cfg crypto sm d keyData) := by
  obtain ⟨ie, parsed, clear, valid⟩ := installs.parsed
  have sent : replySent crypto d sm.ptk.kck = true := by
    obtain first | second := installs.known
    · simp [replySent, eapolKeyMic, sends, first]
    · simp [replySent, eapolKeyMic, sends, second]
  have eq : process3Of4 cfg crypto sm d keyData =
      installKeys cfg { sm with renewSnonce := true } d ie.gtk := by
    simp only [process3Of4, parsed, clear, valid, installs.nonce, installs.length, sent]
    simp
  rw [eq]
  unfold installKeys pairwisePart
  simp only [installs.install, if_true]
  split
  · exact .refl _
  · split
    · exact groupPart_held _
    · have grouped : Held (installPtk cfg { sm with renewSnonce := true } d).1
          (groupPart cfg (installPtk cfg { sm with renewSnonce := true } d).1 d ie.gtk).1 :=
        groupPart_held ie.gtk
      exact ⟨grouped.ptk, grouped.tptk, grouped.ptkSet, grouped.tptkSet, grouped.anonce,
        grouped.keys⟩

/-- The key and the answer are logged, and the key is wiped where the driver takes it. -/
theorem installPtk_given (cipher : wpaCipherValidPairwise cfg.pairwiseCipher = true) :
    (installPtk cfg sm d).1 =
      { sm with
        ptk := { sm.ptk with
          tk := if d.setKey (pairwiseKey cfg sm d.frame) then List.replicate 32 0 else sm.ptk.tk }
        log := .pairwise d.frame (pairwiseKey cfg sm d.frame)
          (d.setKey (pairwiseKey cfg sm d.frame)) :: sm.log } := by
  have used : cfg.pairwiseCipher ≠ .none := by
    intro unused
    simp [unused, wpaCipherValidPairwise] at cipher
  unfold installPtk
  simp only [used, cipher, if_false, Bool.true_eq_false]
  split
  · rename_i taken
    simp [taken]
  · rename_i refused
    simp [refused]

/-! ## The same frame again -/

/-- The supplicant would take the frame as a message 3, and its temporal key is gone. -/
structure Replayable (cfg : Config) (crypto : Crypto) (frame : KeyFrame) (keyData : List UInt8)
    (sm : WpaSm) : Prop where
  message : IsMessage3 frame
  other : ¬(sm.tptkSet = true ∧ frame.keyMic = micField cfg crypto sm.tptk.kck frame)
  accepted : Accepted cfg crypto sm frame
  opened : clearKeyData cfg crypto sm frame = some keyData
  installs : Installs cfg sm frame keyData
  wiped : sm.ptk.tk = List.replicate 32 0

theorem verify_other {frame : KeyFrame} {after : WpaSm}
    (verified : verifyEapolKeyMic cfg crypto sm frame = some after) :
    ¬(after.tptkSet = true ∧ frame.keyMic = micField cfg crypto after.tptk.kck frame) ∧
      Accepted cfg crypto after frame := by
  unfold verifyEapolKeyMic at verified
  split_ifs at verified with temporary current
  · cases verified
    exact ⟨by simp [adopt], rfl, temporary.2⟩
  · cases verified
    exact ⟨temporary, current.1, current.2⟩

theorem verify_keys {frame : KeyFrame} {after : WpaSm}
    (verified : verifyEapolKeyMic cfg crypto sm frame = some after) :
    pairwiseKeys after.log = pairwiseKeys sm.log := by
  unfold verifyEapolKeyMic at verified
  split_ifs at verified
  · cases verified
    rfl
  · cases verified
    rfl

theorem Replayable.verified {frame : KeyFrame} {keyData : List UInt8}
    (ready : Replayable cfg crypto frame keyData sm) :
    verifyEapolKeyMic cfg crypto sm frame = some sm := by
  unfold verifyEapolKeyMic
  rw [if_neg ready.other, if_pos ⟨ready.accepted.set, ready.accepted.mic⟩]

theorem rxEapol_message3 {frame : KeyFrame} {keyData : List UInt8} {after : WpaSm}
    (message : IsMessage3 frame) (same : d.frame = frame)
    (verified : verifyEapolKeyMic cfg crypto sm frame = some after)
    (opened : clearKeyData cfg crypto after frame = some keyData) :
    rxEapol cfg crypto sm d = process3Of4 cfg crypto after d keyData := by
  subst same
  simp only [rxEapol, message.type, message.mic, verified, processChecked_eq, opened,
    processMessage, message.pairwise, message.keyIndex, if_true, if_false]
  simp

/-- After a message 3 that is taken and whose key the driver takes, the frame can come again. -/
theorem replayable_after {keyData : List UInt8} {frame : KeyFrame} {before after : WpaSm}
    (message : IsMessage3 frame)
    (other : ¬(before.tptkSet = true ∧ frame.keyMic = micField cfg crypto before.tptk.kck frame))
    (accepted : Accepted cfg crypto before frame)
    (opened : clearKeyData cfg crypto before frame = some keyData)
    (installs : Installs cfg before frame keyData)
    (ptk : after.ptk = { before.ptk with tk := List.replicate 32 0 })
    (tptk : after.tptk = before.tptk) (ptkSet : after.ptkSet = before.ptkSet)
    (tptkSet : after.tptkSet = before.tptkSet) (anonce : after.anonce = before.anonce) :
    Replayable cfg crypto frame keyData after where
  message
  other := by rw [tptk, tptkSet]; exact other
  accepted := ⟨by rw [ptkSet]; exact accepted.set, by rw [ptk]; exact accepted.mic⟩
  opened := by
    rw [← opened]
    simp only [clearKeyData, decryptKeyData, ptk, ptkSet]
  installs := ⟨installs.parsed, by rw [anonce]; exact installs.nonce, installs.length,
    installs.known, installs.install, installs.cipher⟩
  wiped := by rw [ptk]

theorem pairwiseKey_wiped {frame : KeyFrame} (wiped : sm.ptk.tk = List.replicate 32 0) :
    pairwiseKey cfg sm frame = zeroKey cfg frame := by
  have enough := wpaCipherKeyLen_le cfg.pairwiseCipher
  simp only [pairwiseKey, zeroKey, wiped, List.take_replicate, Nat.min_eq_left enough]

theorem Replayable.step {frame : KeyFrame} {keyData : List UInt8}
    (ready : Replayable cfg crypto frame keyData sm) (same : d.frame = frame)
    (sends : d.sends = true) :
    Replayable cfg crypto frame keyData (rxEapol cfg crypto sm d) ∧
      pairwiseKeys (rxEapol cfg crypto sm d).log =
        (zeroKey cfg frame, d.setKey (zeroKey cfg frame)) :: pairwiseKeys sm.log := by
  subst same
  rw [rxEapol_message3 ready.message rfl ready.verified ready.opened]
  have held : Held (installPtk cfg { sm with renewSnonce := true } d).1
      (process3Of4 cfg crypto sm d keyData) := ready.installs.held sends
  have wiped : pairwiseKey cfg { sm with renewSnonce := true } d.frame = zeroKey cfg d.frame :=
    pairwiseKey_wiped ready.wiped
  rw [installPtk_given ready.installs.cipher, wiped] at held
  refine ⟨replayable_after ready.message ready.other ready.accepted ready.opened ready.installs
    (held.ptk.trans ?_) held.tptk held.ptkSet held.tptkSet held.anonce, held.keys⟩
  simp [ready.wiped]

theorem processMessage_taken {keyData : List UInt8}
    (given : pairwiseKeys (processMessage cfg crypto sm d keyData).log ≠ pairwiseKeys sm.log) :
    (d.frame.pairwise = true ∧ d.frame.keyIndex = 0 ∧ d.frame.mic = true) ∧
      processMessage cfg crypto sm d keyData = process3Of4 cfg crypto sm d keyData := by
  unfold processMessage at given ⊢
  split at given
  · rename_i pairwise
    split at given
    · exact absurd rfl given
    · rename_i index
      split at given
      · rename_i mic
        have zero : d.frame.keyIndex = 0 := by simpa using index
        simp [pairwise, zero, mic]
      · exact absurd (process1Of4_keys keyData) given
  · split at given
    · exact absurd (process1Of2_held keyData).keys given
    · exact absurd rfl given

theorem rxEapol_replayable {key : KeySet}
    (installed : pairwiseKeys (rxEapol cfg crypto sm d).log = (key, true) :: pairwiseKeys sm.log) :
    ∃ keyData, Replayable cfg crypto d.frame keyData (rxEapol cfg crypto sm d) := by
  have given : pairwiseKeys (rxEapol cfg crypto sm d).log ≠ pairwiseKeys sm.log := by
    rw [installed]
    exact List.cons_ne_self _ _
  by_cases type : d.frame.type ≠ eapolKeyTypeWpa ∧ d.frame.type ≠ eapolKeyTypeRsn
  · rw [rxEapol, if_pos type] at given
    exact absurd rfl given
  cases mic : d.frame.mic with
  | false =>
      simp only [rxEapol, type, mic, processChecked_eq, if_false] at given
      cases opened : clearKeyData cfg crypto sm d.frame with
      | none => simp [opened] at given
      | some keyData =>
          simp only [opened] at given
          have taken := (processMessage_taken (by simpa using given)).1.2.2
          simp [mic] at taken
  | true =>
      cases verified : verifyEapolKeyMic cfg crypto sm d.frame with
      | none => simp [rxEapol, mic, verified] at given
      | some before =>
          cases opened : clearKeyData cfg crypto before d.frame with
          | none =>
              simp [rxEapol, type, mic, verified, processChecked_eq, opened,
                verify_keys verified] at given
          | some keyData =>
              have eq : rxEapol cfg crypto sm d = processMessage cfg crypto before d keyData := by
                simp only [rxEapol, mic, verified, processChecked_eq, opened, if_true]
                rw [if_neg type]
              rw [eq, ← verify_keys verified] at given
              obtain ⟨shape, as_3⟩ := processMessage_taken given
              rw [as_3] at given eq
              obtain ⟨installs, sends⟩ := process3Of4_keys given
              obtain ⟨other, accepted⟩ := verify_other verified
              have held : Held (installPtk cfg { before with renewSnonce := true } d).1
                  (process3Of4 cfg crypto before d keyData) := installs.held sends
              rw [installPtk_given installs.cipher, ← eq] at held
              have logged := held.keys
              rw [installed, pairwiseKeys, verify_keys verified, List.cons.injEq,
                Prod.mk.injEq] at logged
              rw [← logged.1.2] at held
              exact ⟨keyData, replayable_after ⟨type, shape.1, shape.2.1, mic⟩ other accepted opened
                installs held.ptk held.tptk held.ptkSet held.tptkSet held.anonce⟩

/-! ## A code of an unknown version -/

theorem parseIes_nil (ie : EapolIes) : parseIes [] ie = some ie := by
  rw [parseIes]
  simp

/-- A version for which no code is computed: the field is compared with zeros. -/
theorem micField_unknown {frame : KeyFrame} (first : frame.ver ≠ 1) (second : frame.ver ≠ 2)
    (kck : List UInt8) : micField cfg crypto kck frame = List.replicate cfg.micLen 0 := by
  simp [micField, eapolKeyMic, first, second]

theorem process3Of4_unknown (first : d.frame.ver ≠ 1) (second : d.frame.ver ≠ 2)
    (keyData : List UInt8) : process3Of4 cfg crypto sm d keyData = sm := by
  have sent : replySent crypto d sm.ptk.kck = false := by
    simp [replySent, eapolKeyMic, first, second]
  unfold process3Of4
  split
  · rfl
  · simp [sent]

theorem processChecked_unknown (first : d.frame.ver ≠ 1) (second : d.frame.ver ≠ 2)
    (mic : d.frame.mic = true) : Held sm (processChecked cfg crypto sm d) := by
  rw [processChecked_eq]
  split
  · exact .refl sm
  · simp only [processMessage, mic, if_true]
    split
    · split
      · exact .refl sm
      · rw [process3Of4_unknown first second]
        exact .refl sm
    · exact process1Of2_held _

/-- A message 1 without key data sets the temporary key, whether its reply is sent or not. -/
theorem process1Of4_nil (drawn : d.random.1 = true) :
    (process1Of4 cfg crypto sm d []).tptkSet = true ∧
      (process1Of4 cfg crypto sm d []).tptk =
        derivePtk cfg crypto d.src (renew sm d).1.snonce d.frame.keyNonce := by
  have renewed : (renew sm d).2 = true := by
    unfold renew
    split_ifs
    · rfl
    · rfl
  unfold process1Of4
  simp only [parseIes_nil, reduceCtorEq, and_false, if_false, renewed, Bool.true_eq_false]
  split
  · exact ⟨rfl, rfl⟩
  · exact ⟨rfl, rfl⟩

theorem Replayable.run {frame : KeyFrame} {keyData : List UInt8} (replays : List Delivery)
    (ready : Replayable cfg crypto frame keyData sm)
    (same : ∀ replay ∈ replays, replay.frame = frame ∧ replay.sends = true) :
    pairwiseKeys (receive cfg crypto sm replays).log =
      (replays.map fun replay => (zeroKey cfg frame, replay.setKey (zeroKey cfg frame))).reverse ++
        pairwiseKeys sm.log := by
  induction replays generalizing sm with
  | nil => rfl
  | cons replay replays ih =>
      obtain ⟨frame_eq, sends⟩ := same replay List.mem_cons_self
      obtain ⟨after, keys⟩ := ready.step frame_eq sends
      have rest := ih after fun later member => same later (List.mem_cons_of_mem _ member)
      have first : receive cfg crypto sm (replay :: replays) =
          receive cfg crypto (rxEapol cfg crypto sm replay) replays := rfl
      rw [first, rest, keys]
      simp

end Steps

/-- A message 3 that has made the driver take a pairwise key, and that comes again any number of
times with nothing else in between, offers it a key of zeros each time that message 4 can be sent
in reply. -/
theorem replayed_message_3 (cfg : Config) (crypto : Crypto) (sm : WpaSm) (d : Delivery)
    (replays : List Delivery) (key : KeySet)
    (installed : pairwiseKeys (rxEapol cfg crypto sm d).log = (key, true) :: pairwiseKeys sm.log)
    (same : ∀ replay ∈ replays, replay.frame = d.frame ∧ replay.sends = true) :
    pairwiseKeys (receive cfg crypto sm (d :: replays)).log =
      (replays.map fun replay =>
        (zeroKey cfg d.frame, replay.setKey (zeroKey cfg d.frame))).reverse ++
        (key, true) :: pairwiseKeys sm.log := by
  obtain ⟨keyData, ready⟩ := rxEapol_replayable installed
  have run := ready.run replays same
  rw [installed] at run
  exact run

/-! A station that is associated, and the frames of one handshake. -/

def rsnStation : Config where
  rsnProto := true
  wpaProto := false
  rsnEnable := true
  decrypts := fun _ => rfl
  pairwiseCipher := .ccmp
  micLen := 16
  alwaysWraps := false
  apWpaIe := false
  apRsnIe := true
  rsnEnabled := true

/-- Keys that can be told apart, and a code that is the key itself. -/
def plainCrypto : Crypto where
  pmkToPtk := fun _ snonce anonce =>
    ⟨List.replicate 16 1, List.replicate 16 2, snonce.take 16 ++ anonce.take 16⟩
  hmacMd5 := fun kck _ => kck
  hmacSha1 := fun kck _ => kck ++ List.replicate 4 0
  rc4Skip := fun _ data => some data
  aesUnwrap := fun _ _ cipher => some (cipher.drop 8)

def keyFrame (keyInfo : BitVec 16) (keyMic keyData : List UInt8) : KeyFrame where
  type := eapolKeyTypeRsn
  keyInfo
  keyLength := 16
  keyNonce := List.replicate 32 7
  keyIv := List.replicate 16 0
  keyRsc := List.replicate 8 0
  keyMic
  keyData

def delivered (frame : KeyFrame) : Delivery where
  src := [2, 0, 0, 0, 0, 1]
  frame
  random := (true, List.replicate 32 5)
  sends := true
  setKey := fun _ => true

def message1 : Delivery := delivered (keyFrame 0x008a (List.replicate 16 0) [])

def message3 : Delivery := delivered (keyFrame 0x01ca (List.replicate 16 1) [48, 2, 1, 0])

/-- A message 1 with another nonce. -/
def forgedMessage1 : Delivery :=
  delivered { message1.frame with keyNonce := List.replicate 32 9 }

/-- A code of zeros under version 0. -/
def forged : Delivery := delivered (keyFrame 0x0108 (List.replicate 16 0) [])

/-- The first message 3 gives the key, and the second one the zeros. -/
theorem replayed_message_3_once :
    pairwiseKeys (receive rsnStation plainCrypto
      (rxEapol rsnStation plainCrypto (wpaSmInit .ccmp) message1) [message3, message3]).log =
      [({ zeroKey rsnStation message3.frame with key := List.replicate 16 0 }, true),
        ({ zeroKey rsnStation message3.frame with key := List.replicate 16 5 }, true)] :=
  (replayed_message_3 rsnStation plainCrypto
    (rxEapol rsnStation plainCrypto (wpaSmInit .ccmp) message1) message3 [message3]
    { zeroKey rsnStation message3.frame with key := List.replicate 16 5 } (by decide +kernel)
    (by simp [message3, delivered])).trans (by decide +kernel)

/-- Two frames that can be made up without any key, whatever the state and whatever the keys: a
message 1, and after it any frame with a code of zeros and an unknown version.  They replace the
pairwise key, and from then on a frame whose code is not that of the new key changes nothing. -/
theorem forged_frames_replace_ptk (cfg : Config) (crypto : Crypto) (sm : WpaSm)
    (first second : Delivery)
    (type : first.frame.type = eapolKeyTypeRsn ∧ second.frame.type = eapolKeyTypeRsn)
    (message : IsMessage1 first.frame) (index : first.frame.keyIndex = 0)
    (clear : first.frame.encrKeyData = false) (empty : first.frame.keyData = [])
    (drawn : first.random.1 = true) (mic : second.frame.mic = true)
    (zeros : second.frame.keyMic = List.replicate cfg.micLen 0)
    (unknown : second.frame.ver ≠ 1 ∧ second.frame.ver ≠ 2) :
    let ptk := derivePtk cfg crypto first.src (renew sm first).1.snonce first.frame.keyNonce
    let after := receive cfg crypto sm [first, second]
    (after.ptkSet = true ∧ after.ptk = ptk) ∧
      ∀ d : Delivery, d.frame.mic = true → d.frame.keyMic ≠ micField cfg crypto ptk.kck d.frame →
        rxEapol cfg crypto after d = after := by
  intro ptk after
  obtain ⟨tptkSet, tptk⟩ : (process1Of4 cfg crypto sm first []).tptkSet = true ∧
      (process1Of4 cfg crypto sm first []).tptk = ptk := process1Of4_nil drawn
  have one : rxEapol cfg crypto sm first = process1Of4 cfg crypto sm first [] := by
    simp [rxEapol, type.1, message.2, processChecked, clear, empty, processMessage, message.1,
      index]
  set middle := process1Of4 cfg crypto sm first []
  have adopts : verifyEapolKeyMic cfg crypto middle second.frame =
      some (adopt middle second.frame) := by
    unfold verifyEapolKeyMic
    rw [if_pos ⟨tptkSet, zeros.trans (micField_unknown unknown.1 unknown.2 _).symm⟩]
  have two : after = processChecked cfg crypto (adopt middle second.frame) second := by
    show rxEapol cfg crypto (rxEapol cfg crypto sm first) second = _
    rw [one]
    simp [rxEapol, type.2, mic, adopts]
  have held : Held (adopt middle second.frame)
      (processChecked cfg crypto (adopt middle second.frame) second) :=
    processChecked_unknown unknown.1 unknown.2 mic
  rw [← two] at held
  have current : after.ptk = ptk := held.ptk.trans tptk
  refine ⟨⟨held.ptkSet, current⟩, fun d coded foreign => ?_⟩
  have dropped : verifyEapolKeyMic cfg crypto after d.frame = none := by
    unfold verifyEapolKeyMic
    simp [held.tptkSet, adopt, current, foreign]
  simp [rxEapol, coded, dropped]

/-- The station has its key from the handshake, and loses it to the two frames. -/
theorem forged_frames_replace_ptk_after_handshake :
    (receive rsnStation plainCrypto (receive rsnStation plainCrypto (wpaSmInit .ccmp)
      [message1, message3]) [forgedMessage1, forged]).ptk =
        plainCrypto.pmkToPtk message1.src (List.replicate 32 5) (List.replicate 32 9) :=
  (forged_frames_replace_ptk rsnStation plainCrypto
    (receive rsnStation plainCrypto (wpaSmInit .ccmp) [message1, message3]) forgedMessage1 forged
    ⟨rfl, rfl⟩ ⟨rfl, rfl⟩ rfl rfl rfl rfl rfl rfl (by decide)).1.2.trans (by decide +kernel)

end Smartchip.Wpa
