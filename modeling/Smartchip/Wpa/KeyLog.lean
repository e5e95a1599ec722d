import Smartchip.Foundation.Run
import Smartchip.Wpa.Supplicant

/-!
# The keys that the supplicant gives to the driver

Over any frames in any order: where each key comes from and what vouches for it.
-/

namespace Smartchip.Wpa

open Smartchip.Foundation

variable (cfg : Config) (crypto : Crypto)

/-- Frames one after the other. -/
def receive (sm : WpaSm) (deliveries : List Delivery) : WpaSm :=
  deliveries.foldl (rxEapol cfg crypto) sm

/-! ## What a log should be -/

/-- A pairwise key message without a code. -/
def IsMessage1 (frame : KeyFrame) : Prop := frame.pairwise = true ∧ frame.mic = false

/-- The key comes from a nonce that was drawn and one that was received in a message 1. -/
def Derived (deliveries : List Delivery) (ptk : WpaPtk) : Prop :=
  ∃ drawn ∈ deliveries, ∃ first ∈ deliveries, IsMessage1 first.frame ∧
    ptk = derivePtk cfg crypto first.src drawn.random.2 first.frame.keyNonce

/-- The code in the frame is that of the key. -/
def Vouched (ptk : WpaPtk) (frame : KeyFrame) : Prop :=
  (eapolKeyMic crypto frame.ver ptk.kck (cleared cfg frame)).isSome = true ∧
    frame.keyMic = micField cfg crypto ptk.kck frame

/-- The key data opens under the key. -/
def Opens (ptk : WpaPtk) (frame : KeyFrame) : Prop :=
  (crypto.aesUnwrap ptk.kek ((frame.keyData.length - 8) / 8) frame.keyData).isSome = true

def lastAdopted : List Event → Option WpaPtk
  | [] => none
  | .adopted ptk _ :: _ => some ptk
  | .pairwise _ _ _ :: older => lastAdopted older
  | .group _ _ _ :: older => lastAdopted older

/-- The temporal key that is still there: it is wiped when the driver has taken it. -/
def currentTk : List Event → List UInt8
  | [] => []
  | .adopted ptk _ :: _ => ptk.tk
  | .pairwise _ _ true :: _ => List.replicate 32 0
  | .pairwise _ _ false :: older => currentTk older
  | .group _ _ _ :: older => currentTk older

/-- What is true of an event after the `older` ones. -/
def Lawful (deliveries : List Delivery) (older : List Event) : Event → Prop
  | .adopted ptk frame =>
      Derived cfg crypto deliveries ptk ∧ frame.keyMic = micField cfg crypto ptk.kck frame
  | .pairwise frame key _ =>
      (∃ ptk, lastAdopted older = some ptk ∧ Vouched cfg crypto ptk frame) ∧
        key.key = (currentTk older).take (wpaCipherKeyLen cfg.pairwiseCipher)
  | .group frame _ _ => ∃ ptk, lastAdopted older = some ptk ∧
      (Vouched cfg crypto ptk frame ∨ Opens crypto ptk frame)

def LawfulLog (deliveries : List Delivery) : List Event → Prop
  | [] => True
  | event :: older => Lawful cfg crypto deliveries older event ∧ LawfulLog deliveries older

variable {cfg crypto}

theorem Derived.mono {deliveries more : List Delivery} (sub : deliveries ⊆ more) {ptk : WpaPtk}
    (derived : Derived cfg crypto deliveries ptk) : Derived cfg crypto more ptk := by
  obtain ⟨drawn, hdrawn, first, hfirst, rest⟩ := derived
  exact ⟨drawn, sub hdrawn, first, sub hfirst, rest⟩

theorem LawfulLog.mono {deliveries more : List Delivery} (sub : deliveries ⊆ more)
    {log : List Event} (lawful : LawfulLog cfg crypto deliveries log) :
    LawfulLog cfg crypto more log := by
  induction log with
  | nil => trivial
  | cons event older ih =>
      refine ⟨?_, ih lawful.2⟩
      cases event with
      | adopted ptk frame => exact ⟨lawful.1.1.mono sub, lawful.1.2⟩
      | pairwise frame key done => exact lawful.1
      | group frame key done => exact lawful.1

/-! ## The invariant -/

structure Inv (cfg : Config) (crypto : Crypto) (deliveries : List Delivery) (sm : WpaSm) :
    Prop where
  lawful : LawfulLog cfg crypto deliveries sm.log
  drawn : sm.renewSnonce = false → ∃ d ∈ deliveries, sm.snonce = d.random.2
  tptk : sm.tptkSet = true → Derived cfg crypto deliveries sm.tptk
  ptk : sm.ptkSet = true →
    ∃ ptk, lastAdopted sm.log = some ptk ∧ sm.ptk = { ptk with tk := currentTk sm.log }

/-- The pairwise key is there, and the code in the frame is what the check computes for it. -/
structure Accepted (cfg : Config) (crypto : Crypto) (sm : WpaSm) (frame : KeyFrame) : Prop where
  set : sm.ptkSet = true
  mic : frame.keyMic = micField cfg crypto sm.ptk.kck frame

theorem inv_init (groupCipher : Cipher) : Inv cfg crypto [] (wpaSmInit groupCipher) where
  lawful := trivial
  drawn := nofun
  tptk := nofun
  ptk := nofun

theorem Inv.mono {deliveries more : List Delivery} (sub : deliveries ⊆ more) {sm : WpaSm}
    (inv : Inv cfg crypto deliveries sm) : Inv cfg crypto more sm where
  lawful := inv.lawful.mono sub
  drawn := fun renewed => by
    obtain ⟨d, member, eq⟩ := inv.drawn renewed
    exact ⟨d, sub member, eq⟩
  tptk := fun set => (inv.tptk set).mono sub
  ptk := inv.ptk

section Steps

variable {deliveries : List Delivery} {sm : WpaSm} {d : Delivery}

theorem verify_inv {frame : KeyFrame} {after : WpaSm} (inv : Inv cfg crypto deliveries sm)
    (verified : verifyEapolKeyMic cfg crypto sm frame = some after) :
    Inv cfg crypto deliveries after ∧ Accepted cfg crypto after frame := by
  unfold verifyEapolKeyMic at verified
  split_ifs at verified with temporary current
  · cases verified
    have derived := inv.tptk temporary.1
    refine ⟨⟨⟨⟨derived, temporary.2⟩, inv.lawful⟩, inv.drawn, nofun, fun _ => ?_⟩, rfl, temporary.2⟩
    exact ⟨sm.tptk, rfl, rfl⟩
  · cases verified
    exact ⟨inv, current.1, current.2⟩

/-- A reply that is sent shows that the code of the frame was computed and not left alone. -/
theorem Accepted.vouched {frame : KeyFrame} {ptk : WpaPtk}
    (accepted : Accepted cfg crypto sm frame) (same : sm.ptk.kck = ptk.kck)
    (known : frame.ver = 1 ∨ frame.ver = 2) : Vouched cfg crypto ptk frame := by
  refine ⟨?_, ?_⟩
  · obtain first | second := known
    · simp [eapolKeyMic, first]
    · simp [eapolKeyMic, second]
  · rw [← same]
    exact accepted.mic

theorem known_of_sent {kck : List UInt8} (sent : replySent crypto d kck = true) :
    d.frame.ver = 1 ∨ d.frame.ver = 2 := by
  simp only [replySent, eapolKeyMic, Bool.and_eq_true] at sent
  obtain ⟨-, mic⟩ := sent
  split_ifs at mic with first second
  · exact .inl first
  · exact .inr second
  · cases mic

theorem renew_inv (inv : Inv cfg crypto deliveries sm) (here : d ∈ deliveries) :
    Inv cfg crypto deliveries (renew sm d).1 ∧
      ((renew sm d).2 = true → ∃ drawn ∈ deliveries, (renew sm d).1.snonce = drawn.random.2) := by
  unfold renew
  split_ifs with due random
  · exact ⟨⟨inv.lawful, fun _ => ⟨d, here, rfl⟩, inv.tptk, inv.ptk⟩, fun _ => ⟨d, here, rfl⟩⟩
  · refine ⟨⟨inv.lawful, fun old => ?_, inv.tptk, inv.ptk⟩, nofun⟩
    exact absurd due (by simp [show sm.renewSnonce = false from old])
  · exact ⟨inv, fun _ => inv.drawn (by simpa using due)⟩

theorem process1Of4_inv (inv : Inv cfg crypto deliveries sm) (here : d ∈ deliveries)
    (message : IsMessage1 d.frame) (keyData : List UInt8) :
    Inv cfg crypto deliveries (process1Of4 cfg crypto sm d keyData) := by
  obtain ⟨renewed, drawn⟩ := renew_inv inv here
  unfold process1Of4
  dsimp only
  split
  · exact inv
  · split
    · exact renewed
    · rename_i succeeded
      obtain ⟨source, member, eq⟩ := drawn (by simpa using succeeded)
      have derived : Derived cfg crypto deliveries
          (derivePtk cfg crypto d.src (renew sm d).1.snonce d.frame.keyNonce) :=
        ⟨source, member, d, here, message, by rw [eq]⟩
      split
      · exact ⟨renewed.lawful, renewed.drawn, fun _ => derived, renewed.ptk⟩
      · exact ⟨renewed.lawful, renewed.drawn, fun _ => derived, renewed.ptk⟩

theorem installPtk_inv (inv : Inv cfg crypto deliveries sm)
    (accepted : Accepted cfg crypto sm d.frame) (known : d.frame.ver = 1 ∨ d.frame.ver = 2) :
    Inv cfg crypto deliveries (installPtk cfg sm d).1 ∧
      Accepted cfg crypto (installPtk cfg sm d).1 d.frame := by
  obtain ⟨ptk, last, eq⟩ := inv.ptk accepted.set
  have same : sm.ptk.kck = ptk.kck := by rw [eq]
  have tk : sm.ptk.tk = currentTk sm.log := by rw [eq]
  have vouched := accepted.vouched same known
  unfold installPtk
  split_ifs with unused unsupported
  · exact ⟨inv, accepted⟩
  · exact ⟨inv, accepted⟩
  · have bytes : (pairwiseKey cfg sm d.frame).key =
        (currentTk sm.log).take (wpaCipherKeyLen cfg.pairwiseCipher) := by rw [← tk]; rfl
    dsimp only
    split
    · refine ⟨⟨⟨⟨⟨ptk, last, vouched⟩, bytes⟩, inv.lawful⟩, inv.drawn, inv.tptk, fun _ => ?_⟩,
        accepted.set, accepted.mic⟩
      exact ⟨ptk, last, by rw [eq]; rfl⟩
    · refine ⟨⟨⟨⟨⟨ptk, last, vouched⟩, bytes⟩, inv.lawful⟩, inv.drawn, inv.tptk, fun _ => ?_⟩,
        accepted.set, accepted.mic⟩
      exact ⟨ptk, last, eq⟩

/-- What vouches for the group keys in a frame: its code, or that its key data opens. -/
def Genuine (cfg : Config) (crypto : Crypto) (sm : WpaSm) (frame : KeyFrame) : Prop :=
  ∀ ptk : WpaPtk, ptk.kck = sm.ptk.kck → ptk.kek = sm.ptk.kek →
    Vouched cfg crypto ptk frame ∨ Opens crypto ptk frame

/-- A group key is vouched for by the code of its frame or by its own encryption. -/
theorem installGtk_inv (inv : Inv cfg crypto deliveries sm) (set : sm.ptkSet = true)
    (genuine : Genuine cfg crypto sm d.frame) (gd : GtkData) (keyRsc : List UInt8) :
    Inv cfg crypto deliveries (installGtk cfg sm d gd keyRsc).1 := by
  obtain ⟨ptk, last, eq⟩ := inv.ptk set
  refine ⟨⟨⟨ptk, last, genuine ptk ?_ ?_⟩, inv.lawful⟩, inv.drawn, inv.tptk,
    fun _ => ⟨ptk, last, eq⟩⟩
  · rw [eq]
  · rw [eq]

theorem pairwiseGtk_inv (inv : Inv cfg crypto deliveries sm)
    (accepted : Accepted cfg crypto sm d.frame) (known : d.frame.ver = 1 ∨ d.frame.ver = 2)
    (gtk : List UInt8) : Inv cfg crypto deliveries (pairwiseGtk cfg sm d gtk).1 := by
  have genuine : Genuine cfg crypto sm d.frame :=
    fun ptk same _ => .inl (accepted.vouched same.symm known)
  unfold pairwiseGtk
  dsimp only
  split
  · exact inv
  · split
    · exact installGtk_inv inv accepted.set genuine _ _
    · exact installGtk_inv (installGtk_inv inv accepted.set genuine _ _) accepted.set genuine _ _

theorem groupPart_inv (inv : Inv cfg crypto deliveries sm)
    (accepted : Accepted cfg crypto sm d.frame) (known : d.frame.ver = 1 ∨ d.frame.ver = 2)
    (gtk : Option (List UInt8)) : Inv cfg crypto deliveries (groupPart cfg sm d gtk).1 := by
  unfold groupPart
  split
  · exact inv
  · cases gtk with
    | none => exact inv
    | some gtk => exact pairwiseGtk_inv inv accepted known gtk

theorem installKeys_inv (inv : Inv cfg crypto deliveries sm)
    (accepted : Accepted cfg crypto sm d.frame) (known : d.frame.ver = 1 ∨ d.frame.ver = 2)
    (gtk : Option (List UInt8)) : Inv cfg crypto deliveries (installKeys cfg sm d gtk) := by
  have installed : Inv cfg crypto deliveries (pairwisePart cfg sm d).1 ∧
      Accepted cfg crypto (pairwisePart cfg sm d).1 d.frame := by
    unfold pairwisePart
    split
    · exact installPtk_inv inv accepted known
    · exact ⟨inv, accepted⟩
  have grouped := groupPart_inv installed.1 installed.2 known gtk
  unfold installKeys
  dsimp only
  split
  · exact installed.1
  · split
    · exact grouped
    · exact ⟨grouped.lawful, grouped.drawn, grouped.tptk, grouped.ptk⟩

theorem process3Of4_inv (inv : Inv cfg crypto deliveries sm)
    (accepted : Accepted cfg crypto sm d.frame) (keyData : List UInt8) :
    Inv cfg crypto deliveries (process3Of4 cfg crypto sm d keyData) := by
  unfold process3Of4
  split
  · exact inv
  · split
    · exact inv
    split
    · exact inv
    split
    · exact inv
    split
    · exact inv
    split
    · exact inv
    · rename_i sent
      have known := known_of_sent (by simpa using sent)
      have renewed : Inv cfg crypto deliveries { sm with renewSnonce := true } :=
        ⟨inv.lawful, nofun, inv.tptk, inv.ptk⟩
      exact installKeys_inv renewed ⟨accepted.set, accepted.mic⟩ known _

/-- The key data of a group key handshake that is taken was opened with the pairwise key. -/
theorem wpaGroupKey_known {frame : KeyFrame} {keyData gtk : List UInt8} {maxKeyLen : Nat}
    (opened : wpaGroupKey crypto sm frame keyData maxKeyLen = some gtk) :
    frame.ver = 1 ∨ frame.ver = 2 := by
  unfold wpaGroupKey at opened
  split_ifs at opened with first long second
  · exact .inl first.1
  · exact .inr second

theorem process1Of2Wpa_known {frame : KeyFrame} {keyData : List UInt8} {gd : GtkData}
    (taken : process1Of2Wpa cfg crypto sm frame keyData = some gd) :
    frame.ver = 1 ∨ frame.ver = 2 := by
  unfold process1Of2Wpa at taken
  dsimp only at taken
  split at taken
  · cases taken
  split at taken
  · cases taken
  simp only [Option.bind_eq_bind, Option.bind_eq_some_iff] at taken
  obtain ⟨-, -, gtk, opened, -⟩ := taken
  exact wpaGroupKey_known opened

/-- The key data of a frame that claims to have it encrypted. -/
theorem decryptKeyData_genuine {frame : KeyFrame} {keyData : List UInt8}
    (accepted : Accepted cfg crypto sm frame)
    (opened : decryptKeyData cfg crypto sm frame = some keyData) :
    Genuine cfg crypto sm frame := by
  intro ptk kck kek
  unfold decryptKeyData at opened
  split_ifs at opened with unset first other short
  · exact .inl (accepted.vouched kck.symm (.inl first.1))
  · right
    rw [Opens, kek, opened]
    rfl

theorem process1Of2Rsn_encrypted {frame : KeyFrame} {keyData : List UInt8} {gd : GtkData}
    (taken : process1Of2Rsn cfg sm frame keyData = some gd) : frame.encrKeyData = true := by
  unfold process1Of2Rsn at taken
  simp only [Option.bind_eq_bind, Option.bind_eq_some_iff] at taken
  obtain ⟨ie, -, gtk, -, taken⟩ := taken
  by_contra clear
  simp [clear] at taken

theorem process1Of2_inv (inv : Inv cfg crypto deliveries sm)
    (accepted : Accepted cfg crypto sm d.frame)
    (genuine : cfg.rsnEnable = true → d.frame.encrKeyData = true →
      Genuine cfg crypto sm d.frame) (keyData : List UInt8) :
    Inv cfg crypto deliveries (process1Of2 cfg crypto sm d keyData) := by
  unfold process1Of2
  dsimp only
  split
  · exact inv
  · cases proto : cfg.rsnProto with
    | true =>
        simp only [if_true]
        split
        · exact inv
        · rename_i gd taken
          have encrypted := process1Of2Rsn_encrypted taken
          exact installGtk_inv inv accepted.set (genuine (cfg.decrypts proto) encrypted) _ _
    | false =>
        simp only [Bool.false_eq_true, if_false]
        have changed : Inv cfg crypto deliveries
            { sm with groupCipher := wpaGroupCipher sm d.frame } :=
          ⟨inv.lawful, inv.drawn, inv.tptk, inv.ptk⟩
        split
        · exact changed
        · rename_i gd taken
          have known := process1Of2Wpa_known taken
          exact installGtk_inv changed accepted.set
            (fun ptk kck _ => .inl (accepted.vouched kck.symm known)) _ _

theorem processMessage_inv (inv : Inv cfg crypto deliveries sm) (here : d ∈ deliveries)
    (accepted : d.frame.mic = true → Accepted cfg crypto sm d.frame)
    (genuine : d.frame.mic = true → cfg.rsnEnable = true → d.frame.encrKeyData = true →
      Genuine cfg crypto sm d.frame) (keyData : List UInt8) :
    Inv cfg crypto deliveries (processMessage cfg crypto sm d keyData) := by
  unfold processMessage
  split
  · rename_i pairwise
    split
    · exact inv
    · split
      · rename_i mic
        exact process3Of4_inv inv (accepted mic) keyData
      · rename_i mic
        exact process1Of4_inv inv here ⟨pairwise, by simpa using mic⟩ keyData
  · split
    · rename_i mic
      exact process1Of2_inv inv (accepted mic) (genuine mic) keyData
    · exact inv

theorem processChecked_inv (inv : Inv cfg crypto deliveries sm) (here : d ∈ deliveries)
    (accepted : d.frame.mic = true → Accepted cfg crypto sm d.frame) :
    Inv cfg crypto deliveries (processChecked cfg crypto sm d) := by
  unfold processChecked
  split
  · split
    · exact inv
    · rename_i keyData opened
      apply processMessage_inv inv here accepted
      intro mic _ _
      exact decryptKeyData_genuine (accepted mic) opened
  · rename_i clear
    apply processMessage_inv inv here accepted
    intro _ enabled encrypted
    exact absurd ⟨enabled, encrypted⟩ clear

theorem rxEapol_inv (inv : Inv cfg crypto deliveries sm) (here : d ∈ deliveries) :
    Inv cfg crypto deliveries (rxEapol cfg crypto sm d) := by
  unfold rxEapol
  split
  · exact inv
  · split
    · split
      · exact inv
      · rename_i after verified
        obtain ⟨kept, accepted⟩ := verify_inv inv verified
        exact processChecked_inv kept here fun _ => accepted
    · rename_i mic
      exact processChecked_inv inv here fun set => absurd set mic

end Steps

theorem receive_inv {before : List Delivery} {sm : WpaSm} (deliveries : List Delivery)
    (inv : Inv cfg crypto before sm) :
    Inv cfg crypto (before ++ deliveries) (receive cfg crypto sm deliveries) := by
  induction deliveries generalizing before sm with
  | nil => simpa [receive] using inv
  | cons d deliveries ih =>
      have sub : before ⊆ before ++ [d] := List.subset_append_left _ _
      have after := ih (rxEapol_inv (inv.mono sub) (by simp : d ∈ before ++ [d]))
      rw [List.append_assoc, List.singleton_append] at after
      exact after

/-- Whatever frames come in whatever order, forged ones among them: a PTK that is taken over comes
from a nonce of this station and one out of a message 1; each pairwise key given to the driver
comes with a frame whose code verifies under the PTK taken over last, and is its temporal key the
first time and all zeros from then on; each group key comes with such a code or with key data that
opens under that PTK. -/
theorem key_log_lawful (cfg : Config) (crypto : Crypto) (groupCipher : Cipher)
    (deliveries : List Delivery) :
    LawfulLog cfg crypto deliveries
      (receive cfg crypto (wpaSmInit groupCipher) deliveries).log := by
  have initial : Inv cfg crypto [] (wpaSmInit groupCipher) := inv_init groupCipher
  have inv := receive_inv deliveries initial
  rw [List.nil_append] at inv
  exact inv.lawful

end Smartchip.Wpa
