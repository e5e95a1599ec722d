import Smartchip.Crypto.KeyWrap
import Smartchip.Wpa.Replay

/-!
# A group key on its way to the driver

With `wf_aes_unwrap` for the cipher of the key data: the key that was wrapped under the key
encryption key of the station is the one that its driver is given, whichever of the two group
messages its protocol makes it read.
-/

namespace Smartchip.Wpa

open Smartchip.Crypto

/-- What is behind the selector of the element that carries a group key. -/
def gtkBody (keyId : UInt8) (gtk : List UInt8) : List UInt8 :=
  rsnKeyDataGroupkey ++ (keyId :: 0 :: gtk)

/-- The element that carries a group key. -/
def gtkKde (keyId : UInt8) (gtk : List UInt8) : List UInt8 :=
  wlanVendorSpecificEid :: UInt8.ofNat (6 + gtk.length) :: gtkBody keyId gtk

theorem length_gtkBody (keyId : UInt8) (gtk : List UInt8) :
    (gtkBody keyId gtk).length = 6 + gtk.length := by
  simp [gtkBody, rsnKeyDataGroupkey]
  omega

theorem length_gtkKde (keyId : UInt8) (gtk : List UInt8) :
    (gtkKde keyId gtk).length = 8 + gtk.length := by
  simp [gtkKde, length_gtkBody]
  omega

theorem wpaParseGeneric_gtkBody {keyId : UInt8} {gtk : List UInt8} (ie : EapolIes)
    (filled : 0 < gtk.length) :
    wpaParseGeneric (gtkBody keyId gtk) ie = { ie with gtk := some (keyId :: 0 :: gtk) } := by
  have selector : (gtkBody keyId gtk).take 4 = rsnKeyDataGroupkey := rfl
  have long : 4 + 2 < (gtkBody keyId gtk).length := by
    rw [length_gtkBody]
    omega
  simp [wpaParseGeneric, selector, long, show rsnKeyDataGroupkey ≠ wpaOuiType by decide,
    show rsnKeyDataGroupkey ≠ rsnKeyDataPmkid by decide]
  rfl

theorem parseIes_gtkKde {keyId : UInt8} {gtk : List UInt8} (ie : EapolIes)
    (filled : 0 < gtk.length) (size : gtk.length ≤ 32) :
    parseIes (gtkKde keyId gtk) ie = some { ie with gtk := some (keyId :: 0 :: gtk) } := by
  have length : (UInt8.ofNat (6 + gtk.length)).toNat = (gtkBody keyId gtk).length := by
    rw [UInt8.toNat_ofNat', length_gtkBody]
    omega
  have nonzero : UInt8.ofNat (6 + gtk.length) ≠ 0 := by
    intro zero
    have none_left : (gtkBody keyId gtk).length = 0 := by rw [← length, zero]; rfl
    rw [length_gtkBody] at none_left
    omega
  have enough : ¬ UInt8.ofNat (6 + gtk.length) < 4 := by
    rw [UInt8.lt_iff_toNat_lt, length, length_gtkBody]
    simp
    omega
  rw [gtkKde, parseIes]
  generalize UInt8.ofNat (6 + gtk.length) = len at length nonzero enough
  simp [length, nonzero, enough, parseIes_nil, wpaParseGeneric_gtkBody ie filled,
    show wlanVendorSpecificEid ≠ wlanRsnEid by decide]

variable {cfg : Config} {crypto : Crypto} {sm : WpaSm}

/-- The key data of a version 2 frame opens to what was wrapped. -/
theorem decryptKeyData_wrapped {frame : KeyFrame} {keyData : List UInt8} {n : Nat}
    (real : crypto.aesUnwrap = aesUnwrap) (set : sm.ptkSet = true) (second : frame.ver = 2)
    (size : keyData.length = 8 * n) (wrapped : aesWrap sm.ptk.kek n keyData = some frame.keyData) :
    decryptKeyData cfg crypto sm frame = some keyData := by
  have length := length_aesWrap wrapped
  have opened := aesUnwrap_aesWrap size wrapped
  have blocks : (frame.keyData.length - 8) / 8 = n := by omega
  have fits : ¬(frame.keyData.length < 8 ∨ frame.keyData.length % 8 ≠ 0) := by omega
  simp only [decryptKeyData, set, second, real, blocks, opened, fits]
  simp

/-- What the driver is given for a group key: with the Michael keys the other way round for TKIP,
never for sending unless no pairwise key is used, and with a counter of zeros in place of one that
looks corrupt. -/
def groupKey (cfg : Config) (sm : WpaSm) (frame : KeyFrame) (keyIdx : Nat) (gtk : List UInt8) :
    KeySet where
  alg := wpaCipherToAlg sm.groupCipher
  addr := if cfg.pairwiseCipher = .none then .unset else .broadcast
  keyIdx
  setTx := if cfg.pairwiseCipher = .none then true else false
  seq := (relaxedRsc sm.groupCipher frame.keyRsc).take (wpaCipherRscLen sm.groupCipher)
  key := if sm.groupCipher = .tkip then swapMicKeys gtk else gtk

/-- What is read out of the message. -/
def gtkData (cfg : Config) (sm : WpaSm) (tx : Bool) (keyIdx : Nat) (gtk : List UInt8) : GtkData where
  alg := wpaCipherToAlg sm.groupCipher
  tx := gtkTx cfg tx
  keyRscLen := wpaCipherRscLen sm.groupCipher
  keyIdx
  gtk
  gtkLen := gtk.length

/-- The bytes that reach the driver are those of the key, for TKIP with the Michael keys the other
way round. -/
theorem installed_bytes {gtk : List UInt8} (size : gtk.length = wpaCipherKeyLen sm.groupCipher) :
    (if sm.groupCipher = .tkip then swapMicKeys (gtkBuffer gtk) else gtkBuffer gtk).take
      gtk.length = if sm.groupCipher = .tkip then swapMicKeys gtk else gtk := by
  split_ifs with tkip
  · have full : gtk.length = 32 := by rw [size, tkip]; rfl
    have buffer : gtkBuffer gtk = gtk := by simp [gtkBuffer, full]
    have swapped : (swapMicKeys gtk).length = 32 := by simp [swapMicKeys, full]
    rw [buffer, full, ← swapped, List.take_length]
  · simp [gtkBuffer]

theorem installGtk_eq (d : Delivery) {tx : Bool} {keyIdx : Nat} {gtk : List UInt8}
    (size : gtk.length = wpaCipherKeyLen sm.groupCipher) :
    (installGtk cfg sm d (gtkData cfg sm tx keyIdx gtk)
      (relaxedRsc sm.groupCipher d.frame.keyRsc)).1 =
        { sm with
          log := .group d.frame (groupKey cfg sm d.frame keyIdx gtk)
            (d.setKey (groupKey cfg sm d.frame keyIdx gtk)) :: sm.log } := by
  have bytes := installed_bytes size
  simp only [installGtk, gtkData, bytes, groupKey, gtkTx]
  by_cases unused : cfg.pairwiseCipher = .none
  · simp [unused]
  · simp [unused]

/-- The state with the group cipher that the message is read with. -/
def WpaSm.hears (cfg : Config) (sm : WpaSm) (frame : KeyFrame) : WpaSm :=
  if cfg.rsnProto then sm else { sm with groupCipher := wpaGroupCipher sm frame }

/-- How a group key is wrapped under the key encryption key: in an element in encrypted key data
for a supplicant whose protocol is RSN alone, and bare for any other one. -/
inductive Carries (cfg : Config) (sm : WpaSm) (frame : KeyFrame) (gtk : List UInt8) :
    (keyIdx : Nat) → Prop where
  | element (keyId : UInt8) (rsn : cfg.rsnProto = true) (encrypted : frame.encrKeyData = true)
      (cipher : wpaCipherToAlg sm.groupCipher ≠ .none)
      (size : gtk.length = wpaCipherKeyLen sm.groupCipher)
      (wrapped : aesWrap sm.ptk.kek (gtk.length / 8 + 1) (gtkKde keyId gtk) = some frame.keyData) :
      Carries cfg sm frame gtk (keyId.toNat % 4)
  | bare (other : cfg.rsnProto = false)
      (clear : cfg.rsnEnable = false ∨ frame.encrKeyData = false)
      (announced : frame.keyLength.toNat = gtk.length) (size : gtk.length = 16 ∨ gtk.length = 32)
      (wrapped : aesWrap sm.ptk.kek (gtk.length / 8) gtk = some frame.keyData) :
      Carries cfg sm frame gtk frame.keyIndex

/-- What a message with a group key comes down to. -/
theorem process1Of2_taken {d : Delivery} {keyData gtk : List UInt8} {tx : Bool} {keyIdx : Nat}
    (ready : sm.msg3Of4Ok = true)
    (size : gtk.length = wpaCipherKeyLen (sm.hears cfg d.frame).groupCipher)
    (taken : (if cfg.rsnProto then process1Of2Rsn cfg (sm.hears cfg d.frame) d.frame keyData
        else process1Of2Wpa cfg crypto (sm.hears cfg d.frame) d.frame keyData) =
      some (gtkData cfg (sm.hears cfg d.frame) tx keyIdx gtk)) :
    process1Of2 cfg crypto sm d keyData = { sm.hears cfg d.frame with
      log := .group d.frame (groupKey cfg (sm.hears cfg d.frame) d.frame keyIdx gtk)
        (d.setKey (groupKey cfg (sm.hears cfg d.frame) d.frame keyIdx gtk)) :: sm.log } := by
  have log : (sm.hears cfg d.frame).log = sm.log := by
    unfold WpaSm.hears
    split_ifs <;> rfl
  have heard : (if cfg.rsnProto then sm else { sm with groupCipher := wpaGroupCipher sm d.frame }) =
      sm.hears cfg d.frame := rfl
  unfold process1Of2
  rw [if_neg (by simp [ready])]
  dsimp only
  rw [heard]
  rw [taken]
  dsimp only
  rw [installGtk_eq d size, log]

theorem process1Of2Rsn_gtkKde {frame : KeyFrame} {keyId : UInt8} {gtk : List UInt8}
    (encrypted : frame.encrKeyData = true) (cipher : wpaCipherToAlg sm.groupCipher ≠ .none)
    (size : gtk.length = wpaCipherKeyLen sm.groupCipher)
    (sizes : gtk.length = 16 ∨ gtk.length = 32) :
    process1Of2Rsn cfg sm frame (gtkKde keyId gtk) =
      some (gtkData cfg sm (keyId.toBitVec.getLsbD 2) (keyId.toNat % 4) gtk) := by
  have parsed : parseIes (gtkKde keyId gtk) .zero =
      some { EapolIes.zero with gtk := some (keyId :: 0 :: gtk) } :=
    parseIes_gtkKde .zero (by omega) (by omega)
  have checked : checkGroupCipher sm.groupCipher gtk.length gtk.length =
      some (wpaCipherRscLen sm.groupCipher, wpaCipherToAlg sm.groupCipher) := by
    simp [checkGroupCipher, cipher, size]
  simp [process1Of2Rsn, parsed, encrypted, checked, gtkData]
  omega

theorem wpaGroupCipher_announced {frame : KeyFrame} {gtk : List UInt8}
    (announced : frame.keyLength.toNat = gtk.length) (size : gtk.length = 16 ∨ gtk.length = 32) :
    gtk.length = wpaCipherKeyLen (wpaGroupCipher sm frame) ∧
      wpaCipherToAlg (wpaGroupCipher sm frame) ≠ .none := by
  rcases size with size | size
  · have length : frame.keyLength = 16 := BitVec.eq_of_toNat_eq (announced.trans size)
    simp [wpaGroupCipher, length, size, wpaCipherKeyLen, wpaCipherToAlg]
  · have length : frame.keyLength = 32 := BitVec.eq_of_toNat_eq (announced.trans size)
    simp [wpaGroupCipher, length, size, wpaCipherKeyLen, wpaCipherToAlg]

theorem process1Of2Wpa_wrapped {frame : KeyFrame} {gtk : List UInt8}
    (real : crypto.aesUnwrap = aesUnwrap) (second : frame.ver = 2)
    (announced : frame.keyLength.toNat = gtk.length)
    (cipher : wpaCipherToAlg sm.groupCipher ≠ .none)
    (size : gtk.length = wpaCipherKeyLen sm.groupCipher)
    (sizes : gtk.length = 16 ∨ gtk.length = 32)
    (wrapped : aesWrap sm.ptk.kek (gtk.length / 8) gtk = some frame.keyData) :
    process1Of2Wpa cfg crypto sm frame frame.keyData =
      some (gtkData cfg sm frame.txrx frame.keyIndex gtk) := by
  have length := length_aesWrap wrapped
  have opened := aesUnwrap_aesWrap (by omega) wrapped
  have room : wpaMaxKeyLen frame frame.keyData = gtk.length := by
    simp only [wpaMaxKeyLen, second, if_true]
    omega
  have checked : checkGroupCipher sm.groupCipher gtk.length gtk.length =
      some (wpaCipherRscLen sm.groupCipher, wpaCipherToAlg sm.groupCipher) := by
    simp [checkGroupCipher, cipher, size]
  have key : wpaGroupKey crypto sm frame frame.keyData gtk.length = some gtk := by
    simp only [wpaGroupKey, second, real, opened]
    simp
    omega
  have long : ¬ frame.keyData.length < 8 := by omega
  simp [process1Of2Wpa, long, room, announced, checked, key, gtkData]

/-- A group key that the access point wraps under the key encryption key of the station, in a
version 2 frame whose code is right, reaches the driver in the form of `groupKey` once the four-way
handshake is over.  For RSN alone it comes in an element, and the group cipher is one with keys of
its length; otherwise the key comes bare, and its length sets the group cipher. -/
theorem group_key_delivered (cfg : Config) (crypto : Crypto) (sm : WpaSm) (d : Delivery)
    (gtk : List UInt8) (keyIdx : Nat) (real : crypto.aesUnwrap = aesUnwrap)
    (set : sm.ptkSet = true) (settled : sm.tptkSet = false) (ready : sm.msg3Of4Ok = true)
    (type : d.frame.type = eapolKeyTypeRsn ∨ d.frame.type = eapolKeyTypeWpa)
    (group : d.frame.pairwise = false) (coded : d.frame.mic = true) (second : d.frame.ver = 2)
    (mic : d.frame.keyMic = micField cfg crypto sm.ptk.kck d.frame)
    (carries : Carries cfg sm d.frame gtk keyIdx) :
    rxEapol cfg crypto sm d = { sm.hears cfg d.frame with
      log := .group d.frame (groupKey cfg (sm.hears cfg d.frame) d.frame keyIdx gtk)
        (d.setKey (groupKey cfg (sm.hears cfg d.frame) d.frame keyIdx gtk)) :: sm.log } := by
  have verified : verifyEapolKeyMic cfg crypto sm d.frame = some sm := by
    simp [verifyEapolKeyMic, settled, set, mic]
  have known : ¬ (d.frame.type ≠ eapolKeyTypeWpa ∧ d.frame.type ≠ eapolKeyTypeRsn) := by
    rcases type with rsn | wpa
    · simp [rsn]
    · simp [wpa]
  cases carries with
  | element keyId rsn encrypted cipher size wrapped =>
      have enabled := cfg.decrypts rsn
      have same : sm.hears cfg d.frame = sm := by simp [WpaSm.hears, rsn]
      have sizes : gtk.length = 16 ∨ gtk.length = 32 := by
        rw [size]
        revert cipher
        cases sm.groupCipher <;> simp [wpaCipherToAlg, wpaCipherKeyLen]
      have opened : decryptKeyData cfg crypto sm d.frame = some (gtkKde keyId gtk) :=
        decryptKeyData_wrapped real set second (by rw [length_gtkKde]; omega) wrapped
      have taken : process1Of2Rsn cfg sm d.frame (gtkKde keyId gtk) =
          some (gtkData cfg sm (keyId.toBitVec.getLsbD 2) (keyId.toNat % 4) gtk) :=
        process1Of2Rsn_gtkKde encrypted cipher size sizes
      have reached : rxEapol cfg crypto sm d =
          process1Of2 cfg crypto sm d (gtkKde keyId gtk) := by
        simp [rxEapol, known, coded, verified, processChecked, enabled, encrypted, opened,
          processMessage, group]
      rw [reached]
      apply process1Of2_taken ready
      · rw [same]
        exact size
      · rw [if_pos rsn, same]
        exact taken
  | bare other clear announced size wrapped =>
      have heard : sm.hears cfg d.frame = { sm with groupCipher := wpaGroupCipher sm d.frame } := by
        simp [WpaSm.hears, other]
      have cipher : gtk.length = wpaCipherKeyLen (wpaGroupCipher sm d.frame) ∧
          wpaCipherToAlg (wpaGroupCipher sm d.frame) ≠ .none :=
        wpaGroupCipher_announced announced size
      have taken : process1Of2Wpa cfg crypto (sm.hears cfg d.frame) d.frame d.frame.keyData =
          some (gtkData cfg (sm.hears cfg d.frame) d.frame.txrx d.frame.keyIndex gtk) := by
        rw [heard]
        exact process1Of2Wpa_wrapped real second announced cipher.2 cipher.1 size wrapped
      have reached : rxEapol cfg crypto sm d =
          process1Of2 cfg crypto sm d d.frame.keyData := by
        have plain : ¬ (cfg.rsnEnable = true ∧ d.frame.encrKeyData = true) := by
          rcases clear with off | off
          · simp [off]
          · simp [off]
        simp only [rxEapol, known, coded, verified, processChecked, plain, processMessage, group]
        simp
      rw [reached]
      apply process1Of2_taken ready
      · rw [heard]
        exact cipher.1
      · rw [other]
        exact taken

/-! A station after its four-way handshake, with the real cipher for the key data. -/

def wrappingCrypto : Crypto := { plainCrypto with aesUnwrap := aesUnwrap }

/-- `DEFAULT_PROTO` is both protocols. -/
def bothStation : Config := { rsnStation with rsnProto := false, decrypts := nofun }

def associated (cfg : Config) : WpaSm :=
  receive cfg plainCrypto (wpaSmInit .ccmp) [message1, message3]

/-- A key of nines, wrapped, in an element or bare. -/
def wrappedGtk (n : Nat) (keyData : List UInt8) : List UInt8 :=
  (aesWrap (List.replicate 16 2) n keyData).getD []

theorem aesWrap_wrappedGtk (n : Nat) (keyData : List UInt8) :
    aesWrap (List.replicate 16 2) n keyData = some (wrappedGtk n keyData) := by
  obtain ⟨cipher, wrapped⟩ : ∃ cipher, aesWrap (List.replicate 16 2) n keyData = some cipher :=
    Option.isSome_iff_exists.mp (isSome_aesWrap (.inl rfl))
  rw [wrappedGtk, wrapped, Option.getD_some]

/-- A group message with a code; `0x1000` is for encrypted key data. -/
def groupMessage (keyInfo : BitVec 16) (keyData : List UInt8) : Delivery :=
  delivered (keyFrame keyInfo (List.replicate 16 1) keyData)

def nines : List UInt8 := List.replicate 16 9

def elementMessage : Delivery := groupMessage 0x1302 (wrappedGtk 3 (gtkKde 1 nines))

def bareMessage : Delivery := groupMessage 0x0312 (wrappedGtk 2 nines)

theorem group_key_delivered_once :
    (rxEapol rsnStation wrappingCrypto (associated rsnStation) elementMessage).log =
        .group elementMessage.frame
          (groupKey rsnStation (associated rsnStation) elementMessage.frame 1 nines) true ::
            (associated rsnStation).log ∧
      (rxEapol bothStation wrappingCrypto (associated bothStation) bareMessage).log =
        .group bareMessage.frame
          (groupKey bothStation ((associated bothStation).hears bothStation bareMessage.frame)
            bareMessage.frame 1 nines) true :: (associated bothStation).log := by
  constructor
  · have kek : (associated rsnStation).ptk.kek = List.replicate 16 2 := by decide +kernel
    rw [group_key_delivered rsnStation wrappingCrypto (associated rsnStation) elementMessage nines 1
      rfl (by decide +kernel) (by decide +kernel) (by decide +kernel) (.inl rfl) (by decide +kernel)
      (by decide +kernel) (by decide +kernel) (by decide +kernel)
      (.element 1 rfl (by decide +kernel) (by decide +kernel) (by decide +kernel)
        (by rw [kek]; exact aesWrap_wrappedGtk 3 (gtkKde 1 nines)))]
    rfl
  · have kek : (associated bothStation).ptk.kek = List.replicate 16 2 := by decide +kernel
    rw [group_key_delivered bothStation wrappingCrypto (associated bothStation) bareMessage nines 1
      rfl (by decide +kernel) (by decide +kernel) (by decide +kernel) (.inl rfl) (by decide +kernel)
      (by decide +kernel) (by decide +kernel) (by decide +kernel)
      (.bare rfl (.inr (by decide +kernel)) (by decide +kernel) (.inl rfl)
        (by rw [kek]; exact aesWrap_wrappedGtk 2 nines))]
    rfl

end Smartchip.Wpa
