import Smartchip.Frame.Elements

/-!
# The supplicant

`wf_wpa_sm_rx_eapol` of `os/rtos/sec/wpa.c`: the station's side of the four-way and of the group
key handshake.  The hash functions and ciphers are parameters; what they are given is not.
-/

namespace Smartchip.Wpa

/-! ## Keys and frames -/

/-- `WPA_CIPHER_NONE` to `WPA_CIPHER_GTK_NOT_USED`; `unset` is a field that was never written. -/
inductive Cipher where
  | unset
  | none
  | tkip
  | ccmp
  | aes128Cmac
  | gcmp
  | gcmp256
  | ccmp256
  | bipGmac128
  | bipGmac256
  | bipCmac256
  | gtkNotUsed
deriving DecidableEq, Repr

inductive Alg where
  | none
  | tkip
  | ccmp
  | igtk
  | gcmp
  | gcmp256
  | ccmp256
  | bipGmac128
  | bipGmac256
  | bipCmac256
deriving DecidableEq, Repr

def wpaCipherKeyLen : Cipher → Nat
  | .ccmp256 => 32
  | .gcmp256 => 32
  | .bipGmac256 => 32
  | .bipCmac256 => 32
  | .ccmp => 16
  | .gcmp => 16
  | .aes128Cmac => 16
  | .bipGmac128 => 16
  | .tkip => 32
  | _ => 0

def wpaCipherRscLen : Cipher → Nat
  | .ccmp256 => 6
  | .gcmp256 => 6
  | .ccmp => 6
  | .gcmp => 6
  | .tkip => 6
  | _ => 0

def wpaCipherToAlg : Cipher → Alg
  | .ccmp256 => .ccmp256
  | .gcmp256 => .gcmp256
  | .ccmp => .ccmp
  | .gcmp => .gcmp
  | .tkip => .tkip
  | .aes128Cmac => .igtk
  | .bipGmac128 => .bipGmac128
  | .bipGmac256 => .bipGmac256
  | .bipCmac256 => .bipCmac256
  | _ => .none

def wpaCipherValidPairwise (cipher : Cipher) : Bool :=
  cipher = .ccmp256 || cipher = .gcmp256 || cipher = .ccmp || cipher = .gcmp || cipher = .tkip

structure WpaPtk where
  kck : List UInt8
  kek : List UInt8
  tk : List UInt8
deriving DecidableEq, Repr

def WpaPtk.zero : WpaPtk := ⟨[], [], []⟩

/-- `struct wpa_eapol_key` with its key data. -/
structure KeyFrame where
  type : UInt8
  keyInfo : BitVec 16
  keyLength : BitVec 16
  keyNonce : List UInt8
  keyIv : List UInt8
  keyRsc : List UInt8
  keyMic : List UInt8
  keyData : List UInt8
deriving DecidableEq, Repr

namespace KeyFrame

variable (frame : KeyFrame)

def ver : Nat := frame.keyInfo.toNat % 8

def pairwise : Bool := frame.keyInfo.getLsbD 3

def keyIndex : Nat := frame.keyInfo.toNat / 16 % 4

def install : Bool := frame.keyInfo.getLsbD 6

def txrx : Bool := frame.keyInfo.getLsbD 6

def mic : Bool := frame.keyInfo.getLsbD 8

def encrKeyData : Bool := frame.keyInfo.getLsbD 12

end KeyFrame

/-- What of the four-way handshake is computed outside this file.  The pairwise master key is
inside `pmkToPtk`, and the hashes are over the frame as it is sent. -/
structure Crypto where
  pmkToPtk : (srcAddr snonce anonce : List UInt8) → WpaPtk
  hmacMd5 : (kck : List UInt8) → KeyFrame → List UInt8
  hmacSha1 : (kck : List UInt8) → KeyFrame → List UInt8
  rc4Skip : (key data : List UInt8) → Option (List UInt8)
  aesUnwrap : (kek : List UInt8) → (n : Nat) → (cipher : List UInt8) → Option (List UInt8)

/-- What does not change while the station is associated: `sm->proto`, `sm->pairwise_cipher`,
`wf_wpa_mic_len(sm->key_mgmt)`, whether the key management is OSEN or Suite B, what is known of
the elements of the access point, and `sec_info->rsn_enable`. -/
structure Config where
  rsnProto : Bool
  wpaProto : Bool
  rsnEnable : Bool
  decrypts : rsnProto = true → rsnEnable = true
  pairwiseCipher : Cipher
  micLen : Nat
  alwaysWraps : Bool
  apWpaIe : Bool
  apRsnIe : Bool
  rsnEnabled : Bool

/-- Where a key goes. -/
inductive KeyAddr where
  | bssid
  | broadcast
  | unset
deriving DecidableEq, Repr

/-- The arguments of `set_key` of the driver. -/
structure KeySet where
  alg : Alg
  addr : KeyAddr
  keyIdx : Nat
  setTx : Bool
  seq : List UInt8
  key : List UInt8
deriving DecidableEq, Repr

/-- A received frame with what the environment does while it is handled: the outcome of
`wf_random_get_bytes`, whether a reply can be built and sent, and what the driver answers. -/
structure Delivery where
  src : List UInt8
  frame : KeyFrame
  random : Bool × List UInt8
  sends : Bool
  setKey : KeySet → Bool

/-- A key given to the driver, or the moment at which a temporary PTK is taken over. -/
inductive Event where
  | adopted (ptk : WpaPtk) (frame : KeyFrame)
  | pairwise (frame : KeyFrame) (key : KeySet) (done : Bool)
  | group (frame : KeyFrame) (key : KeySet) (done : Bool)

/-- The newest event is the first of the log. -/
structure WpaSm where
  ptk : WpaPtk
  tptk : WpaPtk
  ptkSet : Bool
  tptkSet : Bool
  msg3Of4Ok : Bool
  snonce : List UInt8
  anonce : List UInt8
  renewSnonce : Bool
  groupCipher : Cipher
  log : List Event

/-- `wf_wpa_sm_init`. -/
def wpaSmInit (groupCipher : Cipher) : WpaSm where
  ptk := .zero
  tptk := .zero
  ptkSet := false
  tptkSet := false
  msg3Of4Ok := false
  snonce := List.replicate 32 0
  anonce := List.replicate 32 0
  renewSnonce := true
  groupCipher
  log := []

/-! ## The elements of the key data -/

structure EapolIes where
  wpaIe : Bool
  rsnIe : Bool
  gtk : Option (List UInt8)
deriving DecidableEq, Repr

def EapolIes.zero : EapolIes := ⟨false, false, none⟩

def wlanRsnEid : UInt8 := 48

def wlanVendorSpecificEid : UInt8 := 221

def wpaOuiType : List UInt8 := [0x00, 0x50, 0xf2, 1]

def rsnKeyDataGroupkey : List UInt8 := [0x00, 0x0f, 0xac, 1]

def rsnKeyDataPmkid : List UInt8 := [0x00, 0x0f, 0xac, 4]

/-- `wf_wpa_parse_generic` on the body of an element. -/
def wpaParseGeneric (body : List UInt8) (ie : EapolIes) : EapolIes :=
  if 6 ≤ body.length ∧ body.take 4 = wpaOuiType ∧ (body.drop 4).take 2 = [1, 0] then
    { ie with wpaIe := true }
  else if 4 + 16 ≤ body.length ∧ body.take 4 = rsnKeyDataPmkid then ie
  else if 4 + 2 < body.length ∧ body.take 4 = rsnKeyDataGroupkey then
    { ie with gtk := some (body.drop 4) }
  else ie

/-- `wf_wpa_supplicant_parse_ies`; `none` stands for the return value `-1`.  A vendor element that
is too short for its own parser ends the search. -/
def parseIes (buf : List UInt8) (ie : EapolIes) : Option EapolIes :=
  match buf with
  | eid :: len :: rest =>
      if eid = wlanVendorSpecificEid ∧ len = 0 then some ie
      else if rest.length < len.toNat then none
      else if eid = wlanRsnEid then parseIes (rest.drop len.toNat) { ie with rsnIe := true }
      else if eid = wlanVendorSpecificEid then
        let ie := wpaParseGeneric (rest.take len.toNat) ie
        if len < 4 then some ie else parseIes (rest.drop len.toNat) ie
      else parseIes (rest.drop len.toNat) ie
  | _ => some ie
termination_by buf.length
decreasing_by all_goals exact Frame.length_drop_lt eid len rest

/-! ## The message integrity code -/

section Handlers

variable (cfg : Config) (crypto : Crypto)

/-- `wf_wpa_eapol_key_mic`; `none` stands for the return value `-1`. -/
def eapolKeyMic (ver : Nat) (kck : List UInt8) (frame : KeyFrame) : Option (List UInt8) :=
  if ver = 1 then some (crypto.hmacMd5 kck frame)
  else if ver = 2 then some ((crypto.hmacSha1 kck frame).take 16)
  else none

/-- The frame over which the code is taken. -/
def cleared (frame : KeyFrame) : KeyFrame :=
  { frame with keyMic := List.replicate cfg.micLen 0 }

/-- What stands in the field after `wf_wpa_eapol_key_mic`, which leaves it alone when it fails. -/
def micField (kck : List UInt8) (frame : KeyFrame) : List UInt8 :=
  let mic := (eapolKeyMic crypto frame.ver kck (cleared cfg frame)).getD []
  mic ++ List.replicate (cfg.micLen - mic.length) 0

/-- The temporary key has proved right. -/
def adopt (sm : WpaSm) (frame : KeyFrame) : WpaSm :=
  { sm with
    tptkSet := false
    ptkSet := true
    ptk := sm.tptk
    tptk := .zero
    log := .adopted sm.tptk frame :: sm.log }

/-- `wf_wpa_supplicant_verify_eapol_key_mic`; `none` stands for the return value `-1`. -/
def verifyEapolKeyMic (sm : WpaSm) (frame : KeyFrame) : Option WpaSm :=
  if sm.tptkSet = true ∧ frame.keyMic = micField cfg crypto sm.tptk.kck frame then
    some (adopt sm frame)
  else if sm.ptkSet = true ∧ frame.keyMic = micField cfg crypto sm.ptk.kck frame then some sm
  else none

/-- Building and sending a reply fails when no code can be computed for it. -/
def replySent (d : Delivery) (kck : List UInt8) : Bool :=
  d.sends && (eapolKeyMic crypto d.frame.ver kck d.frame).isSome

/-- `wf_wpa_supplicant_decrypt_key_data`. -/
def decryptKeyData (sm : WpaSm) (frame : KeyFrame) : Option (List UInt8) :=
  if sm.ptkSet = false then none
  else if frame.ver = 1 ∧ sm.ptk.kek.length = 16 then
    crypto.rc4Skip (frame.keyIv ++ sm.ptk.kek) frame.keyData
  else if frame.ver = 2 ∨ frame.ver = 3 ∨ cfg.alwaysWraps = true then
    if frame.keyData.length < 8 ∨ frame.keyData.length % 8 ≠ 0 then none
    else crypto.aesUnwrap sm.ptk.kek ((frame.keyData.length - 8) / 8) frame.keyData
  else none

/-! ## The four-way handshake -/

/-- The two Michael keys are the other way round for a supplicant. -/
def swapMicKeys (tk : List UInt8) : List UInt8 :=
  tk.take 16 ++ (tk.drop 24).take 8 ++ (tk.drop 16).take 8

def derivePtk (src snonce anonce : List UInt8) : WpaPtk :=
  let ptk := crypto.pmkToPtk src snonce anonce
  if cfg.pairwiseCipher = .tkip then { ptk with tk := swapMicKeys ptk.tk } else ptk

/-- A new nonce where one is due; `none` when `wf_random_get_bytes` fails, which has then
overwritten the old one. -/
def renew (sm : WpaSm) (d : Delivery) : WpaSm × Bool :=
  if sm.renewSnonce then
    if d.random.1 then ({ sm with snonce := d.random.2, renewSnonce := false }, true)
    else ({ sm with snonce := d.random.2 }, false)
  else (sm, true)

def process1Of4 (sm : WpaSm) (d : Delivery) (keyData : List UInt8) : WpaSm :=
  if cfg.rsnProto = true ∧ parseIes keyData .zero = none then sm
  else
    let renewed := renew sm d
    if renewed.2 = false then renewed.1
    else
      let ptk := derivePtk cfg crypto d.src renewed.1.snonce d.frame.keyNonce
      let sm := { renewed.1 with tptk := ptk, tptkSet := true }
      if replySent crypto d ptk.kck then { sm with anonce := d.frame.keyNonce } else sm

def nullRsc : List UInt8 := List.replicate 8 0

/-- What `wf_wpa_supplicant_install_ptk` gives to the driver. -/
def pairwiseKey (sm : WpaSm) (frame : KeyFrame) : KeySet where
  alg := wpaCipherToAlg cfg.pairwiseCipher
  addr := .bssid
  keyIdx := 0
  setTx := true
  seq := (if cfg.rsnProto then nullRsc else frame.keyRsc).take (wpaCipherRscLen cfg.pairwiseCipher)
  key := sm.ptk.tk.take (wpaCipherKeyLen cfg.pairwiseCipher)

/-- `wf_wpa_supplicant_install_ptk`; the flag tells success. -/
def installPtk (sm : WpaSm) (d : Delivery) : WpaSm × Bool :=
  if cfg.pairwiseCipher = .none then (sm, true)
  else if wpaCipherValidPairwise cfg.pairwiseCipher = false then (sm, false)
  else
    let key := pairwiseKey cfg sm d.frame
    if d.setKey key then
      ({ sm with
          ptk := { sm.ptk with tk := List.replicate 32 0 }
          log := .pairwise d.frame key true :: sm.log }, true)
    else ({ sm with log := .pairwise d.frame key false :: sm.log }, false)

/-- `struct wpa_gtk_data`; `gtk` is its array as far as it is filled. -/
structure GtkData where
  alg : Alg
  tx : Bool
  keyRscLen : Nat
  keyIdx : Nat
  gtk : List UInt8
  gtkLen : Nat

def gtkBuffer (gtk : List UInt8) : List UInt8 := gtk ++ List.replicate (32 - gtk.length) 0

def installGtk (sm : WpaSm) (d : Delivery) (gd : GtkData) (keyRsc : List UInt8) : WpaSm × Bool :=
  let buffer := gtkBuffer gd.gtk
  let gtk := if sm.groupCipher = .tkip then swapMicKeys buffer else buffer
  let key : KeySet := {
    alg := gd.alg
    addr := if cfg.pairwiseCipher = .none then .unset else .broadcast
    keyIdx := gd.keyIdx
    setTx := if cfg.pairwiseCipher = .none then true else gd.tx
    seq := keyRsc.take gd.keyRscLen
    key := gtk.take gd.gtkLen }
  ({ sm with log := .group d.frame key (d.setKey key) :: sm.log }, d.setKey key)

/-- `wf_wpa_supplicant_gtk_tx_bit_workaround`. -/
def gtkTx (tx : Bool) : Bool := tx && cfg.pairwiseCipher = .none

/-- `wf_wpa_supplicant_check_group_cipher`: the length of the counter and the algorithm. -/
def checkGroupCipher (groupCipher : Cipher) (keyLen maxKeyLen : Nat) : Option (Nat × Alg) :=
  if wpaCipherToAlg groupCipher = .none then none
  else if keyLen ≠ wpaCipherKeyLen groupCipher ∨ maxKeyLen < wpaCipherKeyLen groupCipher then none
  else some (wpaCipherRscLen groupCipher, wpaCipherToAlg groupCipher)

/-- The counter to install, `null_rsc` where the received one is taken for corrupt. -/
def relaxedRsc (groupCipher : Cipher) (rsc : List UInt8) : List UInt8 :=
  if wpaCipherRscLen groupCipher = 6 ∧
    ((rsc.getD 5 0 ≠ 0 ∧ rsc.getD 0 0 = 0) ∨ rsc.getD 6 0 ≠ 0 ∨ rsc.getD 7 0 ≠ 0) then nullRsc
  else rsc

/-- `wf_wpa_supplicant_pairwise_gtk`: the key goes to the driver once before its cipher is
looked at, and once after. -/
def pairwiseGtk (sm : WpaSm) (d : Delivery) (gtk : List UInt8) : WpaSm × Bool :=
  if gtk.length < 2 ∨ 32 < gtk.length - 2 then (sm, false)
  else
    let gd : GtkData := {
      alg := .none
      tx := gtkTx cfg ((gtk.getD 0 0).toBitVec.getLsbD 2)
      keyRscLen := 0
      keyIdx := (gtk.getD 0 0).toNat % 4
      gtk := gtk.drop 2
      gtkLen := gtk.length - 2 }
    let keyRsc := relaxedRsc sm.groupCipher d.frame.keyRsc
    let sm := (installGtk cfg sm d gd keyRsc).1
    match checkGroupCipher sm.groupCipher gd.gtkLen gd.gtkLen with
    | none => (sm, false)
    | some (keyRscLen, alg) => installGtk cfg sm d { gd with keyRscLen, alg } keyRsc

/-- `wf_wpa_supplicant_validate_ie`. -/
def validateIe (ie : EapolIes) : Bool :=
  !(!ie.wpaIe && !ie.rsnIe && (cfg.apWpaIe || cfg.apRsnIe)) &&
    !(cfg.wpaProto && ie.rsnIe && !cfg.apRsnIe && cfg.rsnEnabled)

/-- The installation of the group key that comes with message 3. -/
def groupPart (sm : WpaSm) (d : Delivery) (gtk : Option (List UInt8)) : WpaSm × Bool :=
  if sm.groupCipher = .gtkNotUsed then (sm, true)
  else
    match gtk with
    | none => (sm, true)
    | some gtk => pairwiseGtk cfg sm d gtk

/-- The installation of the pairwise key, where message 3 asks for it. -/
def pairwisePart (sm : WpaSm) (d : Delivery) : WpaSm × Bool :=
  if d.frame.install then installPtk cfg sm d else (sm, true)

/-- What message 3 installs, after message 4 is sent. -/
def installKeys (sm : WpaSm) (d : Delivery) (gtk : Option (List UInt8)) : WpaSm :=
  let installed := pairwisePart cfg sm d
  if installed.2 = false then installed.1
  else
    let grouped := groupPart cfg installed.1 d gtk
    if grouped.2 = false then grouped.1 else { grouped.1 with msg3Of4Ok := true }

def process3Of4 (sm : WpaSm) (d : Delivery) (keyData : List UInt8) : WpaSm :=
  match parseIes keyData .zero with
  | none => sm
  | some ie =>
      if ie.gtk.isSome = true ∧ d.frame.encrKeyData = false then sm
      else if validateIe cfg ie = false then sm
      else if sm.anonce ≠ d.frame.keyNonce then sm
      else if d.frame.keyLength.toNat ≠ wpaCipherKeyLen cfg.pairwiseCipher then sm
      else if replySent crypto d sm.ptk.kck = false then sm
      else installKeys cfg { sm with renewSnonce := true } d ie.gtk

/-! ## The group key handshake -/

/-- `wf_wpa_supplicant_process_1_of_2_rsn`. -/
def process1Of2Rsn (sm : WpaSm) (frame : KeyFrame) (keyData : List UInt8) : Option GtkData := do
  let ie ← parseIes keyData .zero
  let gtk ← ie.gtk
  if frame.encrKeyData = false then none
  else
    let (keyRscLen, alg) ← checkGroupCipher sm.groupCipher (gtk.length - 2) (gtk.length - 2)
    if 32 < gtk.length - 2 then none
    else some {
      alg
      tx := gtkTx cfg ((gtk.getD 0 0).toBitVec.getLsbD 2)
      keyRscLen
      keyIdx := (gtk.getD 0 0).toNat % 4
      gtk := gtk.drop 2
      gtkLen := gtk.length - 2 }

/-- The group cipher that a WPA group key handshake announces by the length of its key. -/
def wpaGroupCipher (sm : WpaSm) (frame : KeyFrame) : Cipher :=
  if frame.keyLength = 32 then .tkip
  else if frame.keyLength = 16 then .ccmp
  else sm.groupCipher

/-- The key of a WPA group key handshake, decrypted. -/
def wpaGroupKey (sm : WpaSm) (frame : KeyFrame) (keyData : List UInt8) (maxKeyLen : Nat) :
    Option (List UInt8) :=
  if frame.ver = 1 ∧ sm.ptk.kek.length = 16 then
    if 32 < keyData.length then none
    else crypto.rc4Skip (frame.keyIv ++ sm.ptk.kek) keyData
  else if frame.ver = 2 then
    if maxKeyLen % 8 ≠ 0 then none
    else if 32 < maxKeyLen then none
    else crypto.aesUnwrap sm.ptk.kek (maxKeyLen / 8) keyData
  else none

/-- The length of the key in the key data. -/
def wpaMaxKeyLen (frame : KeyFrame) (keyData : List UInt8) : Nat :=
  if frame.ver = 2 then keyData.length - 8 else keyData.length

/-- `wf_wpa_supplicant_process_1_of_2_wpa` once the group cipher is set. -/
def process1Of2Wpa (sm : WpaSm) (frame : KeyFrame) (keyData : List UInt8) : Option GtkData :=
  let gtkLen := frame.keyLength.toNat
  if frame.ver = 2 ∧ keyData.length < 8 then none
  else
    let maxKeyLen := wpaMaxKeyLen frame keyData
    if maxKeyLen < gtkLen then none
    else do
      let (keyRscLen, alg) ← checkGroupCipher sm.groupCipher gtkLen maxKeyLen
      let gtk ← wpaGroupKey crypto sm frame keyData maxKeyLen
      some { alg, tx := gtkTx cfg frame.txrx, keyRscLen, keyIdx := frame.keyIndex, gtk, gtkLen }

def process1Of2 (sm : WpaSm) (d : Delivery) (keyData : List UInt8) : WpaSm :=
  if sm.msg3Of4Ok = false then sm
  else
    let sm := if cfg.rsnProto then sm else { sm with groupCipher := wpaGroupCipher sm d.frame }
    let gd := if cfg.rsnProto then process1Of2Rsn cfg sm d.frame keyData
      else process1Of2Wpa cfg crypto sm d.frame keyData
    match gd with
    | none => sm
    | some gd => (installGtk cfg sm d gd (relaxedRsc sm.groupCipher d.frame.keyRsc)).1

/-! ## A frame -/

def eapolKeyTypeRsn : UInt8 := 2

def eapolKeyTypeWpa : UInt8 := 254

/-- The message in a frame whose key data is in the clear. -/
def processMessage (sm : WpaSm) (d : Delivery) (keyData : List UInt8) : WpaSm :=
  if d.frame.pairwise then
    if d.frame.keyIndex ≠ 0 then sm
    else if d.frame.mic then process3Of4 cfg crypto sm d keyData
    else process1Of4 cfg crypto sm d keyData
  else if d.frame.mic then process1Of2 cfg crypto sm d keyData
  else sm

/-- The frame once its code is checked. -/
def processChecked (sm : WpaSm) (d : Delivery) : WpaSm :=
  if cfg.rsnEnable = true ∧ d.frame.encrKeyData = true then
    match decryptKeyData cfg crypto sm d.frame with
    | none => sm
    | some keyData => processMessage cfg crypto sm d keyData
  else processMessage cfg crypto sm d d.frame.keyData

/-- `wf_wpa_sm_rx_eapol`. -/
def rxEapol (sm : WpaSm) (d : Delivery) : WpaSm :=
  if d.frame.type ≠ eapolKeyTypeWpa ∧ d.frame.type ≠ eapolKeyTypeRsn then sm
  else if d.frame.mic then
    match verifyEapolKeyMic cfg crypto sm d.frame with
    | none => sm
    | some sm => processChecked cfg crypto sm d
  else processChecked cfg crypto sm d

end Handlers

end Smartchip.Wpa
