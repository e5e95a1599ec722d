import Mathlib.Logic.Function.Basic
import Smartchip.Ap.Auth

/-!
# Keys for the access point

`wf_ap_set_encryption` of `nic/ap.c`.  Beside the new state there is a record of what it touches of
the request and of the copies that it makes into the keys.
-/

namespace Smartchip.Ap

open Smartchip.Foundation Smartchip.Frame Smartchip.Sec

inductive NdisStatus where
  | encryption1Enabled
  | encryptionDisabled
  | other
  deriving DecidableEq

/-- The part of `sec_info_st` that the function uses; each key is a `union Keytype`. -/
structure ApSecInfo where
  dot11AuthAlgrthm : AuthAlgrthm
  dot11PrivacyAlgrthm : EncryptAlgo
  dot11PrivacyKeyIndex : UInt32
  dot11DefKey : Nat → Mem
  dot11DefKeylen : Nat → UInt32
  dot118021XGrpPrivacy : EncryptAlgo
  dot118021XGrpKeyid : UInt32
  dot118021XGrpKey : Nat → Mem
  dot118021XGrptxmickey : Nat → Mem
  dot118021XGrprxmickey : Nat → Mem
  binstallGrpkey : Bool
  busetkipkey : Bool
  ndisencryptstatus : NdisStatus

structure WdnKeys where
  dot118021XPrivacy : EncryptAlgo
  dot11tkiptxmickey : Mem
  dot11tkiprxmickey : Mem
  dot118021xUncstKey : Mem
  ieee8021xBlocked : Bool

/-- `sec_info` and the WDNs by their addresses. -/
structure KeyState where
  sec : ApSecInfo
  wdns : MacAddr → Option WdnKeys

/-- The request of `ieee_param`; `key` goes on behind its end. -/
structure CryptParam where
  staAddr : MacAddr
  alg : Vector UInt8 16
  setTx : UInt8
  idx : UInt8
  keyLen : UInt16
  key : Mem

inductive CryptAlg where
  | none
  | wep
  | tkip
  | ccmp
  | other
  deriving DecidableEq

/-- The comparisons of the name, whose last byte has been set to zero. -/
def CryptParam.cryptAlg (param : CryptParam) : CryptAlg :=
  let name := (param.alg.toList.take 15).takeWhile fun c => c ≠ 0
  if name = [0x6e, 0x6f, 0x6e, 0x65] then .none
  else if name = [0x57, 0x45, 0x50] then .wep
  else if name = [0x54, 0x4b, 0x49, 0x50] then .tkip
  else if name = [0x43, 0x43, 0x4d, 0x50] then .ccmp
  else .other

/-- `param->u.wpa_param.value`, which lies over bytes of the name. -/
def CryptParam.wpaValue (param : CryptParam) : UInt32 :=
  param.alg[4].toUInt32 + param.alg[5].toUInt32 <<< 8 + param.alg[6].toUInt32 <<< 16 +
    param.alg[7].toUInt32 <<< 24

/-- The places that keys are copied to. -/
inductive KeyPlace where
  | defKey (idx : Nat)
  | grpKey (idx : Nat)
  | grpTxMic (idx : Nat)
  | grpRxMic (idx : Nat)
  | uncstKey (mac : MacAddr)
  | tkipTxMic (mac : MacAddr)
  | tkipRxMic (mac : MacAddr)

structure KeyCopy where
  place : KeyPlace
  len : Nat

/-- Bytes of the request. -/
structure Span where
  start : Nat
  len : Nat

structure EncRun where
  state : KeyState
  spans : List Span
  copies : List KeyCopy

structure EncOut where
  res : Int
  run : EncRun

def KeyState.setWdn (s : KeyState) (mac : MacAddr) (change : WdnKeys → WdnKeys) : KeyState :=
  { s with wdns := Function.update s.wdns mac ((s.wdns mac).map change) }

def KeyState.setSec (s : KeyState) (change : ApSecInfo → ApSecInfo) : KeyState :=
  { s with sec := change s.sec }

def storeAt (table : Nat → Mem) (idx : Nat) (bytes : List UInt8) : Nat → Mem :=
  Function.update table idx ((table idx).write 0 bytes)

def KeyState.store (s : KeyState) (bytes : List UInt8) : KeyPlace → KeyState
  | .defKey idx => s.setSec fun sec =>
      { sec with dot11DefKey := storeAt sec.dot11DefKey idx bytes }
  | .grpKey idx => s.setSec fun sec =>
      { sec with dot118021XGrpKey := storeAt sec.dot118021XGrpKey idx bytes }
  | .grpTxMic idx => s.setSec fun sec =>
      { sec with dot118021XGrptxmickey := storeAt sec.dot118021XGrptxmickey idx bytes }
  | .grpRxMic idx => s.setSec fun sec =>
      { sec with dot118021XGrprxmickey := storeAt sec.dot118021XGrprxmickey idx bytes }
  | .uncstKey mac => s.setWdn mac fun w =>
      { w with dot118021xUncstKey := w.dot118021xUncstKey.write 0 bytes }
  | .tkipTxMic mac => s.setWdn mac fun w =>
      { w with dot11tkiptxmickey := w.dot11tkiptxmickey.write 0 bytes }
  | .tkipRxMic mac => s.setWdn mac fun w =>
      { w with dot11tkiprxmickey := w.dot11tkiprxmickey.write 0 bytes }

namespace EncRun

def setSec (run : EncRun) (change : ApSecInfo → ApSecInfo) : EncRun :=
  { run with state := run.state.setSec change }

def setWdn (run : EncRun) (mac : MacAddr) (change : WdnKeys → WdnKeys) : EncRun :=
  { run with state := run.state.setWdn mac change }

/-- `wf_memcpy` from `param->u.crypt.key`, which is 48 bytes behind the start. -/
def copy (run : EncRun) (param : CryptParam) (place : KeyPlace) (ofs len : Nat) : EncRun where
  state := run.state.store (param.key.read ofs len) place
  spans := run.spans ++ [⟨48 + ofs, len⟩]
  copies := run.copies ++ [⟨place, len⟩]

end EncRun

/-- `wext` is for `WF_WEP_AUTH_ENABLE_WEXT`. -/
def wepAuth (wext : Bool) (param : CryptParam) : AuthAlgrthm :=
  if wext then
    if param.wpaValue = 1 then .openSystem
    else if param.wpaValue = 2 then .shared
    else .auto
  else .auto

def wepKeyLen (param : CryptParam) : Nat := if param.keyLen ≤ 5 then 5 else 13

def wepAlgo (param : CryptParam) : EncryptAlgo :=
  if wepKeyLen param = 13 then .wep104 else .wep40

def setWep (wext : Bool) (run : EncRun) (param : CryptParam) : EncRun :=
  let run := run.setSec fun sec => { sec with dot11AuthAlgrthm := wepAuth wext param }
  if param.idx ≥ 4 ∨ param.keyLen = 0 then run
  else if param.setTx ≠ 0 then
    let run := run.setSec fun sec => { sec with
      ndisencryptstatus := .encryption1Enabled
      dot11PrivacyAlgrthm := wepAlgo param
      dot118021XGrpPrivacy := wepAlgo param }
    if param.idx = 0 then
      let run := run.setSec fun sec => { sec with dot11PrivacyKeyIndex := 0 }
      let run := run.copy param (.defKey 0) 0 (wepKeyLen param)
      run.setSec fun sec => { sec with
        dot11DefKeylen := Function.update sec.dot11DefKeylen 0 (UInt32.ofNat (wepKeyLen param)) }
    else run
  else run

/-- Behind a group key that has been stored. -/
def installGroup (run : EncRun) (param : CryptParam) : EncRun :=
  let run := run.setSec fun sec => { sec with
    dot11PrivacyAlgrthm := sec.dot118021XGrpPrivacy
    binstallGrpkey := true }
  run.setWdn param.staAddr fun w => { w with
    dot118021XPrivacy := run.state.sec.dot118021XGrpPrivacy
    ieee8021xBlocked := false }

def setGroupKey (run : EncRun) (param : CryptParam) : EncRun :=
  let idx := param.idx.toNat
  match param.cryptAlg with
  | .tkip =>
      let run := run.setSec fun sec => { sec with
        dot118021XGrpPrivacy := .tkip
        dot118021XGrpKeyid := param.idx.toUInt32 }
      let run := run.copy param (.grpKey idx) 0 (min param.keyLen.toNat 16)
      let run := run.copy param (.grpTxMic idx) 16 8
      let run := run.copy param (.grpRxMic idx) 24 8
      installGroup (run.setSec fun sec => { sec with busetkipkey := true }) param
  | .ccmp =>
      let run := run.setSec fun sec => { sec with
        dot118021XGrpPrivacy := .aes
        dot118021XGrpKeyid := param.idx.toUInt32 }
      installGroup (run.copy param (.grpKey idx) 0 (min param.keyLen.toNat 16)) param
  | _ => run

def setUnicastKey (run : EncRun) (param : CryptParam) : EncRun :=
  let mac := param.staAddr
  let run := run.copy param (.uncstKey mac) 0 (min param.keyLen.toNat 16)
  match param.cryptAlg with
  | .tkip =>
      let run := run.setWdn mac fun w => { w with dot118021XPrivacy := .tkip }
      let run := run.copy param (.tkipTxMic mac) 16 8
      let run := run.copy param (.tkipRxMic mac) 24 8
      run.setSec fun sec => { sec with busetkipkey := true }
  | .ccmp => run.setWdn mac fun w => { w with dot118021XPrivacy := .aes }
  | .none => run.setWdn mac fun w => { w with dot118021XPrivacy := .noPrivacy }
  | _ => run

/-- The key of a station under 802.1X, and the port that is opened behind it. -/
def setPairwiseKey (run : EncRun) (param : CryptParam) : EncRun :=
  let run := if param.setTx = 1 then setUnicastKey run param else run
  run.setWdn param.staAddr fun w => { w with ieee8021xBlocked := false }

/-- Without a station: the algorithm is cleared, or a default or group key set. -/
def setDefault (wext : Bool) (run : EncRun) (param : CryptParam) : EncOut :=
  match param.cryptAlg with
  | .none => ⟨0, run.setSec fun sec => { sec with
      dot11AuthAlgrthm := .openSystem
      ndisencryptstatus := .encryptionDisabled
      dot11PrivacyAlgrthm := .noPrivacy
      dot118021XGrpPrivacy := .noPrivacy }⟩
  | .wep => ⟨-22, setWep wext run param⟩
  | _ => ⟨0, setGroupKey run param⟩

/-- `err`, the end of `alg` and `key_len` are touched before the length is known to suffice. -/
def beforeCheck (s : KeyState) : EncRun := ⟨s, [⟨32, 4⟩, ⟨27, 1⟩, ⟨46, 2⟩], []⟩

/-- The other fields before the key. -/
def afterCheck (s : KeyState) : EncRun := ⟨s, (beforeCheck s).spans ++ [⟨0, 48⟩], []⟩

def wfApSetEncryption (wext : Bool) (s : KeyState) (param : CryptParam) (paramLen : UInt32) :
    EncOut :=
  if paramLen.toNat < 48 + param.keyLen.toNat then ⟨-22, beforeCheck s⟩
  else if isBcastAddr param.staAddr.toList then
    if param.idx ≥ 4 then ⟨-22, afterCheck s⟩ else setDefault wext (afterCheck s) param
  else
    match s.wdns param.staAddr with
    | none => ⟨0, afterCheck s⟩
    | some _ =>
        if s.sec.dot11AuthAlgrthm = .ieee8021x then ⟨0, setPairwiseKey (afterCheck s) param⟩
        else ⟨0, afterCheck s⟩

/-! ## What is to hold -/

/-- A place of 16 bytes that there is. -/
def KeyPlace.Exists (s : KeyState) : KeyPlace → Prop
  | .defKey idx | .grpKey idx | .grpTxMic idx | .grpRxMic idx => idx < 4
  | .uncstKey mac | .tkipTxMic mac | .tkipRxMic mac => s.wdns mac ≠ none

/-- The request has no effect when it fails. -/
def FailsClean (s : KeyState) (out : EncOut) : Prop := out.res ≠ 0 → out.run.state = s

structure InBounds (s : KeyState) (paramLen : UInt32) (run : EncRun) : Prop where
  reads : ∀ span ∈ run.spans, span.start + span.len ≤ paramLen.toNat
  writes : ∀ copy ∈ run.copies, copy.place.Exists s ∧ copy.len ≤ 16

/-- The call has stored a pairwise key for the station and set its cipher, or it has been asked to
do without one. -/
def KeyStored (param : CryptParam) (run : EncRun) (mac : MacAddr) (w : WdnKeys) : Prop :=
  (∃ copy ∈ run.copies, copy.place = .uncstKey mac ∧ 0 < copy.len ∧
      w.dot118021xUncstKey.read 0 copy.len = param.key.read 0 copy.len) ∧
      (param.cryptAlg = .tkip ∧ w.dot118021XPrivacy = .tkip ∨
        param.cryptAlg = .ccmp ∧ w.dot118021XPrivacy = .aes) ∨
    param.cryptAlg = .none ∧ param.setTx = 1 ∧ w.dot118021XPrivacy = .noPrivacy

/-- The port of a station is opened behind its key only. -/
def OpensWithKey (s : KeyState) (param : CryptParam) (run : EncRun) : Prop :=
  ∀ mac before after, isBcastAddr mac.toList = false → s.wdns mac = some before →
    run.state.wdns mac = some after → before.ieee8021xBlocked = true →
    after.ieee8021xBlocked = false → KeyStored param run mac after

structure InstallsKeys (s : KeyState) (param : CryptParam) (paramLen : UInt32) (out : EncOut) :
    Prop where
  clean : FailsClean s out
  bounds : InBounds s paramLen out.run
  opens : s.sec.dot11AuthAlgrthm = .ieee8021x → OpensWithKey s param out.run

/-! ## When it does -/

def LengthOk (param : CryptParam) (paramLen : UInt32) : Prop :=
  48 + param.keyLen.toNat ≤ paramLen.toNat

/-- The request is for the default or the group keys. -/
def ForGroup (param : CryptParam) : Prop :=
  isBcastAddr param.staAddr.toList = true ∧ param.idx < 4

/-- The request is for a station under 802.1X. -/
def ForStation (s : KeyState) (param : CryptParam) : Prop :=
  isBcastAddr param.staAddr.toList = false ∧ s.wdns param.staAddr ≠ none ∧
    s.sec.dot11AuthAlgrthm = .ieee8021x

/-- WEP is already set as the request asks. -/
def WepSet (wext : Bool) (sec : ApSecInfo) (param : CryptParam) : Prop :=
  sec.dot11AuthAlgrthm = wepAuth wext param ∧
    (param.keyLen = 0 ∨ param.setTx = 0 ∨
      sec.ndisencryptstatus = .encryption1Enabled ∧
        sec.dot11PrivacyAlgrthm = wepAlgo param ∧ sec.dot118021XGrpPrivacy = wepAlgo param ∧
        (param.idx = 0 → sec.dot11PrivacyKeyIndex = 0 ∧
          (sec.dot11DefKey 0).read 0 (wepKeyLen param) = param.key.read 0 (wepKeyLen param) ∧
          sec.dot11DefKeylen 0 = UInt32.ofNat (wepKeyLen param)))

/-- The bytes behind the header that the request is taken to have. -/
def KeyBytes (s : KeyState) (param : CryptParam) : Nat → Prop
  | n => ForGroup param ∧ param.cryptAlg = .wep ∧ param.idx = 0 ∧ param.keyLen ≠ 0 ∧
        param.setTx ≠ 0 ∧ n = wepKeyLen param ∨
      (ForGroup param ∨ ForStation s param ∧ param.setTx = 1) ∧ param.cryptAlg = .tkip ∧ n = 32

structure KeysAllowed (wext : Bool) (s : KeyState) (param : CryptParam) (paramLen : UInt32) :
    Prop where
  header : 48 ≤ paramLen.toNat
  key : LengthOk param paramLen → ∀ n, KeyBytes s param n → 48 + n ≤ paramLen.toNat
  wep : LengthOk param paramLen → ForGroup param → param.cryptAlg = .wep → WepSet wext s.sec param
  port : LengthOk param paramLen → ForStation s param →
    (∃ w ∈ s.wdns param.staAddr, w.ieee8021xBlocked = true) → param.setTx = 1 ∧
      (param.cryptAlg = .none ∨
        (param.cryptAlg = .tkip ∨ param.cryptAlg = .ccmp) ∧ param.keyLen ≠ 0)

/-! ## What a call does -/

inductive EncCase (wext : Bool) (s : KeyState) (param : CryptParam) (paramLen : UInt32) :
    EncOut → Prop
  | short (long : ¬ LengthOk param paramLen) : EncCase wext s param paramLen ⟨-22, beforeCheck s⟩
  | idle (res : Int) (long : LengthOk param paramLen) (group : ¬ ForGroup param)
      (station : ¬ ForStation s param) : EncCase wext s param paramLen ⟨res, afterCheck s⟩
  | group (long : LengthOk param paramLen) (group : ForGroup param) :
      EncCase wext s param paramLen (setDefault wext (afterCheck s) param)
  | station (long : LengthOk param paramLen) (station : ForStation s param) :
      EncCase wext s param paramLen ⟨0, setPairwiseKey (afterCheck s) param⟩

section Calls

variable {wext : Bool} {s : KeyState} {param : CryptParam} {paramLen : UInt32} {out : EncOut}

theorem encCase (wext : Bool) (s : KeyState) (param : CryptParam) (paramLen : UInt32) :
    EncCase wext s param paramLen (wfApSetEncryption wext s param paramLen) := by
  unfold wfApSetEncryption
  split_ifs with short bcast large auth
  · exact .short (Nat.not_le.mpr short)
  · apply EncCase.idle _ (Nat.le_of_not_lt short)
    · exact fun group => absurd group.2 (UInt8.not_lt.mpr large)
    · simp [ForStation, bcast]
  · exact .group (Nat.le_of_not_lt short) ⟨bcast, UInt8.not_le.mp large⟩
  · cases found : s.wdns param.staAddr with
    | none =>
        exact .idle 0 (Nat.le_of_not_lt short) (by simp [ForGroup, bcast])
          (by simp [ForStation, found])
    | some w =>
        exact .station (Nat.le_of_not_lt short) ⟨by simpa using bcast, by simp [found], auth⟩
  · cases s.wdns param.staAddr with
    | _ =>
        exact .idle 0 (Nat.le_of_not_lt short) (by simp [ForGroup, bcast])
          (by simp [ForStation, auth])

theorem ForStation.not_group (station : ForStation s param) : ¬ ForGroup param := by
  simp [ForGroup, station.1]

theorem ForGroup.not_station (group : ForGroup param) : ¬ ForStation s param := by
  simp [ForStation, group.1]

/-! ## A request that fails -/

theorem write_eq_self_iff (mem : Mem) (addr : Nat) (bytes : List UInt8) :
    mem.write addr bytes = mem ↔ mem.read addr bytes.length = bytes := by
  constructor
  · intro same
    calc
      mem.read addr bytes.length = (mem.write addr bytes).read addr bytes.length := by rw [same]
      _ = bytes := Mem.read_write_self mem addr bytes
  · intro same
    calc
      mem.write addr bytes = mem.write addr (mem.read addr bytes.length) := by rw [same]
      _ = mem := Mem.write_read mem addr bytes.length

/-- WEP changes nothing exactly when it is set already. -/
theorem setWep_state (run : EncRun) (small : param.idx < 4) :
    (setWep wext run param).state = run.state ↔ WepSet wext run.state.sec param := by
  have inTable : ¬ param.idx ≥ 4 := UInt8.not_le.mpr small
  obtain ⟨⟨sec, wdns⟩, spans, copies⟩ := run
  cases sec
  unfold setWep WepSet
  by_cases empty : param.keyLen = 0
  · simp [empty, EncRun.setSec, KeyState.setSec, eq_comm]
  · by_cases off : param.setTx = 0
    · simp [empty, off, inTable, EncRun.setSec, KeyState.setSec, eq_comm]
    · by_cases zero : param.idx = 0
      · simp [empty, off, zero, EncRun.setSec, KeyState.setSec, EncRun.copy, KeyState.store,
          storeAt, Function.update_eq_self_iff, write_eq_self_iff]
        grind
      · simp [empty, off, inTable, zero, EncRun.setSec, KeyState.setSec]
        grind

@[simp] theorem state_afterCheck (s : KeyState) : (afterCheck s).state = s := rfl

theorem failsClean_iff (call : EncCase wext s param paramLen out) : FailsClean s out ↔
    (LengthOk param paramLen → ForGroup param → param.cryptAlg = .wep →
      WepSet wext s.sec param) := by
  cases call with
  | short long => simp [FailsClean, beforeCheck, long]
  | idle res long group station => simp [FailsClean, afterCheck, group]
  | group long group =>
      unfold setDefault
      cases alg : param.cryptAlg with
      | wep => simpa [FailsClean, long, group] using setWep_state (afterCheck s) group.2
      | _ => simp [FailsClean]
  | station long station => simp [FailsClean, station.not_group]

/-! ## The bounds -/

@[simp] theorem spans_setSec (run : EncRun) (change : ApSecInfo → ApSecInfo) :
    (run.setSec change).spans = run.spans := rfl

@[simp] theorem copies_setSec (run : EncRun) (change : ApSecInfo → ApSecInfo) :
    (run.setSec change).copies = run.copies := rfl

@[simp] theorem spans_setWdn (run : EncRun) (mac : MacAddr) (change : WdnKeys → WdnKeys) :
    (run.setWdn mac change).spans = run.spans := rfl

@[simp] theorem copies_setWdn (run : EncRun) (mac : MacAddr) (change : WdnKeys → WdnKeys) :
    (run.setWdn mac change).copies = run.copies := rfl

@[simp] theorem spans_copy (run : EncRun) (place : KeyPlace) (ofs len : Nat) :
    (run.copy param place ofs len).spans = run.spans ++ [⟨48 + ofs, len⟩] := rfl

@[simp] theorem copies_copy (run : EncRun) (place : KeyPlace) (ofs len : Nat) :
    (run.copy param place ofs len).copies = run.copies ++ [⟨place, len⟩] := rfl

theorem wepKeyLen_le (param : CryptParam) : wepKeyLen param ≤ 16 := by
  unfold wepKeyLen
  split_ifs <;> decide

theorem inBounds_and (run : EncRun) : InBounds s paramLen run ↔
    (∀ span ∈ run.spans, span.start + span.len ≤ paramLen.toNat) ∧
      ∀ copy ∈ run.copies, copy.place.Exists s ∧ copy.len ≤ 16 :=
  ⟨fun bounds => ⟨bounds.reads, bounds.writes⟩, fun both => ⟨both.1, both.2⟩⟩

theorem inBounds_beforeCheck : InBounds s paramLen (beforeCheck s) ↔ 48 ≤ paramLen.toNat := by
  rw [inBounds_and]
  simp [beforeCheck]
  omega

theorem inBounds_afterCheck : InBounds s paramLen (afterCheck s) ↔ 48 ≤ paramLen.toNat := by
  rw [inBounds_and]
  simp [afterCheck, beforeCheck]
  omega

/-- Another copy from the request. -/
theorem inBounds_copy (run : EncRun) {place : KeyPlace} {ofs len : Nat} (known : place.Exists s)
    (fits : len ≤ 16) : InBounds s paramLen (run.copy param place ofs len) ↔
      InBounds s paramLen run ∧ 48 + ofs + len ≤ paramLen.toNat := by
  simp only [inBounds_and, spans_copy, copies_copy, List.forall_mem_append,
    List.forall_mem_singleton]
  constructor
  · exact fun all => ⟨⟨all.1.1, all.2.1⟩, all.1.2⟩
  · exact fun all => ⟨⟨all.1.1, all.2⟩, all.1.2, known, fits⟩

@[simp] theorem inBounds_setSec (run : EncRun) (change : ApSecInfo → ApSecInfo) :
    InBounds s paramLen (run.setSec change) ↔ InBounds s paramLen run := by
  simp [inBounds_and]

@[simp] theorem inBounds_setWdn (run : EncRun) (mac : MacAddr) (change : WdnKeys → WdnKeys) :
    InBounds s paramLen (run.setWdn mac change) ↔ InBounds s paramLen run := by
  simp [inBounds_and]

theorem inBounds_setWep (run : EncRun) (small : param.idx < 4) :
    InBounds s paramLen (setWep wext run param) ↔ InBounds s paramLen run ∧
      (param.idx = 0 → param.keyLen ≠ 0 → param.setTx ≠ 0 →
        48 + wepKeyLen param ≤ paramLen.toNat) := by
  have inTable : ¬ param.idx ≥ 4 := UInt8.not_le.mpr small
  have known : (KeyPlace.defKey 0).Exists s := by simp [KeyPlace.Exists]
  unfold setWep
  by_cases empty : param.keyLen = 0
  · simp [empty]
  · by_cases off : param.setTx = 0
    · simp [empty, off, inTable]
    · by_cases zero : param.idx = 0
      · simp [empty, off, zero, inBounds_copy _ known (wepKeyLen_le param)]
      · simp [empty, off, inTable, zero]

theorem inBounds_setGroupKey (run : EncRun) (small : param.idx < 4)
    (long : LengthOk param paramLen) : InBounds s paramLen (setGroupKey run param) ↔
      InBounds s paramLen run ∧ (param.cryptAlg = .tkip → 80 ≤ paramLen.toNat) := by
  have key : (KeyPlace.grpKey param.idx.toNat).Exists s := small
  have txMic : (KeyPlace.grpTxMic param.idx.toNat).Exists s := small
  have rxMic : (KeyPlace.grpRxMic param.idx.toNat).Exists s := small
  have short : min param.keyLen.toNat 16 ≤ 16 := Nat.min_le_right _ _
  have eight : 8 ≤ 16 := by decide
  have inside : 48 + min param.keyLen.toNat 16 ≤ paramLen.toNat :=
    Nat.le_trans (Nat.add_le_add_left (Nat.min_le_left _ _) _) long
  unfold setGroupKey
  cases param.cryptAlg with
  | tkip =>
      simp only [installGroup, inBounds_setWdn, inBounds_setSec, inBounds_copy _ rxMic eight,
        inBounds_copy _ txMic eight, inBounds_copy _ key short]
      constructor
      · exact fun all => ⟨all.1.1.1, fun _ => by omega⟩
      · exact fun all => ⟨⟨⟨all.1, by omega⟩, by have := all.2 trivial; omega⟩,
          all.2 trivial⟩
  | ccmp =>
      simp [installGroup, inBounds_copy _ key short, inside]
  | _ => simp

theorem inBounds_setPairwiseKey (run : EncRun) (station : ForStation s param)
    (long : LengthOk param paramLen) : InBounds s paramLen (setPairwiseKey run param) ↔
      InBounds s paramLen run ∧
        (param.setTx = 1 → param.cryptAlg = .tkip → 80 ≤ paramLen.toNat) := by
  have key : (KeyPlace.uncstKey param.staAddr).Exists s := station.2.1
  have txMic : (KeyPlace.tkipTxMic param.staAddr).Exists s := station.2.1
  have rxMic : (KeyPlace.tkipRxMic param.staAddr).Exists s := station.2.1
  have short : min param.keyLen.toNat 16 ≤ 16 := Nat.min_le_right _ _
  have eight : 8 ≤ 16 := by decide
  have inside : 48 + min param.keyLen.toNat 16 ≤ paramLen.toNat :=
    Nat.le_trans (Nat.add_le_add_left (Nat.min_le_left _ _) _) long
  unfold setPairwiseKey setUnicastKey
  split_ifs with tx
  · cases param.cryptAlg with
    | tkip =>
        simp only [inBounds_setWdn, inBounds_setSec, inBounds_copy _ rxMic eight,
          inBounds_copy _ txMic eight, inBounds_copy _ key short]
        constructor
        · exact fun all => ⟨all.1.1.1, fun _ _ => by omega⟩
        · exact fun all => ⟨⟨⟨all.1, by omega⟩, by have := all.2 tx trivial; omega⟩,
            all.2 tx trivial⟩
    | _ => simp [inBounds_copy _ key short, inside]
  · simp [tx]

theorem inBounds_iff (call : EncCase wext s param paramLen out) :
    InBounds s paramLen out.run ↔ 48 ≤ paramLen.toNat ∧
      (LengthOk param paramLen → ∀ n, KeyBytes s param n → 48 + n ≤ paramLen.toNat) := by
  cases call with
  | short long => simp [inBounds_beforeCheck, long]
  | idle res long group station => simp [inBounds_afterCheck, KeyBytes, group, station]
  | group long group =>
      unfold setDefault KeyBytes
      cases alg : param.cryptAlg with
      | none => simp [inBounds_afterCheck]
      | wep =>
          simp only [inBounds_setWep _ group.2, inBounds_afterCheck]
          grind
      | _ =>
          simp only [inBounds_setGroupKey _ group.2 long, inBounds_afterCheck]
          grind
  | station long station =>
      simp only [inBounds_setPairwiseKey _ station long, inBounds_afterCheck, KeyBytes]
      have single := station.not_group
      grind

/-! ## The port -/

@[simp] theorem wdns_setSec (run : EncRun) (change : ApSecInfo → ApSecInfo) :
    (run.setSec change).state.wdns = run.state.wdns := rfl

@[simp] theorem wdns_setWdn (run : EncRun) (mac : MacAddr) (change : WdnKeys → WdnKeys) :
    (run.setWdn mac change).state.wdns mac = (run.state.wdns mac).map change := by
  simp [EncRun.setWdn, KeyState.setWdn]

theorem wdns_setWdn_other (run : EncRun) {mac other : MacAddr} (ne : other ≠ mac)
    (change : WdnKeys → WdnKeys) :
    (run.setWdn mac change).state.wdns other = run.state.wdns other := by
  simp [EncRun.setWdn, KeyState.setWdn, ne]

/-- The station that a place belongs to. -/
def KeyPlace.station : KeyPlace → Option MacAddr
  | .uncstKey mac | .tkipTxMic mac | .tkipRxMic mac => some mac
  | .defKey _ | .grpKey _ | .grpTxMic _ | .grpRxMic _ => none

theorem wdns_copy_other (run : EncRun) {place : KeyPlace} {mac : MacAddr} (ofs len : Nat)
    (other : ¬ place.station = some mac) :
    (run.copy param place ofs len).state.wdns mac = run.state.wdns mac := by
  cases place with
  | uncstKey owner | tkipTxMic owner | tkipRxMic owner =>
      have ne : mac ≠ owner := by
        rintro rfl
        exact other rfl
      simp [EncRun.copy, KeyState.store, KeyState.setWdn, ne]
  | _ => rfl

@[simp] theorem wdns_copy_uncstKey (run : EncRun) (mac : MacAddr) (ofs len : Nat) :
    (run.copy param (.uncstKey mac) ofs len).state.wdns mac =
      (run.state.wdns mac).map fun w =>
        { w with dot118021xUncstKey := w.dot118021xUncstKey.write 0 (param.key.read ofs len) } := by
  simp [EncRun.copy, KeyState.store, KeyState.setWdn]

@[simp] theorem wdns_copy_tkipTxMic (run : EncRun) (mac : MacAddr) (ofs len : Nat) :
    (run.copy param (.tkipTxMic mac) ofs len).state.wdns mac =
      (run.state.wdns mac).map fun w =>
        { w with dot11tkiptxmickey := w.dot11tkiptxmickey.write 0 (param.key.read ofs len) } := by
  simp [EncRun.copy, KeyState.store, KeyState.setWdn]

@[simp] theorem wdns_copy_tkipRxMic (run : EncRun) (mac : MacAddr) (ofs len : Nat) :
    (run.copy param (.tkipRxMic mac) ofs len).state.wdns mac =
      (run.state.wdns mac).map fun w =>
        { w with dot11tkiprxmickey := w.dot11tkiprxmickey.write 0 (param.key.read ofs len) } := by
  simp [EncRun.copy, KeyState.store, KeyState.setWdn]

/-- A call for the group leaves the stations alone. -/
theorem wdns_setDefault (run : EncRun) {mac : MacAddr} (other : mac ≠ param.staAddr) :
    (setDefault wext run param).run.state.wdns mac = run.state.wdns mac := by
  unfold setDefault setWep setGroupKey installGroup
  cases param.cryptAlg with
  | wep =>
      dsimp only
      split_ifs <;> simp [wdns_copy_other, KeyPlace.station]
  | _ => simp [wdns_setWdn_other _ other, wdns_copy_other, KeyPlace.station]

theorem wdns_setPairwiseKey_other (run : EncRun) {mac : MacAddr} (other : mac ≠ param.staAddr) :
    (setPairwiseKey run param).state.wdns mac = run.state.wdns mac := by
  unfold setPairwiseKey setUnicastKey
  rw [wdns_setWdn_other _ other]
  split_ifs
  · cases param.cryptAlg <;>
      simp [wdns_setWdn_other _ other, wdns_copy_other, KeyPlace.station, Ne.symm other]
  · rfl

/-- A call for a station opens its port. -/
theorem opened_setPairwiseKey (run : EncRun) {before : WdnKeys}
    (found : run.state.wdns param.staAddr = some before) :
    ∃ after, (setPairwiseKey run param).state.wdns param.staAddr = some after ∧
      after.ieee8021xBlocked = false := by
  unfold setPairwiseKey setUnicastKey
  split_ifs
  · cases param.cryptAlg <;> simp [found]
  · simp [found]

/-- A key for the station is copied only when the request says so. -/
theorem uncstKey_mem (s : KeyState) {copy : KeyCopy}
    (member : copy ∈ (setPairwiseKey (afterCheck s) param).copies)
    (place : copy.place = .uncstKey param.staAddr) :
    param.setTx = 1 ∧ copy.len = min param.keyLen.toNat 16 := by
  unfold setPairwiseKey setUnicastKey at member
  split_ifs at member with tx
  · refine ⟨tx, ?_⟩
    cases alg : param.cryptAlg with
    | tkip =>
        simp [alg, afterCheck] at member
        rcases member with rfl | rfl | rfl
        · rfl
        · cases place
        · cases place
    | _ =>
        simp [alg, afterCheck] at member
        rw [member]
  · simp [afterCheck] at member

theorem read_write_read (mem key : Mem) (n : Nat) :
    (mem.write 0 (key.read 0 n)).read 0 n = key.read 0 n := by
  simpa using Mem.read_write_self mem 0 (key.read 0 n)

theorem opens_station (station : ForStation s param) :
    OpensWithKey s param (setPairwiseKey (afterCheck s) param) ↔
      ((∃ w ∈ s.wdns param.staAddr, w.ieee8021xBlocked = true) → param.setTx = 1 ∧
        (param.cryptAlg = .none ∨
          (param.cryptAlg = .tkip ∨ param.cryptAlg = .ccmp) ∧ param.keyLen ≠ 0)) := by
  constructor
  · rintro opens ⟨w, found, blocked⟩
    obtain ⟨after, foundAfter, opened⟩ := opened_setPairwiseKey (afterCheck s) found
    have stored := opens param.staAddr w after station.1 found foundAfter blocked opened
    rcases stored with ⟨⟨copy, member, place, pos, -⟩, cipher⟩ | ⟨none, tx, -⟩
    · obtain ⟨tx, len⟩ := uncstKey_mem s member place
      refine ⟨tx, .inr ⟨cipher.imp And.left And.left, ?_⟩⟩
      intro empty
      simp [len, empty] at pos
    · exact ⟨tx, .inl none⟩
  · intro allowed mac before after single found foundAfter blocked opened
    by_cases same : mac = param.staAddr
    · subst same
      obtain ⟨tx, kind⟩ := allowed ⟨before, found, blocked⟩
      unfold setPairwiseKey setUnicastKey at foundAfter
      unfold KeyStored setPairwiseKey setUnicastKey
      rcases kind with none | ⟨cipher, some⟩
      · simp [tx, none, found] at foundAfter
        simp [none, tx, ← foundAfter]
      · have pos : 0 < min param.keyLen.toNat 16 :=
          Nat.lt_min.mpr ⟨UInt16.pos_iff_ne_zero.mpr some, by decide⟩
        have stored := read_write_read before.dot118021xUncstKey param.key
          (min param.keyLen.toNat 16)
        rcases cipher with tkip | ccmp
        · simp [tx, tkip, found] at foundAfter
          simp [tkip, tx, ← foundAfter]
          exact ⟨⟨.uncstKey param.staAddr, _⟩, .inr (.inl rfl), rfl, pos, stored⟩
        · simp [tx, ccmp, found] at foundAfter
          simp [ccmp, tx, ← foundAfter]
          exact .inr ⟨by omega, stored⟩
    · rw [wdns_setPairwiseKey_other _ same, state_afterCheck, found] at foundAfter
      cases foundAfter
      simp [blocked] at opened

theorem opens_iff (call : EncCase wext s param paramLen out) :
    OpensWithKey s param out.run ↔ (LengthOk param paramLen → ForStation s param →
      (∃ w ∈ s.wdns param.staAddr, w.ieee8021xBlocked = true) → param.setTx = 1 ∧
        (param.cryptAlg = .none ∨
          (param.cryptAlg = .tkip ∨ param.cryptAlg = .ccmp) ∧ param.keyLen ≠ 0)) := by
  have kept {run : EncRun} (same : ∀ mac, isBcastAddr mac.toList = false →
      run.state.wdns mac = s.wdns mac) : OpensWithKey s param run := by
    intro mac before after single found foundAfter blocked opened
    rw [same mac single, found, Option.some.injEq] at foundAfter
    rw [← foundAfter, blocked] at opened
    cases opened
  cases call with
  | short long => exact iff_of_true (kept fun mac _ => rfl) fun ok => absurd ok long
  | idle res long group station =>
      exact iff_of_true (kept fun mac _ => rfl) fun _ ok => absurd ok station
  | group long group =>
      refine iff_of_true (kept fun mac single => ?_) fun _ ok => absurd ok group.not_station
      apply wdns_setDefault
      rintro rfl
      simp [group.1] at single
  | station long station => simp [opens_station station, long, station]

end Calls

/--
A request is handled as it should be exactly when it is long enough for what is read of it, WEP is
not asked for unless it is set already, and the port of a station that is blocked is not opened
without a key.
-/
theorem installs_keys_iff (wext : Bool) (s : KeyState) (param : CryptParam) (paramLen : UInt32) :
    InstallsKeys s param paramLen (wfApSetEncryption wext s param paramLen) ↔
      KeysAllowed wext s param paramLen := by
  have call := encCase wext s param paramLen
  have clean := failsClean_iff call
  have bounds := inBounds_iff call
  have opens := opens_iff call
  constructor
  · intro installs
    have inside := bounds.mp installs.bounds
    refine ⟨inside.1, inside.2, clean.mp installs.clean, ?_⟩
    intro long station
    exact opens.mp (installs.opens station.2.2) long station
  · intro allowed
    refine ⟨clean.mpr allowed.wep, bounds.mpr ⟨allowed.header, allowed.key⟩, ?_⟩
    exact fun _ => opens.mpr allowed.port

def someStation : MacAddr := #v[0x02, 0, 0, 0, 0, 0x05]

/-- A station that waits for its pairwise key. -/
def waitsForKey : KeyState where
  sec := {
    dot11AuthAlgrthm := .ieee8021x
    dot11PrivacyAlgrthm := .noPrivacy
    dot11PrivacyKeyIndex := 0
    dot11DefKey := fun _ _ => 0
    dot11DefKeylen := fun _ => 0
    dot118021XGrpPrivacy := .noPrivacy
    dot118021XGrpKeyid := 0
    dot118021XGrpKey := fun _ _ => 0
    dot118021XGrptxmickey := fun _ _ => 0
    dot118021XGrprxmickey := fun _ _ => 0
    binstallGrpkey := false
    busetkipkey := false
    ndisencryptstatus := .other }
  wdns := fun mac =>
    if mac = someStation then some ⟨.noPrivacy, fun _ => 0, fun _ => 0, fun _ => 0, true⟩ else none

/-- A key of 16 bytes for CCMP, with `set_tx` off. -/
def ccmpWithoutTx : CryptParam where
  staAddr := someStation
  alg := #v[0x43, 0x43, 0x4d, 0x50, 0, 0, 0, 0, 0, 0, 0, 0, 0, 0, 0, 0]
  setTx := 0
  idx := 0
  keyLen := 16
  key := fun _ => 7

/-- The port is opened although no key has been stored. -/
theorem port_opened_without_key :
    ((wfApSetEncryption false waitsForKey ccmpWithoutTx 64).run.state.wdns someStation).map
        (fun w => (w.ieee8021xBlocked, w.dot118021XPrivacy)) = some (false, .noPrivacy) ∧
      (wfApSetEncryption false waitsForKey ccmpWithoutTx 64).run.copies.length = 0 ∧
      ¬ InstallsKeys waitsForKey ccmpWithoutTx 64
        (wfApSetEncryption false waitsForKey ccmpWithoutTx 64) := by
  have opened : ((wfApSetEncryption false waitsForKey ccmpWithoutTx 64).run.state.wdns
      someStation).map (fun w => (w.ieee8021xBlocked, w.dot118021XPrivacy)) =
        some (false, .noPrivacy) := by decide +kernel
  have none : (wfApSetEncryption false waitsForKey ccmpWithoutTx 64).run.copies.length = 0 := by
    decide +kernel
  refine ⟨opened, none, ?_⟩
  intro installs
  obtain ⟨after, found, same⟩ := Option.map_eq_some_iff.mp opened
  rw [Prod.mk.injEq] at same
  have stored := installs.opens rfl someStation _ after (by decide +kernel) rfl found rfl same.1
  rcases stored with ⟨⟨copy, member, -⟩, -⟩ | ⟨-, tx, -⟩
  · rw [List.length_eq_zero_iff.mp none] at member
    cases member
  · exact absurd tx (by decide)

end Smartchip.Ap
