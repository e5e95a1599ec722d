import Smartchip.Ap.AssocAccess
import Smartchip.Foundation.Run

/-!
# The bounds of association at an access point

What a request has to be like for the thread to keep inside of everything that it accesses,
with a response that is as long as what has been written.
-/

namespace Smartchip.Ap

open Smartchip.Foundation Smartchip.Frame

namespace Bounds

/-! ## Requests that fit -/

section Fits

variable (m : ApMsg) (pie : Nat)

structure SsidFits (net : ApNetwork) : Prop where
  whole : pie + 2 + ieSize m.mgmt pie ≤ m.len.toNat
  compared : ieSize m.mgmt pie = net.ssid.length → net.ssid.length ≤ 33
  stored : (readIe m.mgmt pie).data = net.ssid → net.ssid.length < 32

/-- How many of the rates are looked at, the last one of which may be refused. -/
def ratesLooked (limit : Nat) (rate : List UInt8) : Nat → List UInt8 → Nat
  | _, [] => 0
  | len, byte :: rest =>
      match addRate limit rate len byte with
      | .error _ => 1
      | .ok len => ratesLooked limit rate len rest + 1

/-- A list that is not too long is looked at when there is a rate to compare with. -/
structure RatesFit (limit : Nat) (rate : List UInt8) (len : Nat) : Prop where
  header : pie + 2 ≤ m.len.toNat
  rates : ieSize m.mgmt pie ≤ limit → rate.takeWhile (· ≠ 0) ≠ [] →
    pie + 2 + ratesLooked limit rate len (readIe m.mgmt pie).data ≤ m.len.toNat

/-- The frame has what the parser looks at, which gives up on an element of 254 or 255
bytes. -/
structure SuitesFit (f : SuiteFormat) : Prop where
  header : pie + 2 ≤ m.len.toNat
  suites : ieSize m.mgmt pie ≤ 253 →
    pie + 2 + (f.outcome (fromIe m.mgmt pie) (ieSize m.mgmt pie)).reach f.pre
      (f.count (fromIe m.mgmt pie)) ≤ m.len.toNat

structure RsnFits (sec : AssocSec) (s : AssocLoop) : Prop where
  suites : SuitesFit m pie rsnFormat
  kept : (rsnElement sec (readIe m.mgmt pie) s).toBool →
    pie + min 32 (2 + ieSize m.mgmt pie) ≤ m.len.toNat

/-- How far it is looked whether an element is one for WMM. -/
def wmmLooked : Nat :=
  if m.mgmt.read (pie + 2) 4 = [0x00, 0x50, 0xf2, 2] then 8
  else if m.mgmt.read (pie + 2) 3 = [0x00, 0x50, 0xf2] then 6 else 5

/-- `wmm_info` has room for 22 bytes of data. -/
structure WmmFits : Prop where
  looked : pie + wmmLooked m pie ≤ m.len.toNat
  stored : m.mgmt.read (pie + 2) 6 = [0x00, 0x50, 0xf2, 2, 0, 1] →
    pie + 2 + ieSize m.mgmt pie ≤ m.len.toNat ∧ ieSize m.mgmt pie ≤ 22

/-- The search for an attribute from one on ends with what it finds. -/
inductive Finds (target : UInt8) : Nat → Option (Nat × UInt16) → Prop where
  | out {attr : Nat} (short : 2 + ieSize m.mgmt pie < attr + 3) : Finds target attr none
  | cut {attr : Nat} (header : attr + 3 ≤ 2 + ieSize m.mgmt pie)
      (long : 2 + ieSize m.mgmt pie < attr + (attrLen m pie attr).toNat) :
      Finds target attr none
  | here {attr : Nat} (header : attr + 3 ≤ 2 + ieSize m.mgmt pie)
      (whole : attr + (attrLen m pie attr).toNat ≤ 2 + ieSize m.mgmt pie)
      (wanted : m.mgmt (pie + attr) = target) :
      Finds target attr (some (attr, attrLen m pie attr))
  | next {attr : Nat} {found : Option (Nat × UInt16)}
      (header : attr + 3 ≤ 2 + ieSize m.mgmt pie)
      (whole : attr + (attrLen m pie attr).toNat ≤ 2 + ieSize m.mgmt pie)
      (other : m.mgmt (pie + attr) ≠ target) (moves : 0 < (attrLen m pie attr).toNat)
      (rest : Finds target (attr + (attrLen m pie attr).toNat) found) :
      Finds target attr found

/-- The content has the fields that it says it has. -/
structure InfoFits (info : Mem) (content : Nat) : Prop where
  types : 19 + 8 * (info 16).toNat ≤ content
  name : info.readBe16 (17 + 8 * (info 16).toNat) = wpsAttrDeviceName →
    21 + 8 * (info 16).toNat + min 32 (info.readBe16 (19 + 8 * (info 16).toNat)).toNat ≤
      content

/-- An attribute of length 0 is taken for none. -/
def ContentFits (fits : Nat → Nat → Prop) : Option (Nat × UInt16) → Prop
  | none => True
  | some (attr, len) => len = 0 ∨ fits (attr + 3) (contentLen len)

/-- Both searches end.  The bits of the capability go to two bytes, and the content of the
device information is in the element. -/
structure AttrsFit (side : ApSide) : Prop where
  capability : ∃ found, Finds m pie p2pAttrCapability 6 found ∧
    ContentFits (fun ofs content => ofs + content ≤ 2 + ieSize m.mgmt pie ∧ content ≤ 2) found
  deviceInfo : ∃ found, Finds m pie p2pAttrDeviceInfo 6 found ∧
    ContentFits (fun ofs content => side.alloc pie content →
      ofs + content ≤ 2 + ieSize m.mgmt pie ∧
        InfoFits (fromIe m.mgmt (pie + ofs)) content) found

structure P2pFits (side : ApSide) : Prop where
  looked : pie + 6 ≤ m.len.toNat
  stored : m.mgmt.read (pie + 2) 4 = p2pOui → pie + 2 + ieSize m.mgmt pie ≤ m.len.toNat
  attrs : m.mgmt.read (pie + 2) 4 = p2pOui → side.groupOwner → AttrsFit m pie side

/-- What comes behind the element for WPA only counts when it is not refused. -/
structure VendorFits (side : ApSide) (s : AssocLoop) : Prop where
  suites : SuitesFit m pie wpaFormat
  kept : (wpaElement side.sec (readIe m.mgmt pie) s).toBool →
    (wf80211MgmtWpaParse (readIe m.mgmt pie) (wpaIeLen (readIe m.mgmt pie)) s.wpa).1 = 0 →
      pie + min 32 (2 + ieSize m.mgmt pie) ≤ m.len.toNat
  wmm : (wpaElement side.sec (readIe m.mgmt pie) s).toBool → WmmFits m pie
  p2p : (wpaElement side.sec (readIe m.mgmt pie) s).toBool → side.p2pValid → P2pFits m pie side

structure HtFits (net : ApNetwork) (size : Nat) : Prop where
  whole : net.htEnable → pie + 2 + ieSize m.mgmt pie ≤ m.len.toNat
  stored : net.htEnable → ieSize m.mgmt pie ≤ size

@[mk_iff] structure ElementFits (side : ApSide) (s : AssocLoop) : Prop where
  id : pie + 1 ≤ m.len.toNat
  ssid : m.mgmt pie = eidSsid → SsidFits m pie side.net
  suppRates : m.mgmt pie = eidSuppRates →
    RatesFit m pie 8 side.net.rate s.info.datarateLen
  extSuppRates : m.mgmt pie = eidExtSuppRates →
    RatesFit m pie 4 side.net.rate s.info.extDatarateLen
  rsn : m.mgmt pie = eidRsn → RsnFits m pie side.sec s
  vendor : m.mgmt pie = eidVendorSpecific → VendorFits m pie side s
  htCapability : m.mgmt pie = eidHtCapability → HtFits m pie side.net 26
  htOperation : m.mgmt pie = eidHtOperation → HtFits m pie side.net side.pointerSize
  header : m.mgmt pie ∉ [eidHtCapability, eidHtOperation] → pie + 2 ≤ m.len.toNat

end Fits

/-- `ext_datarate` has room for four rates, and the buffer of the response for its fields. -/
structure ResponseFits (side : ApSide) (w : Walk) : Prop where
  rates : side.rateLen ≤ 12
  kept : side.p2pValid → side.groupOwner → side.p2pIeAssocRsp = [] → w.p2pReqLen ≤ 1024
  room : txdescOffset side + 30 + (responseFields side w).sum ≤ maxXmitExtbufSz

section Request

variable (side : ApSide) (m : ApMsg)

/-- From one element to the next, when it is not refused. -/
inductive Turn : UInt16 × Walk → UInt16 × Walk → Prop where
  | taken {ofs : UInt16} {w : Walk} {s : AssocLoop} (more : ofs < varLenOf m)
      (done : elementOf side m (pvarOf m + ofs.toNat) w.loop = .ok s) :
      Turn (ofs, w)
        (ofs + (2 + (m.mgmt (pvarOf m + ofs.toNat + 1)).toUInt16),
          ⟨s, p2pReqLenBehind side m (pvarOf m + ofs.toNat) w.p2pReqLen⟩)

/-- The elements end here, or this one is refused. -/
def Leaves (place : UInt16 × Walk) : Prop :=
  place.1 < varLenOf m →
    (elementOf side m (pvarOf m + place.1.toNat) place.2.loop).toBool = false

structure PlaceFits (sent : Bool) (place : UInt16 × Walk) : Prop where
  element : place.1 < varLenOf m →
    ElementFits m (pvarOf m + place.1.toNat) side place.2.loop
  response : sent → Leaves side m place → ResponseFits side place.2

/-- The fixed fields are there, and the elements fit up to where the thread stops. -/
structure RequestFits (info : AssocInfo) (p2pReqLen : Nat) (a : AssocAnswers) : Prop where
  fixed : pvarOf m ≤ m.len.toNat
  places : ∀ place,
    Relation.ReflTransGen (Turn side m) (0, ⟨⟨clearInfo info, a.rsn, a.wpa⟩, p2pReqLen⟩) place →
      PlaceFits side m a.sent place

/-- The thread comes to its end, and the response that it gives away is what it has
written. -/
def KeepsBounds (info : AssocInfo) (p2pReqLen : Nat) (a : AssocAnswers) : Prop :=
  ∃ reply, wfAssocApThrd side m info p2pReqLen a = some reply ∧
    ∀ response ∈ reply, response.pktLen = response.written ∧
      txdescOffset side + response.written ≤ maxXmitExtbufSz

end Request

/-! ## The elements keep inside -/

section Checks

variable {m : ApMsg} {pie : Nat}

@[simp] theorem look_isSome {ofs n : Nat} :
    (look m pie ofs n).isSome ↔ pie + ofs + n ≤ m.len.toNat := inside_isSome

@[simp] theorem copy_isSome {ofs n size : Nat} :
    (copy m pie ofs n size).isSome ↔
      pie + ofs + n ≤ m.len.toNat ∧ ofs + n ≤ 2 + ieSize m.mgmt pie ∧ n ≤ size := by
  simp [copy]

@[simp] theorem length_readIe : (readIe m.mgmt pie).data.length = ieSize m.mgmt pie := by
  simp [readIe, ieSize]

theorem ssidChecks_isSome {net : ApNetwork} :
    (ssidChecks m pie net).isSome ↔ SsidFits m pie net := by
  have length : (readIe m.mgmt pie).data = net.ssid →
      ieSize m.mgmt pie = net.ssid.length := by
    intro same
    rw [← same, length_readIe]
  simp only [ssidChecks, Option.bind_eq_bind, then_isSome, look_isSome, onlyIf_isSome,
    inside_isSome, Nat.zero_add]
  constructor
  · rintro ⟨whole, compared⟩
    exact ⟨whole, fun same => (compared same).1, fun same => by
      have stored := (compared (length same)).2 same
      omega⟩
  · rintro ⟨whole, compared, stored⟩
    exact ⟨whole, fun same => ⟨compared same, fun equal => by
      have short := stored equal
      omega⟩⟩

theorem ratesLoop_none {limit : Nat} {rate : List UInt8} {left i len : Nat}
    (none : rate.takeWhile (· ≠ 0) = []) :
    ratesLoop m pie limit rate left i len = some () := by
  induction left generalizing i len with
  | zero => rfl
  | succ left ih =>
      simp only [ratesLoop, onlyIf, knownRate, none, ne_eq, not_true_eq_false, if_false,
        List.any_nil, Bool.false_eq_true, ih]
      rfl

/-- A rate that is refused ends the list. -/
theorem ratesLoop_some {limit : Nat} {rate : List UInt8} {left i len : Nat}
    (rates : rate.takeWhile (· ≠ 0) ≠ []) (header : pie + (2 + i) ≤ m.len.toNat) :
    (ratesLoop m pie limit rate left i len).isSome ↔
      pie + (2 + i) + ratesLooked limit rate len (m.mgmt.read (pie + (2 + i)) left) ≤
        m.len.toNat := by
  induction left generalizing i len with
  | zero => simp [ratesLoop, Mem.read, ratesLooked, header]
  | succ left ih =>
      have bytes : m.mgmt.read (pie + (2 + i)) (left + 1) =
          m.mgmt (pie + (2 + i)) :: m.mgmt.read (pie + (2 + (i + 1))) left := by
        rw [Nat.add_comm left 1, Mem.read_add]
        rfl
      have here : onlyIf (rate.takeWhile (· ≠ 0) ≠ []) (look m pie (2 + i) 1) =
          look m pie (2 + i) 1 := if_pos rates
      rw [bytes]
      simp only [ratesLoop, here, ratesLooked, addRate, Option.bind_eq_bind, then_isSome,
        look_isSome]
      split_ifs with known room
      · simp only [then_isSome, inside_isSome]
        constructor
        · rintro ⟨read, -, rest⟩
          have ends := (ih (by omega)).mp rest
          omega
        · intro ends
          exact ⟨by omega, room, (ih (by omega)).mpr (by omega)⟩
      · simp
      · dsimp only
        constructor
        · rintro ⟨read, rest⟩
          have ends := (ih (by omega)).mp rest
          omega
        · intro ends
          exact ⟨by omega, (ih (by omega)).mpr (by omega)⟩

theorem ratesChecks_isSome {limit : Nat} {rate : List UInt8} {len : Nat}
    (header : pie + 2 ≤ m.len.toNat) :
    (ratesChecks m pie limit rate len).isSome ↔ RatesFit m pie limit rate len := by
  have data : (readIe m.mgmt pie).data = m.mgmt.read (pie + (2 + 0)) (ieSize m.mgmt pie) := rfl
  rw [ratesChecks, onlyIf_isSome]
  by_cases rates : rate.takeWhile (· ≠ 0) = []
  · rw [ratesLoop_none rates]
    exact iff_of_true (by simp) ⟨header, fun _ some => absurd rates some⟩
  · have loop := @ratesLoop_some m pie limit rate (ieSize m.mgmt pie) 0 len rates header
    rw [loop, ← data]
    exact ⟨fun fits => ⟨header, fun short _ => fits short⟩, fun fits short =>
      fits.rates short rates⟩

theorem wpaIeLen_eq (short : ieSize m.mgmt pie ≤ 253) :
    wpaIeLen (readIe m.mgmt pie) = UInt16.ofNat (2 + ieSize m.mgmt pie) := by
  rw [wpaIeLen, length_readIe, ← UInt16.toNat_inj]
  simp
  omega

/-- An element whose length does not go into eight bits is refused before its data. -/
theorem wpaIeLen_wrapped (long : 253 < ieSize m.mgmt pie) :
    (wpaIeLen (readIe m.mgmt pie)).toNat = ieSize m.mgmt pie - 254 := by
  have byte := ieSize_lt m.mgmt pie
  rw [wpaIeLen, length_readIe]
  simp
  omega

theorem suites_isSome {f : SuiteFormat} (header : pie + 2 ≤ m.len.toNat)
    (eid : m.mgmt pie = f.eid) :
    (forM (f.parse (fromIe m.mgmt pie) (wpaIeLen (readIe m.mgmt pie))).reads
      fun o => look m pie o 1).isSome ↔ SuitesFit m pie f := by
  have byte := ieSize_lt m.mgmt pie
  have size : ieSize (fromIe m.mgmt pie) 0 = ieSize m.mgmt pie := rfl
  simp only [forM_isSome, look_isSome]
  by_cases short : ieSize m.mgmt pie ≤ 253
  · have own := @own_reads_iff f (fromIe m.mgmt pie) eid pie m.len.toNat
    rw [size] at own
    rw [wpaIeLen_eq short, own]
    exact ⟨fun fits => ⟨header, fun _ => fits⟩, fun fits => fits.suites short⟩
  · have wrapped := @wpaIeLen_wrapped m pie (by omega)
    have reads : ∀ o ∈ (f.parse (fromIe m.mgmt pie) (wpaIeLen (readIe m.mgmt pie))).reads,
        o < 2 := by
      have long : (wpaIeLen (readIe m.mgmt pie)).toNat < 2 := by omega
      have size : ieSize m.mgmt pie = (fromIe m.mgmt pie 1).toNat := rfl
      unfold SuiteFormat.parse
      split_ifs
      · simp
      · simp
      · simp
      · omega
    refine iff_of_true (fun o read => ?_) ⟨header, fun few => absurd few short⟩
    have near := reads o read
    omega

/-- Both parsers give up on such an element. -/
theorem rsnParse_long {c : Ciphers} (long : 253 < ieSize m.mgmt pie) :
    (wf80211MgmtRsnParse (readIe m.mgmt pie) (wpaIeLen (readIe m.mgmt pie)) c).1 ≠ 0 := by
  have wrapped := @wpaIeLen_wrapped m pie long
  have byte := ieSize_lt m.mgmt pie
  have other : ¬ ((readIe m.mgmt pie).elementId = eidRsn ∧
      2 + (readIe m.mgmt pie).data.length ≤ (wpaIeLen (readIe m.mgmt pie)).toNat) := by
    rw [length_readIe]
    omega
  rw [wf80211MgmtRsnParse, if_pos other]
  split_ifs <;> simp

theorem wpaParse_long {c : Ciphers} (long : 253 < ieSize m.mgmt pie) :
    (wf80211MgmtWpaParse (readIe m.mgmt pie) (wpaIeLen (readIe m.mgmt pie)) c).1 ≠ 0 := by
  have wrapped := @wpaIeLen_wrapped m pie long
  have byte := ieSize_lt m.mgmt pie
  have other : ¬ ((readIe m.mgmt pie).elementId = eidVendorSpecific ∧
      2 + (readIe m.mgmt pie).data.length ≤ (wpaIeLen (readIe m.mgmt pie)).toNat) := by
    rw [length_readIe]
    omega
  rw [wf80211MgmtWpaParse, if_pos other]
  split_ifs <;> simp

theorem rsnElement_short {sec : AssocSec} {s : AssocLoop}
    (taken : (rsnElement sec (readIe m.mgmt pie) s).toBool) : ieSize m.mgmt pie ≤ 253 := by
  by_contra long
  have refused := @rsnParse_long m pie s.rsn (by omega)
  unfold rsnElement at taken
  split at taken
  · rename_i parsed
    exact refused (congrArg Prod.fst parsed)
  · cases taken

theorem keepIe_isSome (short : ieSize m.mgmt pie ≤ 253) :
    (keepIe m pie).isSome ↔ pie + min 32 (2 + ieSize m.mgmt pie) ≤ m.len.toNat := by
  have len : (wpaIeLen (readIe m.mgmt pie)).toNat = 2 + ieSize m.mgmt pie := by
    rw [wpaIeLen_eq short, UInt16.toNat_ofNat']
    omega
  rw [keepIe, copy_isSome, len]
  omega

theorem rsnChecks_isSome {sec : AssocSec} {s : AssocLoop} (header : pie + 2 ≤ m.len.toNat)
    (eid : m.mgmt pie = eidRsn) :
    (rsnChecks m pie sec s).isSome ↔ RsnFits m pie sec s := by
  have suites := @suites_isSome m pie rsnFormat header eid
  simp only [rsnChecks, wf80211MgmtRsnParseAt, Option.bind_eq_bind, then_isSome, suites,
    onlyIf_isSome]
  constructor
  · rintro ⟨fits, kept⟩
    exact ⟨fits, fun taken => (keepIe_isSome (rsnElement_short taken)).mp (kept taken)⟩
  · rintro ⟨fits, kept⟩
    exact ⟨fits, fun taken => (keepIe_isSome (rsnElement_short taken)).mpr (kept taken)⟩

theorem wmmChecks_isSome : (wmmChecks m pie).isSome ↔ WmmFits m pie := by
  have three : m.mgmt.read (pie + 2) 4 = [0x00, 0x50, 0xf2, 2] →
      m.mgmt.read (pie + 2) 3 = [0x00, 0x50, 0xf2] := by
    intro four
    have first := congrArg (List.take 3) four
    rwa [Mem.take_read m.mgmt (pie + 2) (by omega)] at first
  have size : 2 + ieSize m.mgmt pie ≤ 24 ↔ ieSize m.mgmt pie ≤ 22 := by omega
  simp only [wmmChecks, Option.bind_eq_bind, then_isSome, look_isSome, onlyIf_isSome,
    copy_isSome]
  constructor
  · rintro ⟨oui, type, version, stored⟩
    constructor
    · unfold wmmLooked
      split_ifs with wmm other
      · have last := version wmm
        omega
      · have last := type other
        omega
      · omega
    · intro found
      have fits := stored found
      exact ⟨by omega, by omega⟩
  · rintro ⟨looked, stored⟩
    unfold wmmLooked at looked
    refine ⟨?_, fun other => ?_, fun wmm => ?_, fun found => ?_⟩
    · split_ifs at looked <;> omega
    · split_ifs at looked <;> omega
    · rw [if_pos wmm] at looked
      omega
    · have fits := stored found
      exact ⟨by omega, by omega, by omega⟩

theorem htChecks_isSome {net : ApNetwork} {size : Nat} :
    (htChecks m pie net size).isSome ↔ HtFits m pie net size := by
  simp only [htChecks, Option.bind_eq_bind, then_isSome, look_isSome, onlyIf_isSome,
    copy_isSome]
  constructor
  · intro fits
    exact ⟨fun on => (fits on).2.1, fun on => (fits on).2.2.2⟩
  · rintro ⟨whole, stored⟩ on
    have inside := whole on
    exact ⟨by omega, inside, by omega, stored on⟩

end Checks

/-! ## P2P elements keep inside -/

section P2p

variable {m : ApMsg} {pie attr : Nat} {target : UInt8} {found : Option (Nat × UInt16)}

/-- An attribute that says that it is 65533 bytes long is looked at again. -/
theorem p2pGetAttrLoop_stuck {fuel : Nat} (header : attr + 3 ≤ 2 + ieSize m.mgmt pie)
    (other : m.mgmt (pie + attr) ≠ target) (stays : (attrLen m pie attr).toNat = 0) :
    p2pGetAttrLoop m pie target fuel attr = none := by
  induction fuel with
  | zero => rfl
  | succ fuel ih =>
      have whole : ¬ 2 + ieSize m.mgmt pie < attr + (attrLen m pie attr).toNat := by omega
      rw [p2pGetAttrLoop, if_pos header, if_neg whole, if_neg other, stays, Nat.add_zero, ih]
      cases look m pie attr 3 <;> rfl

theorem p2pGetAttrLoop_iff {fuel : Nat} (inside : pie + 2 + ieSize m.mgmt pie ≤ m.len.toNat)
    (enough : 2 + ieSize m.mgmt pie - attr < fuel) :
    p2pGetAttrLoop m pie target fuel attr = some found ↔ Finds m pie target attr found := by
  induction fuel generalizing attr with
  | zero => omega
  | succ fuel ih =>
      rw [p2pGetAttrLoop]
      by_cases header : attr + 3 ≤ 2 + ieSize m.mgmt pie
      · have looked : look m pie attr 3 = some () := if_pos (by omega)
        rw [if_pos header, looked]
        simp only [Option.bind_eq_bind, Option.bind_some]
        by_cases long : 2 + ieSize m.mgmt pie < attr + (attrLen m pie attr).toNat
        · rw [if_pos long]
          constructor
          · rintro ⟨⟩
            exact .cut header long
          · intro finds
            cases finds <;> first | rfl | omega
        by_cases wanted : m.mgmt (pie + attr) = target
        · rw [if_neg long, if_pos wanted]
          constructor
          · rintro ⟨⟩
            exact .here header (by omega) wanted
          · intro finds
            cases finds <;> first | rfl | omega | contradiction
        rw [if_neg long, if_neg wanted]
        by_cases moves : 0 < (attrLen m pie attr).toNat
        · rw [ih (by omega)]
          constructor
          · exact .next header (by omega) wanted moves
          · intro finds
            cases finds <;> first | assumption | omega | contradiction
        · have stuck := @p2pGetAttrLoop_stuck m pie attr target fuel header wanted (by omega)
          rw [show attr + (attrLen m pie attr).toNat = attr by omega, stuck]
          refine iff_of_false (by simp) fun finds => ?_
          cases finds <;> first | omega | contradiction
      · rw [if_neg header]
        constructor
        · rintro ⟨⟩
          exact .out (by omega)
        · intro finds
          cases finds <;> first | rfl | omega

theorem p2pGetAttr_iff (inside : pie + 2 + ieSize m.mgmt pie ≤ m.len.toNat)
    (eid : m.mgmt pie = eidVendorSpecific) (oui : m.mgmt.read (pie + 2) 4 = p2pOui) :
    p2pGetAttr m pie target = some found ↔ Finds m pie target 6 found := by
  by_cases empty : 2 + ieSize m.mgmt pie ≤ 6
  · rw [p2pGetAttr, if_pos (Or.inl empty)]
    constructor
    · rintro ⟨⟩
      exact .out (by omega)
    · intro finds
      cases finds <;> first | rfl | omega
  · have looked : look m pie 2 4 = some () := if_pos (by omega)
    rw [p2pGetAttr, if_neg (by simp [empty, eid]), looked, if_neg (by simp [oui])]
    exact p2pGetAttrLoop_iff inside (by omega)

/-- What the caller is told of an attribute. -/
def contentOf : Option (Nat × UInt16) → Option (Nat × Nat)
  | none => none
  | some (attr, len) => if len = 0 then none else some (attr + 3, contentLen len)

theorem getAttrContent_isSome {buf : Option Nat} {rest : Option (Nat × Nat) → Option Unit}
    (inside : pie + 2 + ieSize m.mgmt pie ≤ m.len.toNat)
    (eid : m.mgmt pie = eidVendorSpecific) (oui : m.mgmt.read (pie + 2) 4 = p2pOui) :
    ((wfP2pGetAttrContent m pie target buf).bind rest).isSome ↔
      ∃ found, Finds m pie target 6 found ∧
        (∀ size ∈ buf, ContentFits (fun ofs content =>
          ofs + content ≤ 2 + ieSize m.mgmt pie ∧ content ≤ size) found) ∧
        (rest (contentOf found)).isSome := by
  have finds := fun found => @p2pGetAttr_iff m pie target found inside eid oui
  simp only [← finds]
  cases got : p2pGetAttr m pie target with
  | none => simp [wfP2pGetAttrContent, got]
  | some found =>
      simp only [wfP2pGetAttrContent, got, Option.some.injEq, exists_eq_left',
        Option.bind_eq_bind, Option.bind_some]
      cases found with
      | none => simp [ContentFits, contentOf]
      | some found =>
          obtain ⟨attr, len⟩ := found
          by_cases zero : len = 0
          · simp [zero, ContentFits, contentOf]
          cases buf with
          | none => simp [zero, contentOf]
          | some size =>
              have fits : (copy m pie (attr + 3) (contentLen len) size).isSome ↔
                  attr + 3 + contentLen len ≤ 2 + ieSize m.mgmt pie ∧
                    contentLen len ≤ size := by
                rw [copy_isSome]
                constructor
                · exact fun checks => checks.2
                · exact fun checks => ⟨by omega, checks⟩
              simp only [zero, if_false, ContentFits, contentOf, Option.mem_def,
                Option.some.injEq, forall_eq', false_or, ← fits]
              cases copy m pie (attr + 3) (contentLen len) size <;> simp

theorem deviceInfo_isSome {info : Mem} {content : Nat} :
    (deviceInfo info content).isSome ↔ InfoFits info content := by
  simp only [deviceInfo, copyOut, Option.bind_eq_bind, then_isSome, inside_isSome,
    onlyIf_isSome]
  constructor
  · rintro ⟨-, -, -, -, -, types, name⟩
    exact ⟨by omega, fun named => by
      have copied := (name named).2.1
      omega⟩
  · rintro ⟨types, name⟩
    refine ⟨by omega, by omega, by omega, by omega, fun some => by omega, by omega,
      fun named => ?_⟩
    have copied := name named
    omega

theorem finds_unique (inside : pie + 2 + ieSize m.mgmt pie ≤ m.len.toNat)
    (eid : m.mgmt pie = eidVendorSpecific) (oui : m.mgmt.read (pie + 2) 4 = p2pOui)
    {also : Option (Nat × UInt16)} (finds : Finds m pie target 6 found)
    (too : Finds m pie target 6 also) : also = found := by
  have first := (p2pGetAttr_iff inside eid oui).mpr finds
  have second := (p2pGetAttr_iff inside eid oui).mpr too
  rw [first] at second
  exact (Option.some.inj second).symm

/-- What is done with the device information that is found. -/
theorem deviceInfoCalls_isSome {side : ApSide}
    (inside : pie + 2 + ieSize m.mgmt pie ≤ m.len.toNat)
    (eid : m.mgmt pie = eidVendorSpecific) (oui : m.mgmt.read (pie + 2) 4 = p2pOui)
    (finds : Finds m pie p2pAttrDeviceInfo 6 found) :
    (match contentOf found with
      | none => some ()
      | some (ofs, content) =>
          onlyIf (side.alloc pie content)
            ((wfP2pGetAttrContent m pie p2pAttrDeviceInfo (some content)).bind fun _ =>
              deviceInfo (fromIe m.mgmt (pie + ofs)) content)).isSome ↔
      ContentFits (fun ofs content => side.alloc pie content →
        ofs + content ≤ 2 + ieSize m.mgmt pie ∧
          InfoFits (fromIe m.mgmt (pie + ofs)) content) found := by
  cases found with
  | none => simp [contentOf, ContentFits]
  | some found =>
      obtain ⟨attr, len⟩ := found
      by_cases zero : len = 0
      · simp [contentOf, ContentFits, zero]
      simp only [contentOf, zero, if_false, onlyIf_isSome, ContentFits, false_or,
        getAttrContent_isSome inside eid oui, deviceInfo_isSome]
      refine imp_congr_right fun _ => ?_
      constructor
      · rintro ⟨also, too, copied, fits⟩
        rw [finds_unique inside eid oui finds too] at copied
        have copied := copied _ rfl
        simp only [zero, false_or] at copied
        exact ⟨copied.1, fits⟩
      · rintro ⟨inside, fits⟩
        refine ⟨_, finds, ?_, fits⟩
        rintro size ⟨⟩
        exact .inr ⟨inside, Nat.le_refl _⟩

theorem wfP2pProcAssocReq_isSome {side : ApSide}
    (inside : pie + 2 + ieSize m.mgmt pie ≤ m.len.toNat)
    (eid : m.mgmt pie = eidVendorSpecific) (oui : m.mgmt.read (pie + 2) 4 = p2pOui) :
    (wfP2pProcAssocReq m pie side).isSome ↔ (side.groupOwner → AttrsFit m pie side) := by
  rw [wfP2pProcAssocReq, onlyIf_isSome]
  refine imp_congr_right fun _ => ?_
  simp only [Option.bind_eq_bind, getAttrContent_isSome inside eid oui, Option.mem_def,
    Option.some.injEq, forall_eq', reduceCtorEq, false_imp_iff, implies_true, true_and]
  constructor
  · rintro ⟨capability, finds, copied, found, also, rest⟩
    exact ⟨⟨capability, finds, copied⟩, ⟨found, also, (deviceInfoCalls_isSome inside eid oui also).mp rest⟩⟩
  · rintro ⟨⟨capability, finds, copied⟩, ⟨found, also, rest⟩⟩
    exact ⟨capability, finds, copied, found, also, (deviceInfoCalls_isSome inside eid oui also).mpr rest⟩

theorem p2pChecks_isSome {side : ApSide} (eid : m.mgmt pie = eidVendorSpecific) :
    (p2pChecks m pie side).isSome ↔ P2pFits m pie side := by
  have byte := ieSize_lt m.mgmt pie
  simp only [p2pChecks, Option.bind_eq_bind, then_isSome, look_isSome, onlyIf_isSome,
    copy_isSome]
  constructor
  · rintro ⟨looked, fits⟩
    refine ⟨by omega, fun oui => ?_, fun oui => ?_⟩
    · have copied := (fits oui).1.1
      omega
    · obtain ⟨⟨copied, -, -⟩, attrs⟩ := fits oui
      exact (wfP2pProcAssocReq_isSome (by omega) eid oui).mp attrs
  · rintro ⟨looked, stored, attrs⟩
    refine ⟨by omega, fun oui => ?_⟩
    have inside := stored oui
    exact ⟨⟨by omega, by omega, by omega⟩,
      (wfP2pProcAssocReq_isSome inside eid oui).mpr (attrs oui)⟩

theorem vendorChecks_isSome {side : ApSide} {s : AssocLoop}
    (header : pie + 2 ≤ m.len.toNat) (eid : m.mgmt pie = eidVendorSpecific) :
    (vendorChecks m pie side s).isSome ↔ VendorFits m pie side s := by
  have suites := @suites_isSome m pie wpaFormat header eid
  have short : (wf80211MgmtWpaParse (readIe m.mgmt pie) (wpaIeLen (readIe m.mgmt pie))
      s.wpa).1 = 0 → ieSize m.mgmt pie ≤ 253 := by
    intro parsed
    by_contra long
    exact wpaParse_long (by omega) parsed
  simp only [vendorChecks, wf80211MgmtWpaParseAt, Option.bind_eq_bind, then_isSome, suites,
    onlyIf_isSome, wmmChecks_isSome, p2pChecks_isSome eid]
  constructor
  · rintro ⟨fits, taken⟩
    exact ⟨fits, fun ok parsed => (keepIe_isSome (short parsed)).mp ((taken ok).1 parsed),
      fun ok => (taken ok).2.1, fun ok => (taken ok).2.2⟩
  · rintro ⟨fits, kept, wmm, p2p⟩
    exact ⟨fits, fun ok => ⟨fun parsed => (keepIe_isSome (short parsed)).mpr (kept ok parsed),
      wmm ok, p2p ok⟩⟩

end P2p

/-- Both bytes of the header are looked at before the rest. -/
theorem headed_iff {size pie : Nat} {checks fits : Prop}
    (same : pie + 2 ≤ size → (checks ↔ fits)) :
    (pie + 0 + 1 ≤ size ∧ pie + 1 + 1 ≤ size ∧ checks) ↔
      pie + 1 ≤ size ∧ fits ∧ pie + 2 ≤ size := by
  constructor
  · rintro ⟨id, header, also⟩
    exact ⟨id, (same header).mp also, header⟩
  · rintro ⟨id, also, header⟩
    exact ⟨id, header, (same header).mpr also⟩

theorem elementChecks_isSome {m : ApMsg} {pie : Nat} {side : ApSide} {s : AssocLoop} :
    (elementChecks m pie side s).isSome ↔ ElementFits m pie side s := by
  rw [elementChecks, elementFits_iff]
  simp only [Option.bind_eq_bind, then_isSome, look_isSome]
  split_ifs with ssid supp ext rsn vendor ht oper
  · simp only [then_isSome, look_isSome, ssid]
    simpa +decide using headed_iff fun _ => @ssidChecks_isSome m pie side.net
  · simp only [suppRatesChecks, then_isSome, look_isSome, supp]
    simpa +decide using headed_iff (@ratesChecks_isSome m pie 8 side.net.rate s.info.datarateLen)
  · simp only [extSuppRatesChecks, then_isSome, look_isSome, ext]
    simpa +decide using
      headed_iff (@ratesChecks_isSome m pie 4 side.net.rate s.info.extDatarateLen)
  · simp only [then_isSome, look_isSome, rsn]
    simpa +decide using
      headed_iff fun header => @rsnChecks_isSome m pie side.sec s header rsn
  · simp only [then_isSome, look_isSome, vendor]
    simpa +decide using
      headed_iff fun header => @vendorChecks_isSome m pie side s header vendor
  · rw [ht, htChecks_isSome]
    simp +decide
  · rw [oper, htChecks_isSome]
    simp +decide
  · simp only [ssid, supp, ext, rsn, vendor, ht, oper, false_imp_iff, true_and, look_isSome,
      List.mem_cons, List.not_mem_nil, or_self, not_false_eq_true, forall_const]

/-! ## The response is what is written -/

section Response

variable {side : ApSide} {w : Walk}

theorem writeVar_eq_some {v v' : Written} {n : Nat} :
    writeVar side v n = some v' ↔
      txdescOffset side + 30 + v.varLen.toNat + n ≤ maxXmitExtbufSz ∧
        v' = ⟨v.varLen + UInt16.ofNat n, v.bytes + n⟩ := by
  unfold writeVar inside
  split_ifs with room
  · simp [room, eq_comm]
  · simp [room]

theorem varLen_add {v : Written} {n : Nat}
    (room : txdescOffset side + 30 + v.varLen.toNat + n ≤ maxXmitExtbufSz) :
    (v.varLen + UInt16.ofNat n).toNat = v.varLen.toNat + n := by
  unfold maxXmitExtbufSz at room
  rw [UInt16.toNat_add, UInt16.toNat_ofNat']
  omega

/-- The fields go behind each other as long as there is room. -/
theorem writeVars_isSome {fields : List Nat} {v : Written}
    (start : txdescOffset side + 30 + v.varLen.toNat ≤ maxXmitExtbufSz) :
    (fields.foldlM (writeVar side) v).isSome ↔
      txdescOffset side + 30 + v.varLen.toNat + fields.sum ≤ maxXmitExtbufSz := by
  induction fields generalizing v with
  | nil => simp [start]
  | cons n fields ih =>
      rw [List.foldlM_cons, List.sum_cons]
      cases wrote : writeVar side v n with
      | none =>
          have full := (@writeVar_eq_some side v ⟨v.varLen + UInt16.ofNat n, v.bytes + n⟩ n).not
          rw [wrote] at full
          simp only [reduceCtorEq, not_false_eq_true, and_true, true_iff] at full
          simp only [Option.bind_eq_bind, Option.bind_none, Option.isSome_none,
            Bool.false_eq_true, false_iff]
          omega
      | some v' =>
          obtain ⟨room, rfl⟩ := writeVar_eq_some.mp wrote
          have len := varLen_add room
          rw [Option.bind_eq_bind, Option.bind_some, ih (by dsimp only; omega), len]
          omega

theorem writeVars_eq {fields : List Nat} {v v' : Written}
    (done : fields.foldlM (writeVar side) v = some v') :
    v'.varLen.toNat = v.varLen.toNat + fields.sum ∧ v'.bytes = v.bytes + fields.sum := by
  induction fields generalizing v with
  | nil =>
      cases done
      simp
  | cons n fields ih =>
      rw [List.foldlM_cons] at done
      obtain ⟨middle, wrote, done⟩ := Option.bind_eq_some_iff.mp done
      obtain ⟨room, rfl⟩ := writeVar_eq_some.mp wrote
      have rest := ih done
      rw [varLen_add room] at rest
      dsimp only at rest
      rw [List.sum_cons]
      omega

theorem header_room : txdescOffset side + 30 ≤ maxXmitExtbufSz := by
  unfold txdescOffset maxXmitExtbufSz
  split_ifs <;> omega

/-- The rates behind the first eight are read out of `ext_datarate`. -/
theorem extRates_iff :
    (8 < side.rateLen → (side.rateLen - 8).toNat ≤ 4) ↔ side.rateLen ≤ 12 := by
  have eight : (8 : UInt8).toNat = 8 := rfl
  have twelve : (12 : UInt8).toNat = 12 := rfl
  rw [UInt8.lt_iff_toNat_lt, UInt8.le_iff_toNat_le, eight, twelve]
  by_cases more : 8 < side.rateLen.toNat
  · rw [UInt8.toNat_sub_of_le _ _ (by rw [UInt8.le_iff_toNat_le]; omega), eight]
    omega
  · omega

theorem xmitFrame_isSome : (xmitFrame side w).isSome ↔ ResponseFits side w := by
  have vars := @writeVars_isSome side (responseFields side w) ⟨0, 0⟩ header_room
  have none : (⟨0, 0⟩ : Written).varLen.toNat = 0 := rfl
  rw [none, Nat.add_zero] at vars
  simp only [xmitFrame, Option.bind_eq_bind, then_isSome, inside_isSome, onlyIf_isSome,
    extRates_iff, Nat.zero_add, header_room, true_and]
  constructor
  · rintro ⟨rates, kept, sent⟩
    exact ⟨rates, fun valid owner own => kept ⟨valid, owner, own⟩,
      vars.mp (bind_some_isSome.mp sent)⟩
  · rintro ⟨rates, kept, room⟩
    exact ⟨rates, fun both => kept both.1 both.2.1 both.2.2,
      bind_some_isSome.mpr (vars.mpr room)⟩

theorem xmitFrame_eq {response : Response} (sent : xmitFrame side w = some response) :
    response.pktLen = response.written ∧
      txdescOffset side + response.written ≤ maxXmitExtbufSz := by
  have fits := xmitFrame_isSome.mp (by rw [sent]; rfl)
  have room := fits.room
  simp only [xmitFrame, Option.bind_eq_bind, Option.bind_eq_some_iff] at sent
  obtain ⟨-, -, -, -, -, -, fields, wrote, made⟩ := sent
  have sums := writeVars_eq wrote
  cases made
  simp only [UInt16.toNat_zero, Nat.zero_add] at sums
  dsimp only
  omega

end Response

/-! ## The request -/

section Request

variable {side : ApSide} {m : ApMsg} {fuel : Nat} {ofs : UInt16} {w : Walk}

theorem answer_isSome {sent : Bool} :
    (if sent then (xmitFrame side w).map some else some none).isSome ↔
      (sent → ResponseFits side w) := by
  cases sent <;> simp [xmitFrame_isSome]

theorem turn_of_ok {s : AssocLoop} (more : ofs < varLenOf m)
    (done : elementOf side m (pvarOf m + ofs.toNat) w.loop = .ok s)
    {after : UInt16 × Walk} :
    Turn side m (ofs, w) after ↔
      after = (ofs + (2 + (m.mgmt (pvarOf m + ofs.toNat + 1)).toUInt16),
        ⟨s, p2pReqLenBehind side m (pvarOf m + ofs.toNat) w.p2pReqLen⟩) := by
  constructor
  · rintro ⟨-, also⟩
    rw [done] at also
    cases also
    rfl
  · rintro rfl
    exact .taken more done

/-- Where the thread stops there is no next place. -/
theorem Leaves.last (leaves : Leaves side m (ofs, w)) (after : UInt16 × Walk) :
    ¬ Turn side m (ofs, w) after := by
  rintro ⟨more, done⟩
  have refused := leaves more
  rw [done] at refused
  cases refused

theorem Leaves.placeFits {sent : Bool} (leaves : Leaves side m (ofs, w)) :
    PlaceFits side m sent (ofs, w) ↔
      (ofs < varLenOf m → ElementFits m (pvarOf m + ofs.toNat) side w.loop) ∧
        (sent → ResponseFits side w) :=
  ⟨fun fits => ⟨fits.element, fun asked => fits.response asked leaves⟩,
    fun fits => ⟨fits.1, fun asked _ => fits.2 asked⟩⟩

theorem next_toNat (small : (varLenOf m).toNat ≤ 768) (more : ofs < varLenOf m)
    (byte : UInt8) : (ofs + (2 + byte.toUInt16)).toNat = ofs.toNat + (2 + byte.toNat) := by
  have less := UInt16.lt_iff_toNat_lt.mp more
  have short := byte.toNat_lt
  exact ieStep_toNat (by omega)

/-- The thread from a place on, with what is sent at the end. -/
theorem elementsLoop_isSome {sent : Bool} (small : (varLenOf m).toNat ≤ 768)
    (enough : (varLenOf m).toNat - ofs.toNat < fuel) :
    ((elementsLoop side m fuel ofs w).bind fun (w, _) =>
        if sent then (xmitFrame side w).map some else some none).isSome ↔
      ∀ place, Relation.ReflTransGen (Turn side m) (ofs, w) place →
        PlaceFits side m sent place := by
  induction fuel generalizing ofs w with
  | zero => omega
  | succ fuel ih =>
      rw [forall_reached_iff, elementsLoop]
      by_cases more : ofs < varLenOf m
      · rw [if_pos more, Option.bind_eq_bind, Option.bind_assoc, then_isSome,
          elementChecks_isSome]
        cases done : elementOf side m (pvarOf m + ofs.toNat) w.loop with
        | error status =>
            have leaves : Leaves side m (ofs, w) := by
              intro _
              rw [done]
              rfl
            simp only [Option.bind_some, answer_isSome, leaves.placeFits, leaves.last,
              more, forall_const, false_imp_iff, implies_true, and_true]
        | ok s =>
            have goes : PlaceFits side m sent (ofs, w) ↔
                ElementFits m (pvarOf m + ofs.toNat) side w.loop := by
              refine ⟨fun fits => fits.element more, fun fits => ⟨fun _ => fits, ?_⟩⟩
              intro _ leaves
              exact absurd (.taken more done) (leaves.last _)
            have less := UInt16.lt_iff_toNat_lt.mp more
            have next := @next_toNat m ofs small more
              (m.mgmt (pvarOf m + ofs.toNat + 1))
            simp only [turn_of_ok more done, forall_eq, goes]
            exact and_congr_right fun _ => ih (by omega)
      · have leaves : Leaves side m (ofs, w) := fun less => absurd less more
        simp only [more, if_false, Option.bind_some, answer_isSome, leaves.placeFits,
          leaves.last, false_imp_iff, implies_true, and_true, true_and]

theorem pvarOf_cases : pvarOf m = 28 ∨ pvarOf m = 34 := by
  unfold pvarOf variableOfs
  split_ifs <;> simp

theorem pvarOf_toNat : (UInt16.ofNat (pvarOf m)).toNat = pvarOf m := by
  have cases := @pvarOf_cases m
  rw [UInt16.toNat_ofNat']
  omega

theorem varLenOf_toNat (fixed : pvarOf m ≤ m.len.toNat) :
    (varLenOf m).toNat = m.len.toNat - pvarOf m := by
  have of := @pvarOf_toNat m
  rw [varLenOf, UInt16.toNat_sub_of_le _ _ (by rw [UInt16.le_iff_toNat_le, of]; exact fixed), of]

/-- A request without all of its fixed fields has elements for the thread, none of which is
there. -/
theorem fixed_of_loop {rest : Walk × UInt16 → Option (Option Response)}
    (ends : ((elementsLoop side m ((varLenOf m).toNat + 1) 0 w).bind rest).isSome) :
    pvarOf m ≤ m.len.toNat := by
  by_contra short
  have of := @pvarOf_toNat m
  have cases := @pvarOf_cases m
  have more : 0 < varLenOf m := by
    rw [UInt16.lt_iff_toNat_lt, varLenOf, UInt16.toNat_sub, of]
    have zero : (0 : UInt16).toNat = 0 := rfl
    omega
  rw [elementsLoop, if_pos more, Option.bind_eq_bind, Option.bind_assoc, then_isSome,
    elementChecks_isSome] at ends
  have first := ends.1.id
  omega

theorem wfAssocApThrd_isSome {info : AssocInfo} {p2pReqLen : Nat} {a : AssocAnswers}
    (accepted : m.len.toNat ≤ assocSizeMax) :
    (wfAssocApThrd side m info p2pReqLen a).isSome ↔
      RequestFits side m info p2pReqLen a := by
  have cases := @pvarOf_cases m
  unfold assocSizeMax at accepted
  simp only [wfAssocApThrd, Option.bind_eq_bind, then_isSome, inside_isSome]
  constructor
  · rintro ⟨-, -, -, ends⟩
    have fixed := fixed_of_loop ends
    have len := varLenOf_toNat fixed
    exact ⟨fixed, (elementsLoop_isSome (by omega) (by omega)).mp ends⟩
  · rintro ⟨fixed, places⟩
    have len := varLenOf_toNat fixed
    exact ⟨by omega, by omega, by omega,
      (elementsLoop_isSome (by omega) (by omega)).mpr places⟩

/-- Every response that is sent is what has been written. -/
theorem wfAssocApThrd_response {info : AssocInfo} {p2pReqLen : Nat} {a : AssocAnswers}
    {reply : Option Response} (done : wfAssocApThrd side m info p2pReqLen a = some reply) :
    ∀ response ∈ reply, response.pktLen = response.written ∧
      txdescOffset side + response.written ≤ maxXmitExtbufSz := by
  simp only [wfAssocApThrd, Option.bind_eq_bind, Option.bind_eq_some_iff] at done
  obtain ⟨-, -, -, -, -, -, ⟨w, status⟩, walked, sent⟩ := done
  rintro response ⟨⟩
  dsimp only at sent
  split_ifs at sent
  · obtain ⟨made, xmit, same⟩ := Option.map_eq_some_iff.mp sent
    cases same
    exact xmitFrame_eq xmit
  · cases sent

/-- The thread decides what the module on association says. -/
theorem elementsLoop_assocElements {after : Walk} {status : UInt16}
    (done : elementsLoop side m fuel ofs w = some (after, status)) :
    assocElements side.net side.sec m.mgmt (pvarOf m) (varLenOf m) fuel ofs w.loop =
        some (.error status) ∨
      status = statusSuccess ∧
        assocElements side.net side.sec m.mgmt (pvarOf m) (varLenOf m) fuel ofs w.loop =
          some (.ok after.loop) := by
  induction fuel generalizing ofs w with
  | zero => cases done
  | succ fuel ih =>
      rw [elementsLoop] at done
      rw [assocElements]
      split_ifs at done ⊢ with more
      · obtain ⟨-, -, done⟩ := Option.bind_eq_some_iff.mp done
        unfold elementOf at done
        dsimp only
        cases decided : assocElement side.net side.sec
            (readIe m.mgmt (pvarOf m + ofs.toNat))
            (m.mgmt.read (pvarOf m + ofs.toNat + 2) 6) w.loop with
        | error refused =>
            rw [decided] at done
            cases done
            exact .inl rfl
        | ok s =>
            rw [decided] at done
            exact ih done
      · cases done
        exact .inr ⟨rfl, rfl⟩

theorem wfAssocApThrd_recvAssocReq {info : AssocInfo} {p2pReqLen : Nat} {a : AssocAnswers}
    {reply : Option Response} (done : wfAssocApThrd side m info p2pReqLen a = some reply)
    (aid : UInt32) :
    (recvAssocReq side.net side.sec aid info m a).freed = true ∧
      (recvAssocReq side.net side.sec aid info m a).reply.isSome = reply.isSome := by
  simp only [wfAssocApThrd, Option.bind_eq_bind, Option.bind_eq_some_iff] at done
  obtain ⟨-, -, -, -, -, -, ⟨after, status⟩, walked, sent⟩ := done
  have answer : a.sent = reply.isSome := by
    dsimp only at sent
    split_ifs at sent with asked
    · obtain ⟨made, -, rfl⟩ := Option.map_eq_some_iff.mp sent
      simp [asked]
    · cases sent
      simpa using asked
  have replies : ∀ status, (assocApXmitFrame a aid (wf80211GetFrameType m.mgmt) status).isSome =
      a.sent := by
    intro status
    unfold assocApXmitFrame
    split_ifs with asked <;> simp [asked]
  have ends := elementsLoop_assocElements walked
  simp only [pvarOf, varLenOf] at ends
  unfold recvAssocReq
  dsimp only
  rcases ends with refused | ⟨-, taken⟩
  · rw [refused]
    exact ⟨rfl, (replies status).trans answer⟩
  · rw [taken]
    exact ⟨rfl, (replies statusSuccess).trans answer⟩

theorem Request.len_le (r : Request) : r.msg.len.toNat ≤ assocSizeMax := by
  obtain ⟨free, frame, msg, accepted⟩ := r
  simp only [wfAssocApWork, if_true, Option.map_some] at accepted
  split_ifs at accepted with long other
  cases accepted
  unfold assocSizeMax at long ⊢
  simp only [fillMsg, UInt16.toNat_ofNat']
  omega

end Request

/-- The thread keeps inside exactly when the request fits. -/
theorem assoc_request_iff (side : ApSide) (r : Request) (info : AssocInfo) (p2pReqLen : Nat)
    (a : AssocAnswers) :
    KeepsBounds side r.msg info p2pReqLen a ↔ RequestFits side r.msg info p2pReqLen a := by
  rw [← wfAssocApThrd_isSome r.len_le]
  constructor
  · rintro ⟨reply, done, -⟩
    simp [done]
  · intro ends
    obtain ⟨reply, done⟩ := Option.isSome_iff_exists.mp ends
    exact ⟨reply, done, wfAssocApThrd_response done⟩

/-- A request with an element for the HT capabilities that is a byte longer than the field. -/
def longHtCapability : Request where
  free := fun _ => 0
  frame := List.replicate 28 0 ++ [45, 27] ++ List.replicate 27 0
  msg := fillMsg (fun _ => 0) .assocReqFrame
    (List.replicate 28 0 ++ [45, 27] ++ List.replicate 27 0)
  accepted := rfl

def htSide : ApSide where
  net := ⟨[], [], true⟩
  sec := ⟨0, 0, 0, 0⟩
  rateLen := 12
  richv200 := false
  pointerSize := 8
  alloc := fun _ _ => true
  p2pValid := false
  groupOwner := false
  wpsAssocRespIe := []
  p2pIeAssocRsp := []
  wfd := none

theorem ht_capability_overflow :
    ¬ ∀ (side : ApSide) (r : Request) (info : AssocInfo) (p2pReqLen : Nat) (a : AssocAnswers),
      KeepsBounds side r.msg info p2pReqLen a := by
  intro keeps
  obtain ⟨reply, done, -⟩ := keeps htSide longHtCapability
    ⟨0, 0, 0, 0, 0, false, false, false, false, []⟩ 0 ⟨true, ⟨0, 0⟩, ⟨0, 0⟩⟩
  have outside : (wfAssocApThrd htSide longHtCapability.msg
      ⟨0, 0, 0, 0, 0, false, false, false, false, []⟩ 0
      ⟨true, ⟨0, 0⟩, ⟨0, 0⟩⟩).isSome = false := by decide +kernel
  simp [done] at outside

end Bounds

end Smartchip.Ap
