import Smartchip.Foundation.Touch
import Smartchip.Frame.Elements
import Smartchip.Frame.Header

/-!
# A probe request to a hidden network

`wf_ap_probe` of `nic/ap.c`.  The bytes behind the first two bytes of the elements are compared
with the hidden SSID, whatever the first element is and wherever the request ends.
-/

namespace Smartchip.Ap

open Smartchip.Foundation Smartchip.Frame

namespace HiddenProbe

def eidSsid : UInt8 := 0

def frmProbeReq : UInt16 := 0x40

def frmProbeResp : UInt16 := 0x50

/-- `wf_80211_hidden_ssid_e`, and any other value. -/
inductive HiddenSsidMode where
  | notInUse
  | zeroLen
  | zeroContents
  | other

/-- `ies` are the bytes up to `ies_length`. -/
structure ProbeNetwork where
  macAddr : MacAddr
  bssid : MacAddr
  bcnInterval : UInt16
  capInfo : UInt16
  ssid : List UInt8
  ies : List UInt8
  hiddenSsidMode : HiddenSsidMode
  hiddenSsid : List UInt8

structure ProbeNic where
  isUp : Bool
  uninitilized : Bool
  curNetwork : ProbeNetwork

/-- `sent` is the frame with its length, and `reads` what has been read of the request. -/
structure ProbeEnd where
  ret : Int
  curSsid : List UInt8
  sent : Option (Mem × Nat)
  reads : List Touch

def getFrameType (pframe : Mem) : UInt16 := pframe.readLe16 0 &&& 0xFC

/-- The response up to its elements; the timestamp is that of the frame that was in the buffer
before. -/
def setHeader (net : ProbeNetwork) (pframe pxmitBuf : Mem) : Mem :=
  let pmgmt := pxmitBuf.write 0 (List.replicate 24 0)
  let pmgmt := pmgmt.write 0 (le16 frmProbeResp)
  let pmgmt := pmgmt.write 4 (pframe.read 10 6)
  let pmgmt := pmgmt.write 10 net.macAddr.toList
  let pmgmt := pmgmt.write 16 net.bssid.toList
  let pmgmt := pmgmt.write 32 (le16 net.bcnInterval)
  pmgmt.write 34 (le16 net.capInfo)

/-- `wf_memcmp` of the request and the hidden SSID. -/
def ssidEqual (net : ProbeNetwork) (pframe : Mem) : Bool :=
  pframe.read 26 net.hiddenSsid.length = net.hiddenSsid

def zeroLenIes (net : ProbeNetwork) (pmgmt : Mem) : Mem :=
  let pmgmt := pmgmt.write 36 [eidSsid]
  let pmgmt := pmgmt.write 37 [UInt8.ofNat net.hiddenSsid.length]
  let pmgmt := pmgmt.write 38 net.hiddenSsid
  let skip := 2 + (net.ies.getD 1 0).toNat
  pmgmt.write (38 + net.hiddenSsid.length) (net.ies.drop skip)

def zeroContentsIes (net : ProbeNetwork) (pmgmt : Mem) : Mem :=
  let pmgmt := pmgmt.write 36 net.ies
  pmgmt.write 38 net.hiddenSsid

/-- The request is not answered. -/
def ProbeNetwork.silent (net : ProbeNetwork) (ret : Int) (reads : List Touch) : ProbeEnd :=
  ⟨ret, net.ssid, none, reads⟩

/-- `frame_len` is not looked at. -/
def wfApProbe (nic : ProbeNic) (pframe : Mem) (_frameLen : UInt16) (pxmitBuf : Option Mem) :
    ProbeEnd :=
  let net := nic.curNetwork
  if ¬ nic.isUp then net.silent (-1) []
  else if nic.uninitilized then net.silent (-2) []
  else if getFrameType pframe ≠ frmProbeReq then net.silent (-3) [.read 0 2]
  else if ¬ (pframe.read 4 6 = net.macAddr.toList ∨ isBcastAddr (pframe.read 4 6)) then
    net.silent (-4) [.read 0 2, .read 4 6]
  else
    match pxmitBuf with
    | none => net.silent (-1) [.read 0 2, .read 4 6]
    | some pbuf =>
        let pmgmt := setHeader net pframe pbuf
        let reads := [.read 0 2, .read 4 6, .read 10 6]
        let compared := reads ++
          if net.hiddenSsid.length ≠ 0 then [.read 26 net.hiddenSsid.length] else []
        match net.hiddenSsidMode with
        | .notInUse =>
            ⟨0, net.ssid, some (pmgmt.write 36 net.ies, 36 + net.ies.length), reads⟩
        | .zeroLen =>
            if ssidEqual net pframe then
              ⟨0, net.hiddenSsid, some (zeroLenIes net pmgmt,
                36 + net.ies.length + net.hiddenSsid.length), compared⟩
            else net.silent 0 compared
        | .zeroContents =>
            if ssidEqual net pframe then
              ⟨0, net.hiddenSsid, some (zeroContentsIes net pmgmt, 36 + net.ies.length),
                compared⟩
            else net.silent 0 compared
        | .other => net.silent (-2) reads

/-! ## What is to hold -/

/-- An AP with a hidden SSID: the SSID element of its template is empty or filled with zeros. -/
structure HiddenAp where
  macAddr : MacAddr
  bssid : MacAddr
  bcnInterval : UInt16
  capInfo : UInt16
  ssid : List UInt8
  contents : Bool
  hiddenSsid : List UInt8
  others : List UInt8
  short : hiddenSsid.length ≤ 32

def HiddenAp.ies (ap : HiddenAp) : List UInt8 :=
  if ap.contents then
    [eidSsid, UInt8.ofNat ap.hiddenSsid.length] ++ List.replicate ap.hiddenSsid.length 0 ++
      ap.others
  else [eidSsid, 0] ++ ap.others

def HiddenAp.nic (ap : HiddenAp) : ProbeNic where
  isUp := true
  uninitilized := false
  curNetwork := {
    macAddr := ap.macAddr
    bssid := ap.bssid
    bcnInterval := ap.bcnInterval
    capInfo := ap.capInfo
    ssid := ap.ssid
    ies := ap.ies
    hiddenSsidMode := if ap.contents then .zeroContents else .zeroLen
    hiddenSsid := ap.hiddenSsid }

structure ProbeRequest (ap : HiddenAp) where
  frame : Mem
  len : UInt16
  probe : getFrameType frame = frmProbeReq
  addressed : frame.read 4 6 = ap.macAddr.toList ∨ isBcastAddr (frame.read 4 6)

section Spec

variable (ap : HiddenAp) (req : ProbeRequest ap)

/-- The SSID element of the request is complete and has the hidden SSID. -/
def Asked : Prop :=
  findElement eidSsid (req.frame.read 24 (req.len.toNat - 24)) = some ap.hiddenSsid

def fixedPart (timestamp : List UInt8) : List UInt8 :=
  le16 frmProbeResp ++ [0, 0] ++ req.frame.read 10 6 ++ ap.macAddr.toList ++
    ap.bssid.toList ++ [0, 0] ++ timestamp ++ le16 ap.bcnInterval ++ le16 ap.capInfo

/-- The frame with its length. -/
structure Response (sent : Mem × Nat) : Prop where
  bytes : ∃ timestamp : List UInt8, timestamp.length = 8 ∧
    sent.1.read 0 sent.2 = fixedPart ap req timestamp ++
      ([eidSsid, UInt8.ofNat ap.hiddenSsid.length] ++ ap.hiddenSsid) ++ ap.others
  pktLen : sent.2 = 36 + (2 + ap.hiddenSsid.length) + ap.others.length

structure Answers (pxmitBuf : Option Mem) : Prop where
  exact : (wfApProbe ap.nic req.frame req.len pxmitBuf).sent.isSome ↔ Asked ap req
  inside : Within req.len.toNat (wfApProbe ap.nic req.frame req.len pxmitBuf).reads
  response : ∀ sent ∈ (wfApProbe ap.nic req.frame req.len pxmitBuf).sent, Response ap req sent

/-! ## When it does -/

/-- The SSID stands where it is compared; or what stands there is not the hidden SSID, unless
an element behind it is. -/
inductive Compares : Prop where
  | ssid (id : req.frame 24 = eidSsid) (same : (req.frame 25).toNat = ap.hiddenSsid.length)
  | otherSsid (id : req.frame 24 = eidSsid)
      (differs : (req.frame 25).toNat ≠ ap.hiddenSsid.length)
      (bytes : req.frame.read 26 ap.hiddenSsid.length ≠ ap.hiddenSsid)
  | element (id : req.frame 24 ≠ eidSsid)
      (behind : req.frame.read 26 ap.hiddenSsid.length = ap.hiddenSsid ↔
        findElement eidSsid (req.frame.read (26 + (req.frame 25).toNat)
          (req.len.toNat - 26 - (req.frame 25).toNat)) = some ap.hiddenSsid)

def Fitting : Option Mem → Prop
  | none => 10 ≤ req.len.toNat ∧ ¬ Asked ap req
  | some _ => 26 + ap.hiddenSsid.length ≤ req.len.toNat ∧ Compares ap req

end Spec

section Proofs

variable {ap : HiddenAp} {req : ProbeRequest ap} {pbuf : Mem}

/-- The header field by field. -/
theorem header_fields (mem : Mem) :
    mem.read 0 36 = mem.read 0 2 ++ mem.read 2 2 ++ mem.read 4 6 ++ mem.read 10 6 ++
      mem.read 16 6 ++ mem.read 22 2 ++ mem.read 24 8 ++ mem.read 32 2 ++ mem.read 34 2 := rfl

theorem setHeader_read (net : ProbeNetwork) (pframe pbuf : Mem) :
    (setHeader net pframe pbuf).read 0 36 =
      le16 frmProbeResp ++ [0, 0] ++ pframe.read 10 6 ++ net.macAddr.toList ++
        net.bssid.toList ++ [0, 0] ++ pbuf.read 24 8 ++ le16 net.bcnInterval ++
        le16 net.capInfo := by
  have zeros (k : Nat) (inside : k + 2 ≤ 24) :
      (pbuf.write 0 (List.replicate 24 0)).read k 2 = [0, 0] := by
    have read := @Mem.read_write_inside pbuf 0 k 2 (List.replicate 24 0) (by simpa using inside)
    rw [Nat.zero_add, List.drop_replicate, List.take_replicate] at read
    have two : min 2 (24 - k) = 2 := by omega
    rw [read, two]
    rfl
  have self (mem : Mem) (addr : Nat) (bytes : List UInt8) {n : Nat} (length : bytes.length = n) :
      (mem.write addr bytes).read addr n = bytes := length ▸ Mem.read_write_self mem addr bytes
  have word (mem : Mem) (addr : Nat) (value : UInt16) :
      (mem.write addr (le16 value)).read addr 2 = le16 value := self mem addr _ rfl
  rw [header_fields]
  unfold setHeader
  simp (disch := simp) only [Mem.read_write_apart, self, word, zeros]

section Elements

variable (net : ProbeNetwork) (mem : Mem) (others : List UInt8)

/-- The SSID element is written in front of the other elements of the template. -/
theorem zeroLenIes_read (template : net.ies = [eidSsid, 0] ++ others) :
    (zeroLenIes net mem).read 0 (36 + net.ies.length + net.hiddenSsid.length) =
      mem.read 0 36 ++ ([eidSsid, UInt8.ofNat net.hiddenSsid.length] ++ net.hiddenSsid) ++
        others := by
  have rest : net.ies.drop (2 + (net.ies.getD 1 0).toNat) = others := by
    rw [template]
    rfl
  have end_ssid : 38 + net.hiddenSsid.length =
      36 + ([eidSsid, UInt8.ofNat net.hiddenSsid.length] ++ net.hiddenSsid).length := by
    simp only [List.length_append, List.length_cons, List.length_nil]
    omega
  have whole : zeroLenIes net mem =
      mem.write 36 ([eidSsid, UInt8.ofNat net.hiddenSsid.length] ++ net.hiddenSsid ++
        others) := by
    have header := Mem.write_append mem 36 [eidSsid] [UInt8.ofNat net.hiddenSsid.length]
    have ssid := Mem.write_append mem 36
      ([eidSsid] ++ [UInt8.ofNat net.hiddenSsid.length]) net.hiddenSsid
    rw [← header] at ssid
    rw [← Mem.write_append, ← end_ssid]
    dsimp only [zeroLenIes]
    rw [rest]
    exact congrArg (fun front => Mem.write front _ others) ssid
  have length : 36 + net.ies.length + net.hiddenSsid.length = 36 +
      ([eidSsid, UInt8.ofNat net.hiddenSsid.length] ++ net.hiddenSsid ++ others).length := by
    rw [template]
    simp only [List.length_append, List.length_cons, List.length_nil]
    omega
  rw [whole, length, Mem.read_add, Mem.read_write_apart _ (.inl (by simp)), Nat.zero_add,
    Mem.read_write_self]
  simp only [List.append_assoc]

/-- The hidden SSID is written into the place of the zeros. -/
theorem zeroContentsIes_read
    (template : net.ies = [eidSsid, UInt8.ofNat net.hiddenSsid.length] ++
      List.replicate net.hiddenSsid.length 0 ++ others) :
    (zeroContentsIes net mem).read 0 (36 + net.ies.length) =
      mem.read 0 36 ++ ([eidSsid, UInt8.ofNat net.hiddenSsid.length] ++ net.hiddenSsid) ++
        others := by
  have length : net.ies.length = 2 + net.hiddenSsid.length + others.length := by
    rw [template]
    simp only [List.length_append, List.length_cons, List.length_nil, List.length_replicate]
  have header : (zeroContentsIes net mem).read 36 2 =
      [eidSsid, UInt8.ofNat net.hiddenSsid.length] := by
    have inside := @Mem.read_write_inside mem 36 0 2 net.ies (by omega)
    rw [zeroContentsIes, Mem.read_write_apart _ (.inl (by simp)), inside, template]
    rfl
  have behind : (zeroContentsIes net mem).read (36 + (2 + net.hiddenSsid.length))
      others.length = others := by
    have inside := @Mem.read_write_inside mem 36 (2 + net.hiddenSsid.length) others.length
      net.ies (by omega)
    have skip : net.ies.drop (2 + net.hiddenSsid.length) = others := by
      rw [template, List.drop_left' (by simp; omega)]
    rw [zeroContentsIes, Mem.read_write_apart _ (.inr (by omega)), inside, skip,
      List.take_length]
  have front : (zeroContentsIes net mem).read 0 36 = mem.read 0 36 := by
    rw [zeroContentsIes, Mem.read_write_apart _ (.inl (by simp)),
      Mem.read_write_apart _ (.inl (by simp))]
  have ssid : (zeroContentsIes net mem).read 38 net.hiddenSsid.length = net.hiddenSsid :=
    Mem.read_write_self _ 38 net.hiddenSsid
  rw [length, Mem.read_add, front, Nat.zero_add, Mem.read_add, behind, Mem.read_add, header, ssid]
  simp only [List.append_assoc]

end Elements

/-- The frame that is sent for a request with this SSID. -/
def answered (ap : HiddenAp) (pmgmt : Mem) : Mem × Nat :=
  let net := ap.nic.curNetwork
  if ap.contents then (zeroContentsIes net pmgmt, 36 + net.ies.length)
  else (zeroLenIes net pmgmt, 36 + net.ies.length + net.hiddenSsid.length)

def compareReads (ap : HiddenAp) : List Touch :=
  [.read 0 2, .read 4 6, .read 10 6] ++
    if ap.hiddenSsid.length ≠ 0 then [.read 26 ap.hiddenSsid.length] else []

theorem wfApProbe_some (ap : HiddenAp) (req : ProbeRequest ap) (pbuf : Mem) :
    wfApProbe ap.nic req.frame req.len (some pbuf) =
      if req.frame.read 26 ap.hiddenSsid.length = ap.hiddenSsid then
        ⟨0, ap.hiddenSsid, some (answered ap (setHeader ap.nic.curNetwork req.frame pbuf)),
          compareReads ap⟩
      else ⟨0, ap.ssid, none, compareReads ap⟩ := by
  have addressed := req.addressed
  have probe := req.probe
  cases contents : ap.contents <;>
    simp [wfApProbe, HiddenAp.nic, contents, addressed, probe, ssidEqual, answered,
      compareReads, ProbeNetwork.silent]

theorem wfApProbe_none (ap : HiddenAp) (req : ProbeRequest ap) :
    wfApProbe ap.nic req.frame req.len none = ⟨-1, ap.ssid, none, [.read 0 2, .read 4 6]⟩ := by
  have addressed := req.addressed
  have probe := req.probe
  simp [wfApProbe, HiddenAp.nic, addressed, probe, ProbeNetwork.silent]

theorem answered_response (ap : HiddenAp) (req : ProbeRequest ap) (pbuf : Mem) :
    Response ap req (answered ap (setHeader ap.nic.curNetwork req.frame pbuf)) := by
  have header : (setHeader ap.nic.curNetwork req.frame pbuf).read 0 36 =
      fixedPart ap req (pbuf.read 24 8) := setHeader_read ap.nic.curNetwork req.frame pbuf
  cases contents : ap.contents with
  | true =>
      have template : ap.nic.curNetwork.ies =
          [eidSsid, UInt8.ofNat ap.hiddenSsid.length] ++
            List.replicate ap.hiddenSsid.length 0 ++ ap.others := by
        simp [HiddenAp.nic, HiddenAp.ies, contents]
      have bytes := zeroContentsIes_read ap.nic.curNetwork
        (setHeader ap.nic.curNetwork req.frame pbuf) ap.others template
      rw [header] at bytes
      refine ⟨⟨pbuf.read 24 8, Mem.length_read _ _ _, ?_⟩, ?_⟩
      · rw [answered, if_pos contents]
        exact bytes
      · simp only [answered, contents, if_true, template]
        simp
        omega
  | false =>
      have template : ap.nic.curNetwork.ies = [eidSsid, 0] ++ ap.others := by
        simp [HiddenAp.nic, HiddenAp.ies, contents]
      have bytes := zeroLenIes_read ap.nic.curNetwork
        (setHeader ap.nic.curNetwork req.frame pbuf) ap.others template
      rw [header] at bytes
      refine ⟨⟨pbuf.read 24 8, Mem.length_read _ _ _, ?_⟩, ?_⟩
      · rw [answered, if_neg (by simp [contents])]
        exact bytes
      · have hidden : ap.nic.curNetwork.hiddenSsid = ap.hiddenSsid := rfl
        simp only [answered, contents, Bool.false_eq_true, if_false, template, hidden]
        simp
        omega

/-- The SSID of the request, from its first element on. -/
theorem asked_iff (header : 26 ≤ req.len.toNat) :
    Asked ap req ↔
      if req.frame 24 = eidSsid then
        26 + (req.frame 25).toNat ≤ req.len.toNat ∧
          req.frame.read 26 (req.frame 25).toNat = ap.hiddenSsid
      else findElement eidSsid (req.frame.read (26 + (req.frame 25).toNat)
        (req.len.toNat - 26 - (req.frame 25).toNat)) = some ap.hiddenSsid := by
  obtain ⟨n, length⟩ : ∃ n, req.len.toNat - 24 = n + 2 := ⟨req.len.toNat - 26, by omega⟩
  have rest : req.len.toNat - 26 = n := by omega
  rw [Asked, length, read_two, findElement, Mem.length_read, rest, Mem.drop_read]
  by_cases long : n < (req.frame 25).toNat
  · have none : n - (req.frame 25).toNat = 0 := by omega
    have cut : ¬ 26 + (req.frame 25).toNat ≤ req.len.toNat := by omega
    simp only [if_pos long, none, Mem.read_zero, cut, false_and]
    simp [findElement]
  · have whole : 26 + (req.frame 25).toNat ≤ req.len.toNat := by omega
    have data := @Mem.take_read req.frame 26 n (req.frame 25).toNat (by omega)
    simp only [if_neg long, data, whole, true_and]
    by_cases id : req.frame 24 = eidSsid
    · simp [id]
    · simp [id]

theorem Asked.header (asked : Asked ap req) : 26 ≤ req.len.toNat := by
  by_contra short
  rw [Asked] at asked
  rw [findElement] at asked
  · cases asked
  · intro e len rest same
    have length := congrArg List.length same
    rw [Mem.length_read, List.length_cons, List.length_cons] at length
    omega

/-- The comparison is right about a request that is long enough. -/
theorem compares_iff (room : 26 + ap.hiddenSsid.length ≤ req.len.toNat) :
    Compares ap req ↔
      (req.frame.read 26 ap.hiddenSsid.length = ap.hiddenSsid ↔ Asked ap req) := by
  have asked := @asked_iff ap req (by omega)
  by_cases id : req.frame 24 = eidSsid
  · rw [if_pos id] at asked
    by_cases same : (req.frame 25).toNat = ap.hiddenSsid.length
    · rw [same] at asked
      simp only [asked, room, true_and, iff_true]
      exact .ssid id same
    · have never : ¬ Asked ap req := by
        rw [asked]
        rintro ⟨-, bytes⟩
        have length := congrArg List.length bytes
        rw [Mem.length_read] at length
        exact same length
      simp only [never, iff_false]
      constructor
      · intro compares
        cases compares with
        | ssid _ equal => exact absurd equal same
        | otherSsid _ _ bytes => exact bytes
        | element other _ => exact absurd id other
      · exact .otherSsid id same
  · rw [if_neg id] at asked
    rw [asked]
    constructor
    · intro compares
      cases compares with
      | ssid here _ => exact absurd here id
      | otherSsid here _ _ => exact absurd here id
      | element _ behind => exact behind
    · exact .element id

theorem answers_some_iff :
    Answers ap req (some pbuf) ↔
      (req.frame.read 26 ap.hiddenSsid.length = ap.hiddenSsid ↔ Asked ap req) ∧
        Within req.len.toNat (compareReads ap) := by
  have run := wfApProbe_some ap req pbuf
  have response := answered_response ap req pbuf
  by_cases equal : req.frame.read 26 ap.hiddenSsid.length = ap.hiddenSsid
  · rw [if_pos equal] at run
    constructor
    · rintro ⟨exact, inside, -⟩
      rw [run] at exact inside
      exact ⟨by simpa [equal] using exact, inside⟩
    · rintro ⟨exact, inside⟩
      refine ⟨?_, ?_, ?_⟩
      · simpa [run, equal] using exact
      · simpa only [run] using inside
      · rw [run]
        rintro sent same
        obtain rfl := Option.some.inj same
        exact response
  · rw [if_neg equal] at run
    constructor
    · rintro ⟨exact, inside, -⟩
      rw [run] at exact inside
      exact ⟨by simpa [equal] using exact, inside⟩
    · rintro ⟨exact, inside⟩
      refine ⟨?_, ?_, ?_⟩
      · simpa [run, equal] using exact
      · simpa only [run] using inside
      · rw [run]
        nofun

/-- A hidden AP answers as it should exactly when the request is long enough and its SSID stands
where it is compared, or nothing there looks like the hidden SSID. -/
theorem hidden_probe_iff (ap : HiddenAp) (req : ProbeRequest ap) (pxmitBuf : Option Mem) :
    Answers ap req pxmitBuf ↔ Fitting ap req pxmitBuf := by
  cases pxmitBuf with
  | none =>
      have run := wfApProbe_none ap req
      constructor
      · rintro ⟨exact, inside, -⟩
        rw [run] at exact inside
        have long : 2 ≤ req.len.toNat ∧ 10 ≤ req.len.toNat := by simpa using inside
        exact ⟨long.2, by simpa using exact⟩
      · rintro ⟨long, silent⟩
        refine ⟨?_, ?_, ?_⟩
        · simpa [run] using silent
        · rw [run]
          simp
          omega
        · rw [run]
          nofun
  | some pbuf =>
      rw [answers_some_iff]
      have within_iff : Within req.len.toNat (compareReads ap) ↔
          16 ≤ req.len.toNat ∧
            (ap.hiddenSsid.length ≠ 0 → 26 + ap.hiddenSsid.length ≤ req.len.toNat) := by
        simp only [compareReads, within_append, within_cons, within_nil, ok_read, within_ite]
        grind
      rw [within_iff]
      constructor
      · rintro ⟨exact, -, room⟩
        have long : 26 + ap.hiddenSsid.length ≤ req.len.toNat := by
          by_cases empty : ap.hiddenSsid.length = 0
          · have nothing : ap.hiddenSsid = [] := List.length_eq_zero_iff.mp empty
            have asked := exact.mp (by simp [nothing])
            have header := asked.header
            omega
          · exact room empty
        exact ⟨long, (compares_iff long).mpr exact⟩
      · rintro ⟨long, compares⟩
        exact ⟨(compares_iff long).mp compares, by omega, fun _ => long⟩

def abcAp : HiddenAp where
  macAddr := apAddr
  bssid := apAddr
  bcnInterval := 100
  capInfo := 0x0411
  ssid := []
  contents := false
  hiddenSsid := [97, 98, 99]
  others := []
  short := by decide

/-- A broadcast request for the network `abcd`. -/
def abcdRequest : ProbeRequest abcAp where
  frame i := ([0x40, 0, 0, 0, 0xff, 0xff, 0xff, 0xff, 0xff, 0xff] ++ staAddr.toList ++
    List.replicate 6 0xff ++ [0, 0] ++ [0, 4, 97, 98, 99, 100]).getD i 0
  len := 30
  probe := by decide
  addressed := .inr (by decide)

theorem longer_ssid_answered : ¬ Answers abcAp abcdRequest (some fun _ => 0) := by
  rw [answers_some_iff, asked_iff (by decide)]
  rintro ⟨exact, -⟩
  have answered : abcdRequest.frame.read 26 abcAp.hiddenSsid.length = abcAp.hiddenSsid := by
    decide
  have asked := exact.mp answered
  rw [if_pos (by decide)] at asked
  exact absurd asked.2 (by decide)

end Proofs

end HiddenProbe

end Smartchip.Ap
