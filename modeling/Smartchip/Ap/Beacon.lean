import Smartchip.Ap.Association
import Smartchip.Foundation.Run
import Smartchip.Frame.Elements

/-!
# The channel of the beacon

`wf_ap_set_beacon`, `wf_ap_reset_beacon_channel`, `wf_resend_bcn` and `ap_launch_beacon` of
`nic/ap.c`, as far as they are about the channel: the radio, the network record and the two
elements of the beacon that name one.
-/

namespace Smartchip.Ap

open Smartchip.Foundation Smartchip.Frame

def eidDs : UInt8 := 3

def eidHtCap : UInt8 := 45

def eidHtOper : UInt8 := 61

/-- Of the two elements with a channel there is its byte, and none of those that are copied is
longer than its place.  A WMM element may be as short as any other. -/
structure WellFormedIe (ie : Ie) : Prop where
  short : ie.data.length < 256
  dsParams : ie.elementId = eidDs → ie.data ≠ []
  htOperation : ie.elementId = eidHtOper → ie.data ≠ [] ∧ ie.data.length ≤ 22
  htCapability : ie.elementId = eidHtCap → ie.data.length ≤ 26

/-- `pvar` is the memory of the caller from its elements on. -/
structure BeaconConfig where
  intv : UInt16
  capab : UInt16
  pvar : Mem
  ies : List Ie
  laidOut : pvar.read 0 (ieBytes ies).length = ieBytes ies
  wellFormed : ∀ ie ∈ ies, WellFormedIe ie
  fits : (ieBytes ies).length ≤ 768

def BeaconConfig.varLen (config : BeaconConfig) : Nat := (ieBytes config.ies).length

/-- The other interface; `wdn` is the channel of its WDN with the identifier 0. -/
structure BuddyNic where
  connect : Bool
  workMode : WorkMode
  wdn : Option UInt8

/-- `phtOper` is what has been written from `pht_oper` on, which is behind `pht_cap`. -/
structure CurNetwork where
  macAddr : MacAddr
  bssid : MacAddr
  channel : UInt8
  bcnInterval : UInt16
  capInfo : UInt16
  htEnable : Bool
  phtOper : List UInt8
  ies : List UInt8

structure BeaconFrame where
  sa : MacAddr
  bssid : MacAddr
  intv : UInt16
  capab : UInt16
  ies : List UInt8

/-- `channel` and `radio` are those of the interface when the frame is sent. -/
structure SentBeacon where
  frame : BeaconFrame
  channel : UInt8
  radio : Option UInt8

/-- `radio` is the channel last given to `wf_hw_info_set_channnel_bw`. -/
structure BeaconNic where
  cur : CurNetwork
  radio : Option UInt8
  sent : List SentBeacon

/-- The loop of `wf_ap_reset_beacon_channel`. -/
def resetBeaconChannel (channel : UInt8) : List UInt8 → List UInt8
  | e :: len :: rest =>
      if e = eidDs then e :: len :: rest.set 0 channel
      else e :: len :: (rest.take len.toNat ++ resetBeaconChannel channel (rest.drop len.toNat))
  | bytes => bytes
  termination_by bytes => bytes.length
  decreasing_by exact length_drop_lt e len rest

def wfApResetBeaconChannel (nic : BeaconNic) (channel : UInt8) : BeaconNic :=
  { nic with cur := { nic.cur with ies := resetBeaconChannel channel nic.cur.ies } }

/-- `buf` tells whether there is a buffer for the frame. -/
def apLaunchBeacon (nic : BeaconNic) (buf : Bool) : BeaconNic :=
  if buf then
    { nic with
      sent := nic.sent ++ [{
        frame := ⟨nic.cur.macAddr, nic.cur.bssid, nic.cur.bcnInterval, nic.cur.capInfo,
          nic.cur.ies⟩
        channel := nic.cur.channel
        radio := nic.radio }] }
  else nic

namespace SetBeacon

/-- The OUI, the type, the subtype and the version. -/
def wmmOui : List UInt8 := [0x00, 0x50, 0xf2, 2, 0, 1]

/-- Where the element is adjusted: the QoS information and the four `aci_aifsn`. -/
def wmmPlaces (pie : Nat) : List Nat := [pie + 8, pie + 10, pie + 14, pie + 18, pie + 22]

/-- The bits are set and cleared where `pie` points to, which is not the record. -/
def adjustWmm (pie : Nat) (buf : Mem) : Mem := fun i =>
  if i = pie + 8 then buf i ||| 0x80
  else if i ∈ wmmPlaces pie then buf i &&& ~~~0x10
  else buf i

end SetBeacon

/-- `wf_80211_mgmt_wmm_parse` takes the element, for any length of it. -/
def isWmm (pvar : Mem) (pie : Nat) : Bool :=
  pvar pie = eidVendorSpecific ∧ pvar.read (pie + 2) 6 = SetBeacon.wmmOui

/-- One round of the loop over the elements, as far as the record goes. -/
def checkoutIe (buddy : Option BuddyNic) (pvar : Mem) (pie : Nat) (cur : CurNetwork) :
    CurNetwork :=
  let data := pvar.read (pie + 2) (pvar (pie + 1)).toNat
  if pvar pie = eidDs then
    match buddy with
    | none => { cur with channel := pvar (pie + 2) }
    | some buddy =>
        if buddy.connect = true ∧ buddy.workMode = .infra then
          match buddy.wdn with
          | none => cur
          | some channel => { cur with channel, ies := resetBeaconChannel channel cur.ies }
        else { cur with channel := pvar (pie + 2) }
  else if pvar pie = eidHtCap then
    -- The copy is not cut, and the record behind is that of the HT operation.
    { cur with htEnable := true, phtOper := data.drop 26 ++ cur.phtOper.drop (data.length - 26) }
  else if pvar pie = eidHtOper then
    { cur with phtOper := data ++ cur.phtOper.drop data.length }
  else cur

/-- The loop, with `pvar[ofs]` as a WMM element leaves it for the rounds behind. -/
def checkoutFrom (buddy : Option BuddyNic) (varLen : Nat) (pvar : Mem) (ofs : Nat)
    (cur : CurNetwork) : CurNetwork :=
  if ofs < varLen then
    let cur := checkoutIe buddy pvar ofs cur
    let pvar := if isWmm pvar ofs then SetBeacon.adjustWmm ofs pvar else pvar
    checkoutFrom buddy varLen pvar (ofs + (2 + (pvar (ofs + 1)).toNat)) cur
  else cur
  termination_by varLen - ofs

/-- The network record before the loop. -/
def CurNetwork.initial (localAddr : MacAddr) (config : BeaconConfig) : CurNetwork where
  macAddr := localAddr
  bssid := localAddr
  channel := 0
  bcnInterval := config.intv
  capInfo := config.capab
  htEnable := false
  phtOper := List.replicate 22 0
  ies := config.pvar.read 0 config.varLen

/-- Without a channel of its own the record takes that of the HT operation. -/
def CurNetwork.adjustChannel (cur : CurNetwork) : CurNetwork :=
  if cur.htEnable = true ∧ cur.channel = 0 then { cur with channel := cur.phtOper.headD 0 }
  else cur

def checkoutIes (localAddr : MacAddr) (config : BeaconConfig) (buddy : Option BuddyNic) :
    CurNetwork :=
  checkoutFrom buddy config.varLen config.pvar 0 (.initial localAddr config)

def wfApSetBeacon (localAddr : MacAddr) (nic : BeaconNic) (config : BeaconConfig)
    (buddy : Option BuddyNic) (buf : Bool) : BeaconNic :=
  if config.varLen = 0 then nic
  else
    let cur := (checkoutIes localAddr config buddy).adjustChannel
    apLaunchBeacon { nic with cur, radio := some cur.channel } buf

def wfResendBcn (nic : BeaconNic) (channel : UInt8) (buf : Bool) : BeaconNic :=
  apLaunchBeacon (wfApResetBeaconChannel nic channel) buf

inductive BeaconEvent where
  | setBeacon (config : BeaconConfig) (buddy : Option BuddyNic) (buf : Bool)
  | resendBcn (channel : UInt8) (buf : Bool)

def beaconStep (localAddr : MacAddr) (nic : BeaconNic) : BeaconEvent → Option BeaconNic
  | .setBeacon config buddy buf => some (wfApSetBeacon localAddr nic config buddy buf)
  | .resendBcn channel buf => some (wfResendBcn nic channel buf)

/-- Nothing has been configured yet. -/
def beaconInit (localAddr : MacAddr) : BeaconNic where
  cur := ⟨localAddr, localAddr, 0, 0, 0, false, [], []⟩
  radio := none
  sent := []

/-! ## What is to hold -/

/-- The elements that name a channel. -/
def HasChannel (ie : Ie) : Prop :=
  ie.elementId = eidDs ∨ ie.elementId = eidHtOper

/-- All of them name this one. -/
def NameChannel (channel : UInt8) (ies : List Ie) : Prop :=
  ∀ ie ∈ ies, HasChannel ie → ie.data.head? = some channel

structure SentBeacon.InUse (sent : SentBeacon) : Prop where
  named : NameChannel sent.channel (ieWalk sent.frame.ies)
  radio : ∀ ie ∈ ieWalk sent.frame.ies, HasChannel ie → sent.radio = some sent.channel

def AnnouncesInUse (nic : BeaconNic) : Prop := ∀ sent ∈ nic.sent, sent.InUse

/-! ## When it does -/

def isDs (ie : Ie) : Bool := ie.elementId = eidDs

def HasElement (id : UInt8) (ies : List Ie) : Prop := ∃ ie ∈ ies, ie.elementId = id

/-- The other interface is a connected station. -/
def linked (buddy : Option BuddyNic) : Bool :=
  buddy.any fun b => b.connect && b.workMode = .infra

def stationChannel (buddy : Option BuddyNic) : Option UInt8 :=
  if linked buddy then buddy.bind BuddyNic.wdn else none

/-- The configuration names one channel, and the code takes it from there: from a DS element, or
from an HT operation with an HT capability.  Where it takes the channel of a station instead, the
first DS element is replaced, and all others have to name that channel. -/
def ConfigAllowed (ies : List Ie) (buddy : Option BuddyNic) : Prop :=
  (∃ channel ∈ stationChannel buddy,
      HasElement eidDs ies ∧ NameChannel channel (ies.eraseP isDs)) ∨
    (HasElement eidDs ies → stationChannel buddy = none) ∧
      ∃ channel, NameChannel channel ies ∧ (channel = 0 ∨
        linked buddy = false ∧ HasElement eidDs ies ∨
        HasElement eidHtCap ies ∧ HasElement eidHtOper ies)

/-- The channel sent again is that of the record, if it gets into the beacon at all, and so is
every other one in the beacon. -/
def ResendAllowed (cur : CurNetwork) (channel : UInt8) : Prop :=
  (HasElement eidDs (ieWalk cur.ies) → channel = cur.channel) ∧
    NameChannel cur.channel ((ieWalk cur.ies).eraseP isDs)

/-- The adjustment of a WMM element changes no byte of the elements behind it; from 21 bytes of
data on it stays inside the element. -/
def BeaconConfig.WmmSpares (config : BeaconConfig) : Prop :=
  ∀ before ie behind, config.ies = before ++ ie :: behind →
    isWmm config.pvar (ieBytes before).length = true →
      ∀ i, (ieBytes before).length + (2 + ie.data.length) ≤ i → i < config.varLen →
        SetBeacon.adjustWmm (ieBytes before).length config.pvar i = config.pvar i

def BeaconEvent.WmmSpares : BeaconEvent → Prop
  | .setBeacon config _ buf => buf = true → config.WmmSpares
  | .resendBcn _ _ => True

def BeaconAllowed (nic : BeaconNic) : BeaconEvent → Prop
  | .setBeacon config buddy buf => buf = true → ConfigAllowed config.ies buddy
  | .resendBcn channel buf => buf = true → ResendAllowed nic.cur channel

/-! ## The template -/

/-- `resetBeaconChannel` on elements. -/
def resetDs (channel : UInt8) : List Ie → List Ie
  | [] => []
  | ie :: ies =>
      if isDs ie then { ie with data := ie.data.set 0 channel } :: ies
      else ie :: resetDs channel ies

@[simp] theorem hasElement_nil (id : UInt8) : ¬ HasElement id [] := by simp [HasElement]

@[simp] theorem hasElement_cons (id : UInt8) (ie : Ie) (ies : List Ie) :
    HasElement id (ie :: ies) ↔ ie.elementId = id ∨ HasElement id ies := by
  simp [HasElement]

@[simp] theorem name_nil (channel : UInt8) : NameChannel channel [] := by simp [NameChannel]

@[simp] theorem name_cons (channel : UInt8) (ie : Ie) (ies : List Ie) :
    NameChannel channel (ie :: ies) ↔
      (HasChannel ie → ie.data.head? = some channel) ∧ NameChannel channel ies := by
  simp [NameChannel]

@[simp] theorem isDs_iff (ie : Ie) : isDs ie = true ↔ ie.elementId = eidDs := by
  simp [isDs]

section Template

variable {ies : List Ie} {channel other : UInt8}

theorem resetBeaconChannel_ieBytes (wellFormed : ∀ ie ∈ ies, WellFormedIe ie) :
    resetBeaconChannel channel (ieBytes ies) = ieBytes (resetDs channel ies) := by
  induction ies with
  | nil => simp [ieBytes, resetDs, resetBeaconChannel]
  | cons ie ies ih =>
      have ok := wellFormed ie (by simp)
      have rest := ih fun other member => wellFormed other (by simp [member])
      simp only [ieBytes, List.flatMap_cons, Ie.bytes, List.cons_append] at rest ⊢
      rw [resetBeaconChannel, length_ofNat ok.short, List.take_left, List.drop_left, rest, resetDs]
      cases ds : isDs ie with
      | true =>
          have nonempty := List.length_pos_of_ne_nil (ok.dsParams ((isDs_iff ie).mp ds))
          simp [(isDs_iff ie).mp ds, Ie.bytes, List.set_append_left _ _ nonempty]
      | false =>
          have away : ie.elementId ≠ eidDs := by simpa [isDs] using ds
          simp [away, Ie.bytes]

theorem wellFormed_resetDs (wellFormed : ∀ ie ∈ ies, WellFormedIe ie) :
    ∀ ie ∈ resetDs channel ies, WellFormedIe ie := by
  induction ies with
  | nil => simp [resetDs]
  | cons ie ies ih =>
      have ok := wellFormed ie (by simp)
      have rest := ih fun other member => wellFormed other (by simp [member])
      unfold resetDs
      split
      · simp only [List.mem_cons]
        rintro other (rfl | member)
        · constructor
          · simpa using ok.short
          · simpa using ok.dsParams
          · simpa using ok.htOperation
          · simpa using ok.htCapability
        · exact wellFormed other (by simp [member])
      · simp only [List.mem_cons]
        rintro other (rfl | member)
        · exact ok
        · exact rest other member

theorem resetDs_resetDs (channel : UInt8) (ies : List Ie) :
    resetDs channel (resetDs channel ies) = resetDs channel ies := by
  induction ies with
  | nil => rfl
  | cons ie ies ih =>
      by_cases here : ie.elementId = eidDs
      · simp [resetDs, here]
      · simp [resetDs, here, ih]

/-- The first DS element names the new channel, and the others what they named. -/
theorem name_resetDs (wellFormed : ∀ ie ∈ ies, WellFormedIe ie) :
    NameChannel other (resetDs channel ies) ↔
      (HasElement eidDs ies → channel = other) ∧ NameChannel other (ies.eraseP isDs) := by
  induction ies with
  | nil => simp [resetDs]
  | cons ie ies ih =>
      have ok := wellFormed ie (by simp)
      have rest := ih fun other member => wellFormed other (by simp [member])
      unfold resetDs
      cases ds : isDs ie with
      | true =>
          have here := (isDs_iff ie).mp ds
          have nonempty := List.length_pos_of_ne_nil (ok.dsParams here)
          simp [ds, HasChannel, here, List.head?_eq_getElem?, nonempty]
      | false =>
          have away : ie.elementId ≠ eidDs := by simpa [isDs] using ds
          simp [ds, away, rest, and_left_comm]

end Template

/-! ## The loop over the elements -/

/-- What a round makes of an element that is as it was given. -/
def recordIe (buddy : Option BuddyNic) (cur : CurNetwork) (ie : Ie) : CurNetwork :=
  if ie.elementId = eidDs then
    if linked buddy = false then { cur with channel := ie.data.headD 0 }
    else
      match stationChannel buddy with
      | none => cur
      | some channel => { cur with channel, ies := resetBeaconChannel channel cur.ies }
  else if ie.elementId = eidHtCap then { cur with htEnable := true }
  else if ie.elementId = eidHtOper then
    { cur with phtOper := ie.data ++ cur.phtOper.drop ie.data.length }
  else cur

section Memory

variable {buddy : Option BuddyNic} {pvar other : Mem} {pie : Nat} {cur : CurNetwork} {ie : Ie}

/-- The element is in the memory. -/
def HasIe (pvar : Mem) (pie : Nat) (ie : Ie) : Prop :=
  pvar.read pie (ie.data.length + 2) = ie.bytes

theorem HasIe.fields (has : HasIe pvar pie ie) : pvar pie = ie.elementId ∧
    pvar (pie + 1) = UInt8.ofNat ie.data.length ∧
    pvar.read (pie + 2) ie.data.length = ie.data := by
  unfold HasIe Ie.bytes at has
  rw [read_two] at has
  simpa only [List.cons.injEq] using has

theorem HasIe.size (has : HasIe pvar pie ie) (short : ie.data.length < 256) :
    (pvar (pie + 1)).toNat = ie.data.length := by
  rw [has.fields.2.1, length_ofNat short]

theorem checkoutIe_eq (has : HasIe pvar pie ie) (ok : WellFormedIe ie) :
    checkoutIe buddy pvar pie cur = recordIe buddy cur ie := by
  obtain ⟨elementId, -, data⟩ := has.fields
  have first (ds : ie.elementId = eidDs) : pvar (pie + 2) = ie.data.headD 0 := by
    have filled := List.length_pos_of_ne_nil (ok.dsParams ds)
    have byte := Mem.getElem?_read pvar (pie + 2) filled
    rw [data] at byte
    rw [List.headD_eq_head?_getD, List.head?_eq_getElem?, byte]
    rfl
  unfold checkoutIe recordIe linked stationChannel linked
  rw [has.size ok.short, data, elementId]
  dsimp only
  by_cases ds : ie.elementId = eidDs
  · rw [if_pos ds, if_pos ds, first ds]
    cases buddy with
    | none => rfl
    | some b =>
        by_cases link : b.connect = true ∧ b.workMode = .infra
        · simp [link]
        · simp [link]
  · rw [if_neg ds, if_neg ds]
    by_cases cap : ie.elementId = eidHtCap
    · have inside := ok.htCapability cap
      simp [cap, List.drop_eq_nil_of_le inside, Nat.sub_eq_zero_of_le inside]
    · rw [if_neg cap, if_neg cap]

theorem isWmm_congr (same : ∀ i, pie ≤ i → i < pie + 8 → other i = pvar i) :
    isWmm other pie = isWmm pvar pie := by
  have read : other.read (pie + 2) 6 = pvar.read (pie + 2) 6 :=
    Mem.read_eq_iff.2 fun i _ => same _ (by omega) (by omega)
  unfold isWmm
  rw [same pie (Nat.le_refl pie) (by omega), read]

theorem adjustWmm_congr {i : Nat} (same : other i = pvar i) :
    SetBeacon.adjustWmm pie other i = SetBeacon.adjustWmm pie pvar i := by
  unfold SetBeacon.adjustWmm
  rw [same]

/-- Nothing changes but the five places. -/
theorem adjustWmm_outside {i : Nat} (outside : i < pie + 8 ∨ pie + 23 ≤ i) :
    SetBeacon.adjustWmm pie pvar i = pvar i := by
  have away : i ∉ SetBeacon.wmmPlaces pie := by
    simp [SetBeacon.wmmPlaces]
    omega
  unfold SetBeacon.adjustWmm
  rw [if_neg (by omega), if_neg away]

end Memory

section Loop

variable (buddy : Option BuddyNic) {cur : CurNetwork} {ies : List Ie} {channel : UInt8}

theorem linked_of_station (station : stationChannel buddy = some channel) :
    linked buddy = true := by
  cases link : linked buddy with
  | true => rfl
  | false => simp [stationChannel, link] at station

theorem recordIe_ds {ie : Ie} (ds : ie.elementId = eidDs) :
    recordIe buddy cur ie =
      if linked buddy = false then { cur with channel := ie.data.headD 0 }
      else
        match stationChannel buddy with
        | none => cur
        | some channel => { cur with channel, ies := resetBeaconChannel channel cur.ies } :=
  if_pos ds

theorem recordIe_other {ie : Ie} (other : ie.elementId ≠ eidDs) :
    (recordIe buddy cur ie).channel = cur.channel ∧
      (recordIe buddy cur ie).ies = cur.ies := by
  unfold recordIe
  rw [if_neg other]
  split_ifs <;> simp

theorem recordIe_htEnable (ie : Ie) : (recordIe buddy cur ie).htEnable = true ↔
    cur.htEnable = true ∨ ie.elementId = eidHtCap := by
  by_cases ds : ie.elementId = eidDs
  · rw [recordIe_ds buddy ds, ds]
    split_ifs
    · simp [eidDs, eidHtCap]
    · cases stationChannel buddy <;> simp [eidDs, eidHtCap]
  · unfold recordIe
    rw [if_neg ds]
    split_ifs with cap op
    · simp [cap]
    · simp [cap]
    · simp [cap]

theorem recordIe_phtOper (ie : Ie) : (recordIe buddy cur ie).phtOper =
    if ie.elementId = eidHtOper then ie.data ++ cur.phtOper.drop ie.data.length
    else cur.phtOper := by
  by_cases ds : ie.elementId = eidDs
  · have notOp : ie.elementId ≠ eidHtOper := by simp [ds, eidDs, eidHtOper]
    rw [recordIe_ds buddy ds, if_neg notOp]
    split_ifs
    · rfl
    · cases stationChannel buddy <;> rfl
  · unfold recordIe
    rw [if_neg ds]
    by_cases cap : ie.elementId = eidHtCap
    · simp [cap, eidHtCap, eidHtOper]
    · rw [if_neg cap]
      split_ifs <;> rfl

theorem htEnable_foldl (ies : List Ie) (cur : CurNetwork) :
    (ies.foldl (recordIe buddy) cur).htEnable = true ↔
      cur.htEnable = true ∨ HasElement eidHtCap ies := by
  induction ies generalizing cur with
  | nil => simp
  | cons ie ies ih => simp [ih, recordIe_htEnable, or_assoc]

theorem phtOper_foldl_none (none : ¬ HasElement eidHtOper ies) :
    (ies.foldl (recordIe buddy) cur).phtOper = cur.phtOper := by
  induction ies generalizing cur with
  | nil => rfl
  | cons ie ies ih =>
      simp only [hasElement_cons, not_or] at none
      rw [List.foldl_cons, ih none.2, recordIe_phtOper, if_neg none.1]

/-- The HT operation has the channel that all of them name. -/
theorem phtOper_foldl_name
    (name : ∀ ie ∈ ies, ie.elementId = eidHtOper → ie.data.head? = some channel)
    (has : cur.phtOper.headD 0 = channel ∨ HasElement eidHtOper ies) :
    (ies.foldl (recordIe buddy) cur).phtOper.headD 0 = channel := by
  induction ies generalizing cur with
  | nil => simpa using has
  | cons ie ies ih =>
      simp only [hasElement_cons] at has
      apply ih fun other member => name other (by simp [member])
      rw [recordIe_phtOper]
      by_cases op : ie.elementId = eidHtOper
      · have head := name ie (by simp) op
        simp [op, List.headD_eq_head?_getD, List.head?_append, head]
      · simpa [op] using has

/-- What no element changes is as before the loop. -/
theorem foldl_kept {α : Type} (read : CurNetwork → α)
    (others : ∀ cur ie, ie.elementId ≠ eidDs → read (recordIe buddy cur ie) = read cur)
    (kept : HasElement eidDs ies → ∀ cur ie, ie.elementId = eidDs →
      read (recordIe buddy cur ie) = read cur) :
    read (ies.foldl (recordIe buddy) cur) = read cur := by
  induction ies generalizing cur with
  | nil => rfl
  | cons ie ies ih =>
      simp only [hasElement_cons] at kept
      rw [List.foldl_cons, ih fun has => kept (.inr has)]
      by_cases ds : ie.elementId = eidDs
      · exact kept (.inl ds) cur ie ds
      · exact others cur ie ds

theorem channel_foldl_kept (kept : HasElement eidDs ies →
      linked buddy = true ∧ stationChannel buddy = none) :
    (ies.foldl (recordIe buddy) cur).channel = cur.channel := by
  apply foldl_kept buddy CurNetwork.channel
  · intro cur ie other
    exact (recordIe_other buddy other).1
  · intro has cur ie ds
    rw [recordIe_ds buddy ds]
    simp [kept has]

theorem channel_foldl_station (station : stationChannel buddy = some channel)
    (has : cur.channel = channel ∨ HasElement eidDs ies) :
    (ies.foldl (recordIe buddy) cur).channel = channel := by
  have link := linked_of_station buddy station
  induction ies generalizing cur with
  | nil => simpa using has
  | cons ie ies ih =>
      simp only [hasElement_cons] at has
      apply ih
      by_cases ds : ie.elementId = eidDs
      · rw [recordIe_ds buddy ds]
        simp [link, station]
      · rw [(recordIe_other buddy ds).1]
        simpa [ds] using has

/-- The record has the channel that all elements name. -/
theorem channel_foldl_name (unlinked : linked buddy = false) (name : NameChannel channel ies)
    (has : cur.channel = channel ∨ HasElement eidDs ies) :
    (ies.foldl (recordIe buddy) cur).channel = channel := by
  induction ies generalizing cur with
  | nil => simpa using has
  | cons ie ies ih =>
      simp only [name_cons, hasElement_cons] at name has
      apply ih name.2
      by_cases ds : ie.elementId = eidDs
      · have head := name.1 (.inl ds)
        rw [recordIe_ds buddy ds]
        simp [unlinked, List.headD_eq_head?_getD, head]
      · rw [(recordIe_other buddy ds).1]
        simpa [ds] using has

theorem ies_foldl_kept (kept : HasElement eidDs ies → stationChannel buddy = none) :
    (ies.foldl (recordIe buddy) cur).ies = cur.ies := by
  apply foldl_kept buddy CurNetwork.ies
  · intro cur ie other
    exact (recordIe_other buddy other).2
  · intro has cur ie ds
    rw [recordIe_ds buddy ds, kept has]
    split_ifs <;> rfl

/-- Every DS element sets the first one of the template. -/
theorem ies_foldl_station (station : stationChannel buddy = some channel) {template : List Ie}
    (wellFormed : ∀ ie ∈ template, WellFormedIe ie)
    (bytes : cur.ies = ieBytes (resetDs channel template) ∨
      cur.ies = ieBytes template ∧ HasElement eidDs ies) :
    (ies.foldl (recordIe buddy) cur).ies = ieBytes (resetDs channel template) := by
  induction ies generalizing cur with
  | nil => simpa using bytes
  | cons ie ies ih =>
      apply ih
      by_cases ds : ie.elementId = eidDs
      · left
        rw [recordIe_ds buddy ds]
        simp only [linked_of_station buddy station, station]
        rcases bytes with set | ⟨unset, -⟩
        · simp [set, resetBeaconChannel_ieBytes (wellFormed_resetDs wellFormed), resetDs_resetDs]
        · simp [unset, resetBeaconChannel_ieBytes wellFormed]
      · rw [(recordIe_other buddy ds).2]
        simpa [ds] using bytes

end Loop

/-! ## Steps -/

theorem adjustChannel_ies (cur : CurNetwork) : cur.adjustChannel.ies = cur.ies := by
  unfold CurNetwork.adjustChannel
  split_ifs <;> rfl

/-- What the loop makes of elements that it leaves alone. -/
def recordIes (localAddr : MacAddr) (config : BeaconConfig) (buddy : Option BuddyNic) :
    CurNetwork :=
  config.ies.foldl (recordIe buddy) (.initial localAddr config)

section Config

variable {localAddr : MacAddr} {config : BeaconConfig} {buddy : Option BuddyNic}
  {channel : UInt8}

/-- The channel of the record, where the DS elements set none. -/
theorem channel_of_htOperation (has : HasElement eidDs config.ies →
      linked buddy = true ∧ stationChannel buddy = none) :
    (recordIes localAddr config buddy).adjustChannel.channel =
      if (recordIes localAddr config buddy).htEnable then
        (recordIes localAddr config buddy).phtOper.headD 0
      else 0 := by
  have kept : (recordIes localAddr config buddy).channel = 0 := by
    rw [recordIes, channel_foldl_kept buddy has]
    rfl
  unfold CurNetwork.adjustChannel
  cases (recordIes localAddr config buddy).htEnable <;> simp [kept]

/-- The channel that all elements name, where the code takes it from one. -/
theorem channel_of_name (name : NameChannel channel config.ies)
    (source : channel = 0 ∨ linked buddy = false ∧ HasElement eidDs config.ies ∨
      HasElement eidHtCap config.ies ∧ HasElement eidHtOper config.ies)
    (unset : HasElement eidDs config.ies → stationChannel buddy = none) :
    (recordIes localAddr config buddy).adjustChannel.channel = channel := by
  have named : ∀ ie ∈ config.ies, ie.elementId = eidHtOper →
      ie.data.head? = some channel := fun ie member op => name ie member (.inr op)
  have primary (has : channel = 0 ∨ HasElement eidHtOper config.ies) :
      (recordIes localAddr config buddy).phtOper.headD 0 = channel := by
    rw [recordIes]
    apply phtOper_foldl_name buddy named
    exact has.imp_left fun zero => by rw [zero]; rfl
  by_cases own : linked buddy = false ∧ HasElement eidDs config.ies
  · have found : (recordIes localAddr config buddy).channel = channel := by
      rw [recordIes]
      exact channel_foldl_name buddy own.1 name (.inr own.2)
    unfold CurNetwork.adjustChannel
    split_ifs with adjusts
    · exact primary (.inl (found.symm.trans adjusts.2))
    · exact found
  · have link : HasElement eidDs config.ies →
        linked buddy = true ∧ stationChannel buddy = none := by
      intro has
      exact ⟨by simpa using fun off => own ⟨off, has⟩, unset has⟩
    rw [channel_of_htOperation link]
    rcases source with zero | source | ⟨cap, op⟩
    · split_ifs
      · exact primary (.inl zero)
      · exact zero.symm
    · exact absurd source own
    · have enabled : (recordIes localAddr config buddy).htEnable = true := by
        rw [recordIes, htEnable_foldl]
        exact .inr cap
      rw [if_pos enabled]
      exact primary (.inr op)

/-- A station's channel gets into the record and into the first DS element. -/
theorem name_of_station (station : stationChannel buddy = some channel)
    (has : HasElement eidDs config.ies) :
    NameChannel (recordIes localAddr config buddy).adjustChannel.channel
        (ieWalk (recordIes localAddr config buddy).ies) ↔
      NameChannel channel (config.ies.eraseP isDs) := by
  have found : (recordIes localAddr config buddy).channel = channel := by
    rw [recordIes]
    exact channel_foldl_station buddy station (.inr has)
  have template : ieWalk (recordIes localAddr config buddy).ies =
      resetDs channel config.ies := by
    rw [recordIes, ies_foldl_station buddy station config.wellFormed (.inr ⟨config.laidOut, has⟩)]
    exact ieWalk_ieBytes fun ie member => (wellFormed_resetDs config.wellFormed ie member).short
  rw [template, name_resetDs config.wellFormed]
  constructor
  · rintro ⟨same, name⟩
    rwa [same has]
  · intro name
    have kept : (recordIes localAddr config buddy).adjustChannel.channel = channel := by
      unfold CurNetwork.adjustChannel
      split_ifs with adjusts
      · have zero : channel = 0 := found.symm.trans adjusts.2
        dsimp only
        rw [recordIes]
        apply phtOper_foldl_name buddy _ (.inl (by rw [zero]; rfl))
        intro ie member op
        have notDs : ¬ isDs ie = true := by simp [op, eidDs, eidHtOper]
        exact name ie ((List.mem_eraseP_of_neg notDs).mpr member) (.inr op)
      · exact found
    rw [kept]
    exact ⟨fun _ => rfl, name⟩

/-- The beacon of a configuration names the channel of the record exactly when it may. -/
theorem name_config : NameChannel (recordIes localAddr config buddy).adjustChannel.channel
      (ieWalk (recordIes localAddr config buddy).ies) ↔ ConfigAllowed config.ies buddy := by
  by_cases unset : HasElement eidDs config.ies → stationChannel buddy = none
  · have template : ieWalk (recordIes localAddr config buddy).ies = config.ies := by
      rw [recordIes, ies_foldl_kept buddy unset, CurNetwork.initial, BeaconConfig.varLen,
        config.laidOut]
      exact ieWalk_ieBytes fun ie member => (config.wellFormed ie member).short
    rw [template]
    constructor
    · intro name
      refine .inr ⟨unset, _, name, ?_⟩
      by_contra nowhere
      simp only [not_or] at nowhere
      obtain ⟨nonzero, own, ht⟩ := nowhere
      apply nonzero
      rw [channel_of_htOperation fun has =>
        ⟨by simpa using fun off => own ⟨off, has⟩, unset has⟩]
      split_ifs with enabled
      · rw [recordIes, htEnable_foldl] at enabled
        have cap : HasElement eidHtCap config.ies := by
          simpa [CurNetwork.initial] using enabled
        rw [recordIes, phtOper_foldl_none buddy fun op => ht ⟨cap, op⟩]
        rfl
      · rfl
    · rintro (⟨channel, station, has, -⟩ | ⟨-, channel, name, source⟩)
      · simp [unset has] at station
      · rwa [channel_of_name name source unset]
  · simp only [Classical.not_imp] at unset
    obtain ⟨has, set⟩ := unset
    obtain ⟨channel, station⟩ := Option.ne_none_iff_exists'.mp set
    rw [name_of_station station has]
    unfold ConfigAllowed
    simp [station, has]

end Config

/-- The elements are in the memory of the caller. -/
theorem BeaconConfig.hasIe {config : BeaconConfig} {before behind : List Ie} {ie : Ie}
    (split : config.ies = before ++ ie :: behind) :
    HasIe config.pvar (ieBytes before).length ie := by
  have bytes := config.laidOut
  rw [split] at bytes
  simp only [ieBytes, List.flatMap_append, List.flatMap_cons, List.length_append] at bytes
  have here := congrArg (fun all => (all.drop (ieBytes before).length).take ie.bytes.length) bytes
  have size : ie.bytes.length = ie.data.length + 2 := rfl
  simp only [Mem.drop_read, ieBytes, List.drop_left, List.take_left] at here
  rw [Mem.take_read _ _ (by omega), Nat.zero_add] at here
  exact here

/-- Behind a WMM element that spares the others the memory is as it was given. -/
theorem BeaconConfig.WmmSpares.adjusted {config : BeaconConfig} (spares : config.WmmSpares)
    {before behind : List Ie} {ie : Ie} (split : config.ies = before ++ ie :: behind) {pvar : Mem}
    (same : ∀ i, (ieBytes before).length ≤ i → i < config.varLen → pvar i = config.pvar i)
    (wmm : isWmm pvar (ieBytes before).length = true) {i : Nat}
    (past : (ieBytes before).length + (2 + ie.data.length) ≤ i) (inside : i < config.varLen) :
    SetBeacon.adjustWmm (ieBytes before).length pvar i = config.pvar i := by
  by_cases near : (ieBytes before).length + 8 ≤ config.varLen
  · have given : isWmm config.pvar (ieBytes before).length = true := by
      rwa [← isWmm_congr fun j low high => same j low (by omega)]
    rw [adjustWmm_congr (same i (by omega) inside)]
    exact spares before ie behind split given i past inside
  · -- It was taken for one by bytes that are behind all elements, as are the adjusted ones.
    rw [adjustWmm_outside (by omega)]
    exact same i (by omega) inside

/-- Behind every element the memory up to the end is as it was given. -/
theorem checkoutFrom_eq {config : BeaconConfig} (buddy : Option BuddyNic)
    (spares : config.WmmSpares) {before ies : List Ie} (split : config.ies = before ++ ies)
    {pvar : Mem}
    (same : ∀ i, (ieBytes before).length ≤ i → i < config.varLen → pvar i = config.pvar i)
    (cur : CurNetwork) :
    checkoutFrom buddy config.varLen pvar (ieBytes before).length cur =
      ies.foldl (recordIe buddy) cur := by
  induction ies generalizing before pvar cur with
  | nil =>
      have ends : ¬ (ieBytes before).length < config.varLen := by
        simp [BeaconConfig.varLen, split]
      rw [checkoutFrom, if_neg ends]
      rfl
  | cons ie ies ih =>
      have ok := config.wellFormed ie (by simp [split])
      have inside : (ieBytes before).length + (2 + ie.data.length) ≤ config.varLen := by
        simp [BeaconConfig.varLen, split, ieBytes, Ie.bytes]
        omega
      have has : HasIe pvar (ieBytes before).length ie := by
        unfold HasIe
        rw [← BeaconConfig.hasIe split]
        exact Mem.read_eq_iff.2 fun i short => same _ (by omega) (by omega)
      have next : (ieBytes (before ++ [ie])).length =
          (ieBytes before).length + (2 + ie.data.length) := by
        simp [ieBytes, Ie.bytes]
        omega
      rw [checkoutFrom, if_pos (by omega), checkoutIe_eq has ok, List.foldl_cons]
      dsimp only
      by_cases wmm : isWmm pvar (ieBytes before).length = true
      · rw [if_pos wmm, adjustWmm_outside (by omega), has.size ok.short, ← next]
        apply ih (by simp [split])
        intro i past
        rw [next] at past
        exact spares.adjusted split same wmm past
      · rw [if_neg wmm, has.size ok.short, ← next]
        apply ih (by simp [split])
        intro i past
        exact same i (by omega)

theorem checkoutIes_eq {config : BeaconConfig} (spares : config.WmmSpares) (localAddr : MacAddr)
    (buddy : Option BuddyNic) :
    checkoutIes localAddr config buddy = recordIes localAddr config buddy :=
  checkoutFrom_eq buddy spares (List.nil_append _).symm (fun _ _ _ => rfl) _

/-- The bytes of well-formed elements. -/
def IsTemplate (bytes : List UInt8) : Prop :=
  ∃ ies, (∀ ie ∈ ies, WellFormedIe ie) ∧ bytes = ieBytes ies

theorem IsTemplate.reset {bytes : List UInt8} (template : IsTemplate bytes) (channel : UInt8) :
    IsTemplate (resetBeaconChannel channel bytes) := by
  obtain ⟨ies, wellFormed, rfl⟩ := template
  exact ⟨_, wellFormed_resetDs wellFormed, resetBeaconChannel_ieBytes wellFormed⟩

theorem IsTemplate.checkoutIe {buddy : Option BuddyNic} {cur : CurNetwork}
    (template : IsTemplate cur.ies) (pvar : Mem) (pie : Nat) :
    IsTemplate (checkoutIe buddy pvar pie cur).ies := by
  unfold Ap.checkoutIe
  dsimp only
  split_ifs
  · cases buddy with
    | none => exact template
    | some b =>
        dsimp only
        split_ifs
        · cases b.wdn with
          | none => exact template
          | some channel => exact template.reset channel
        · exact template
  · exact template
  · exact template
  · exact template

theorem IsTemplate.checkoutFrom {buddy : Option BuddyNic} {varLen : Nat} {pvar : Mem} {ofs : Nat}
    {cur : CurNetwork} (template : IsTemplate cur.ies) :
    IsTemplate (checkoutFrom buddy varLen pvar ofs cur).ies := by
  fun_induction Ap.checkoutFrom buddy varLen pvar ofs cur with
  | case1 pvar ofs cur inside after memory ih => exact ih (template.checkoutIe _ _)
  | case2 => exact template

/-- The template is a list of elements, and from the first configuration on the radio is on the
channel of the record. -/
structure Configured (nic : BeaconNic) : Prop where
  template : IsTemplate nic.cur.ies
  radio : nic.cur.ies = [] ∨ nic.radio = some nic.cur.channel

section Steps

variable {localAddr : MacAddr} {nic : BeaconNic} {config : BeaconConfig}
  {buddy : Option BuddyNic} {buf : Bool} {channel : UInt8}

theorem Configured.launch (configured : Configured nic) (buf : Bool) :
    Configured (apLaunchBeacon nic buf) := by
  unfold apLaunchBeacon
  split_ifs
  · exact ⟨configured.template, configured.radio⟩
  · exact configured

/-- What is sent is the template, with the radio on the channel of the record. -/
theorem announces_launch (configured : Configured nic) (announces : AnnouncesInUse nic) :
    AnnouncesInUse (apLaunchBeacon nic buf) ↔
      (buf = true → NameChannel nic.cur.channel (ieWalk nic.cur.ies)) := by
  unfold apLaunchBeacon
  split_ifs with available
  · simp only [available, forall_const]
    constructor
    · intro after
      exact (after _ (List.mem_append_right _ (List.mem_singleton.mpr rfl))).named
    · intro name sent member
      rcases List.mem_append.mp member with old | new
      · exact announces sent old
      · rw [List.mem_singleton.mp new]
        refine ⟨name, ?_⟩
        intro ie inside _
        rcases configured.radio with empty | radio
        · simp [empty, ieWalk] at inside
        · exact radio
  · simpa [available] using announces

theorem Configured.reset (configured : Configured nic) (channel : UInt8) :
    Configured (wfApResetBeaconChannel nic channel) := by
  refine ⟨configured.template.reset channel, configured.radio.imp_left fun empty => ?_⟩
  simp [wfApResetBeaconChannel, empty, resetBeaconChannel]

/-- A channel sent again gets into the first DS element. -/
theorem name_reset (configured : Configured nic) :
    NameChannel nic.cur.channel (ieWalk (resetBeaconChannel channel nic.cur.ies)) ↔
      ResendAllowed nic.cur channel := by
  obtain ⟨ies, wellFormed, bytes⟩ := configured.template
  have walk {ies : List Ie} (wellFormed : ∀ ie ∈ ies, WellFormedIe ie) :
      ieWalk (ieBytes ies) = ies :=
    ieWalk_ieBytes fun ie member => (wellFormed ie member).short
  unfold ResendAllowed
  rw [bytes, resetBeaconChannel_ieBytes wellFormed, walk (wellFormed_resetDs wellFormed),
    walk wellFormed, name_resetDs wellFormed]

theorem Configured.set (localAddr : MacAddr) (nic : BeaconNic) (config : BeaconConfig)
    (buddy : Option BuddyNic) :
    let cur := (checkoutIes localAddr config buddy).adjustChannel
    Configured { nic with cur, radio := some cur.channel } := by
  refine ⟨?_, .inr rfl⟩
  dsimp only
  rw [adjustChannel_ies]
  exact IsTemplate.checkoutFrom ⟨config.ies, config.wellFormed, config.laidOut⟩

theorem configAllowed_nil (empty : config.varLen = 0) :
    ConfigAllowed config.ies buddy := by
  have none : config.ies = [] := by
    cases ies : config.ies with
    | nil => rfl
    | cons ie rest => simp [BeaconConfig.varLen, ies, ieBytes, Ie.bytes] at empty
  rw [none]
  exact .inr ⟨fun has => absurd has (hasElement_nil _), 0, name_nil 0, .inl rfl⟩

/-- Where the WMM elements spare the others, a step announces the channel in use exactly when it
is allowed to. -/
theorem beaconStep_iff (localAddr : MacAddr) (configured : Configured nic)
    (announces : AnnouncesInUse nic) (event : BeaconEvent) :
    ∃ next, beaconStep localAddr nic event = some next ∧ Configured next ∧
      (event.WmmSpares → (AnnouncesInUse next ↔ BeaconAllowed nic event)) := by
  cases event with
  | setBeacon config buddy buf =>
      refine ⟨_, rfl, ?_⟩
      unfold wfApSetBeacon
      split_ifs with empty
      · exact ⟨configured, fun _ => ⟨fun _ _ => configAllowed_nil empty, fun _ => announces⟩⟩
      · have set := Configured.set localAddr nic config buddy
        refine ⟨set.launch buf, fun spares => ?_⟩
        rw [announces_launch set announces]
        refine forall_congr' fun sends => ?_
        rw [adjustChannel_ies, checkoutIes_eq (spares sends), name_config]
  | resendBcn channel buf =>
      have reset := configured.reset channel
      refine ⟨_, rfl, reset.launch buf, fun _ => ?_⟩
      unfold wfResendBcn
      rw [announces_launch reset announces]
      simp only [wfApResetBeaconChannel, name_reset configured]
      rfl

end Steps

theorem configured_init (localAddr : MacAddr) : Configured (beaconInit localAddr) :=
  ⟨⟨[], by simp, rfl⟩, .inl rfl⟩

/--
The beacons name the channel in use throughout the runs in which the WMM elements of each
configuration spare the others, it is consistent in itself and with a connected station, and what
is sent again is the same channel.  Where the WMM elements spare the others, no other runs do.
-/
theorem beacons_in_use (localAddr : MacAddr) (events : List BeaconEvent) :
    (EachStep (beaconStep localAddr) (fun nic event => event.WmmSpares ∧ BeaconAllowed nic event)
        (beaconInit localAddr) events →
      Throughout (beaconStep localAddr) AnnouncesInUse (beaconInit localAddr) events) ∧
    (Throughout (beaconStep localAddr) AnnouncesInUse (beaconInit localAddr) events →
      EachStep (beaconStep localAddr) (fun nic event => event.WmmSpares → BeaconAllowed nic event)
        (beaconInit localAddr) events) := by
  have configured := configured_init localAddr
  constructor
  · intro allowed
    apply allowed.throughout fun nic => Configured nic ∧ AnnouncesInUse nic
    · exact fun nic clean => clean.2
    · rintro nic event ⟨configured, announces⟩ ⟨spares, allowed⟩
      obtain ⟨next, steps, after, same⟩ := beaconStep_iff localAddr configured announces event
      exact ⟨next, steps, after, (same spares).2 allowed⟩
    · exact ⟨configured, by simp [AnnouncesInUse, beaconInit]⟩
  · apply Throughout.eachStep Configured _ configured
    intro nic event next configured announces steps good
    obtain ⟨next', steps', after, same⟩ := beaconStep_iff localAddr configured announces event
    rw [steps', Option.some.injEq] at steps
    subst steps
    exact ⟨fun spares => (same spares).1 good, after⟩

/-- An access point on channel 6 with both HT elements. -/
def channelSixIes : List Ie :=
  [⟨3, [6]⟩, ⟨45, List.replicate 26 0⟩, ⟨61, 6 :: List.replicate 21 0⟩]

def channelSix : BeaconConfig where
  intv := 100
  capab := 0
  pvar := Mem.write (fun _ => 0) 0 (ieBytes channelSixIes)
  ies := channelSixIes
  laidOut := Mem.read_write_self _ _ _
  wellFormed := by
    simp only [channelSixIes, List.forall_mem_cons]
    refine ⟨?_, ?_, ?_, by simp⟩
    all_goals constructor <;> simp [eidDs, eidHtOper, eidHtCap]
  fits := by decide

/-- The other interface is a station on channel 11. -/
def stationOnEleven : BuddyNic := ⟨true, .infra, some 11⟩

def setBesideStation : List BeaconEvent := [.setBeacon channelSix (some stationOnEleven) true]

/-- The beacon names channel 11 in one element and 6 in the other. -/
theorem beacon_names_two_channels :
    (run (beaconStep (Vector.replicate 6 0)) (beaconInit (Vector.replicate 6 0))
        setBesideStation).map (fun nic => nic.sent.map fun s => (s.radio, ieWalk s.frame.ies)) =
      some [(some 11,
        [⟨3, [11]⟩, ⟨45, List.replicate 26 0⟩, ⟨61, 6 :: List.replicate 21 0⟩])] ∧
      ¬ Throughout (beaconStep (Vector.replicate 6 0)) AnnouncesInUse
        (beaconInit (Vector.replicate 6 0)) setBesideStation := by
  have ends : (run (beaconStep (Vector.replicate 6 0)) (beaconInit (Vector.replicate 6 0))
      setBesideStation).map (fun nic => nic.sent.map fun s => (s.radio, ieWalk s.frame.ies)) =
      some [(some 11,
        [⟨3, [11]⟩, ⟨45, List.replicate 26 0⟩, ⟨61, 6 :: List.replicate 21 0⟩])] := by
    decide +kernel
  refine ⟨ends, ?_⟩
  intro throughout
  obtain ⟨final, announces, sent⟩ := throughout.observed ends
  obtain ⟨beacon, only, same⟩ := List.map_eq_singleton_iff.mp sent
  rw [Prod.mk.injEq] at same
  have inUse := announces beacon (by simp [only])
  have six := inUse.named ⟨61, 6 :: List.replicate 21 0⟩ (by simp [same.2]) (.inr rfl)
  have radio := inUse.radio ⟨61, 6 :: List.replicate 21 0⟩ (by simp [same.2]) (.inr rfl)
  simp only [List.head?_cons, Option.some.injEq] at six
  rw [same.1, ← six] at radio
  exact absurd radio (by decide)

end Smartchip.Ap
