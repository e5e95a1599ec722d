import Smartchip.Frame.Elements
import Smartchip.Frame.Wps
import Mathlib.Data.List.Basic

/-!
# A new WPS element for the beacon

`update_beacon` of `nic/ap.c` and the functions that it calls for a vendor specific element. What
of them is about sending the beacon is one flag.
-/

namespace Smartchip.Ap.BeaconUpdate

open Smartchip.Foundation Smartchip.Frame

/-! ## The functions -/

theorem wpaOui_size : #[(0x00 : UInt8), 0x50, 0xf2, 0x01].size = 4 := rfl

theorem wmmOui_size : #[(0x00 : UInt8), 0x50, 0xf2, 0x02].size = 4 := rfl

theorem p2pOui_size : #[(0x50 : UInt8), 0x6f, 0x9a, 0x09].size = 4 := rfl

def wpaOui : Vector UInt8 4 := ⟨#[0x00, 0x50, 0xf2, 0x01], wpaOui_size⟩

def wmmOui : Vector UInt8 4 := ⟨#[0x00, 0x50, 0xf2, 0x02], wmmOui_size⟩

def p2pOui : Vector UInt8 4 := ⟨#[0x50, 0x6f, 0x9a, 0x09], p2pOui_size⟩

/-- `_FIXED_IE_LENGTH_` -/
def fixedIeLength : Nat := 12

/-- `MAX_IE_SZ`, which is also the size of `ies`. -/
def maxIeSz : Nat := 768

/-- `ies` and `ies_length` of the current network, and `wps_beacon_ie`, which may be `NULL`. -/
structure Template where
  ies : Mem
  iesLength : UInt32
  wpsBeaconIe : Option Mem

/-- `none` when the search for the element does not end; `alloc` says for which sizes
`wf_kzalloc` gives memory. -/
def bcnWpsIeUpdateFunc (alloc : UInt32 → Bool) (fuel : Nat) (flag : Bool) (t : Template) :
    Option Template := do
  let found ← wfWlanGetWpsIe (fun i => t.ies (fixedIeLength + i))
    (t.iesLength - UInt32.ofNat fixedIeLength) false true fuel
  match found.result, found.length, t.wpsBeaconIe with
  | some place, some wpsIelen, some src =>
      if wpsIelen = 0 then some t
      else
        let pwpsIe := fixedIeLength + place
        let wpsOffset := UInt32.ofNat pwpsIe
        let remainderIelen := t.iesLength - wpsOffset - wpsIelen
        let backup :=
          if 0 < remainderIelen ∧ alloc remainderIelen then
            some (t.ies.read (pwpsIe + wpsIelen.toNat) remainderIelen.toNat)
          else none
        let wpsIelen := (src 1).toUInt32
        if wpsOffset + wpsIelen + 2 + remainderIelen ≤ UInt32.ofNat maxIeSz then
          let ies := if flag then t.ies.write pwpsIe (src.read 0 (wpsIelen + 2).toNat) else t.ies
          let pwpsIe := if flag then pwpsIe + (wpsIelen + 2).toNat else pwpsIe
          -- without memory what was behind the element is not moved
          let ies := match backup with
            | some bytes => ies.write pwpsIe bytes
            | none => ies
          some { t with ies := ies, iesLength := wpsOffset + (wpsIelen + 2) + remainderIelen }
        else some t
  | _, _, _ => some t

def bcnVendorSpecIeUpdateFunc (alloc : UInt32 → Bool) (fuel : Nat) (oui : List UInt8) (flag : Bool)
    (t : Template) : Option Template :=
  if flag then
    -- a comparison that finds a difference is taken for one that finds none
    if wfMemcmp wpaOui.toList oui ≠ 0 then some t
    else if wfMemcmp wmmOui.toList oui ≠ 0 then some t
    else if wfMemcmp wpsOui.toList oui ≠ 0 then bcnWpsIeUpdateFunc alloc fuel true t
    else if wfMemcmp p2pOui.toList oui ≠ 0 then some t
    else some t
  else some t

/-- The template, and whether a beacon is sent. -/
def updateBeacon (alloc : UInt32 → Bool) (fuel : Nat) (ieId : UInt8) (oui : List UInt8) (tx : Bool)
    (t : Template) : Option (Template × Bool) :=
  if ieId = vendorSpecificId then
    (bcnVendorSpecIeUpdateFunc alloc fuel oui true t).map fun t => (t, tx)
  else some (t, tx)

/-- The elements with something to do are those of WPA and of WMM at once, so none is. -/
theorem updateBeacon_unchanged (alloc : UInt32 → Bool) (fuel : Nat) (ieId : UInt8)
    {oui : List UInt8} (four : oui.length = 4) (tx : Bool) (t : Template) :
    updateBeacon alloc fuel ieId oui tx t = some (t, tx) := by
  have wpa := @wfMemcmp_eq_zero wpaOui.toList oui (by simp [four])
  have wmm := @wfMemcmp_eq_zero wmmOui.toList oui (by simp [four])
  simp only [updateBeacon, bcnVendorSpecIeUpdateFunc, ne_eq, wpa, wmm, if_true]
  rcases Decidable.em (wpaOui.toList = oui) with same | other
  · have differ : ¬ wmmOui.toList = oui := by
      rw [← same]
      decide
    simp [differ]
  · simp [other]

/-! ## What it is for -/

def isWps (ie : Ie) : Bool :=
  ie.elementId == vendorSpecificId && ie.data.take 4 == wpsOui.toList

/-- The new element instead of the first WPS element. -/
def replaceWps (new : Ie) (elements : List Ie) : List Ie :=
  elements.replaceF fun ie => if isWps ie then some new else none

/-- What is behind the first WPS element. -/
def behindWps (elements : List Ie) : List Ie :=
  (elements.dropWhile fun ie => !isWps ie).tail

/-- A list of elements in the template. -/
structure Template.Has (t : Template) (elements : List Ie) : Prop where
  length : t.iesLength.toNat = (ieBytes elements).length
  bytes : t.ies.read 0 (ieBytes elements).length = ieBytes elements

/-- A template with a list of elements, and a new WPS element. -/
structure Template.Given (t : Template) (elements : List Ie) (new : Ie) : Prop where
  stored : t.Has elements
  short : ∀ ie ∈ elements, ie.data.length < 256
  fits : (ieBytes elements).length ≤ maxIeSz
  wps : isWps new = true
  newShort : new.data.length < 256
  source : ∃ src, t.wpsBeaconIe = some src ∧ src.read 0 new.bytes.length = new.bytes

/-- There is room for the list, and memory for a copy of what is behind the element. -/
def Room (alloc : UInt32 → Bool) (new : Ie) (elements : List Ie) : Prop :=
  (ieBytes (replaceWps new elements)).length ≤ maxIeSz ∧
    (behindWps elements ≠ [] → alloc (UInt32.ofNat (ieBytes (behindWps elements)).length) = true)

/-- The first WPS element is the new one where there is room, and all else is as before. -/
def UpdatesWps (alloc : UInt32 → Bool) (fuel : Nat) (tx : Bool) (t : Template) (new : Ie)
    (elements : List Ie) : Prop :=
  ∃ t', updateBeacon alloc fuel vendorSpecificId wpsOui.toList tx t = some (t', tx) ∧
    (Room alloc new elements → t'.Has (replaceWps new elements)) ∧
    (¬ Room alloc new elements → t'.ies = t.ies ∧ t'.iesLength = t.iesLength)

theorem Template.Has.unique {t : Template} {first second : List Ie} (one : t.Has first)
    (other : t.Has second) (short : ∀ ie ∈ first, ie.data.length < 256)
    (shorter : ∀ ie ∈ second, ie.data.length < 256) : first = second := by
  have length : (ieBytes first).length = (ieBytes second).length :=
    one.length.symm.trans other.length
  have bytes : ieBytes first = ieBytes second := by
    rw [← one.bytes, length, other.bytes]
  rw [← ieWalk_ieBytes short, bytes, ieWalk_ieBytes shorter]

theorem mem_replaceWps {new ie : Ie} {elements : List Ie} (among : ie ∈ replaceWps new elements) :
    ie = new ∨ ie ∈ elements := by
  induction elements with
  | nil => simp [replaceWps] at among
  | cons head rest ih =>
      simp only [replaceWps, List.replaceF] at among ih
      cases wps : isWps head with
      | true =>
          simp only [wps, if_true, List.mem_cons] at among
          rcases among with same | later
          · exact Or.inl same
          · exact Or.inr (List.mem_cons_of_mem head later)
      | false =>
          simp only [wps, Bool.false_eq_true, if_false, List.mem_cons] at among
          rcases among with same | later
          · exact Or.inr (List.mem_cons.mpr (Or.inl same))
          · exact (ih later).imp id (List.mem_cons_of_mem head)

/-- A list stays the same when there is no WPS element or the first one is the new one. -/
theorem replaceWps_eq_iff (new : Ie) (elements : List Ie) :
    replaceWps new elements = elements ↔ ∀ old ∈ elements.find? isWps, old = new := by
  induction elements with
  | nil => simp [replaceWps]
  | cons head rest ih =>
      cases wps : isWps head with
      | true =>
          simp only [replaceWps, List.replaceF, wps, if_true, List.find?_cons_of_pos,
            List.cons.injEq, and_true, Option.mem_some_iff, forall_eq']
          exact eq_comm
      | false =>
          rw [List.find?_cons_of_neg (by simp [wps]), ← ih]
          simp [replaceWps, wps]

/-- The template is never changed, which is right exactly when nothing is to be done. -/
theorem update_wps_iff (alloc : UInt32 → Bool) (fuel : Nat) (tx : Bool) {t : Template}
    {elements : List Ie} {new : Ie} (given : t.Given elements new) :
    UpdatesWps alloc fuel tx t new elements ↔
      ¬ Room alloc new elements ∨ ∀ old ∈ elements.find? isWps, old = new := by
  have unchanged := updateBeacon_unchanged alloc fuel vendorSpecificId
    (show wpsOui.toList.length = 4 by simp) tx t
  have shortAfter : ∀ ie ∈ replaceWps new elements, ie.data.length < 256 := by
    intro ie among
    rcases mem_replaceWps among with rfl | old
    · exact given.newShort
    · exact given.short ie old
  rw [← replaceWps_eq_iff]
  constructor
  · rintro ⟨t', update, done, -⟩
    rw [unchanged] at update
    cases update
    rcases Classical.em (Room alloc new elements) with room | none
    · exact Or.inr ((done room).unique given.stored shortAfter given.short)
    · exact Or.inl none
  · intro nothing
    refine ⟨t, unchanged, ?_, fun _ => ⟨rfl, rfl⟩⟩
    intro room
    rcases nothing with none | same
    · exact absurd room none
    · rw [same]
      exact given.stored

/-- A WPS element with the version of the protocol and with a value that is free. -/
def wpsVersion (version : UInt8) : Ie :=
  ⟨vendorSpecificId, [0x00, 0x50, 0xf2, 0x04, 0x10, 0x4a, 0, 1, version]⟩

/-- A template with nothing but a WPS element of version 1, and one of version 2 to put in. -/
def versionTemplate : Template :=
  ⟨Mem.write (fun _ => 0) 0 (wpsVersion 0x10).bytes, 11,
    some (Mem.write (fun _ => 0) 0 (wpsVersion 0x20).bytes)⟩

theorem versionTemplate_given : versionTemplate.Given [wpsVersion 0x10] (wpsVersion 0x20) :=
  ⟨⟨by decide +kernel, by decide +kernel⟩, by decide +kernel, by decide +kernel, by decide +kernel,
    by decide +kernel, _, rfl, by decide +kernel⟩

theorem update_wps_version :
    UpdatesWps (fun _ => true) 20 true versionTemplate (wpsVersion 0x20) [wpsVersion 0x10] ↔
      ¬ Room (fun _ => true) (wpsVersion 0x20) [wpsVersion 0x10] ∨
        ∀ old ∈ [wpsVersion 0x10].find? isWps, old = wpsVersion 0x20 :=
  update_wps_iff (fun _ => true) 20 true versionTemplate_given

theorem version_not_updated :
    ¬ UpdatesWps (fun _ => true) 20 true versionTemplate (wpsVersion 0x20)
      [wpsVersion 0x10] := by
  rintro ⟨t', update, done, -⟩
  have unchanged := updateBeacon_unchanged (fun _ => true) 20 vendorSpecificId
    (show wpsOui.toList.length = 4 by simp) true versionTemplate
  rw [unchanged] at update
  cases update
  have room : Room (fun _ => true) (wpsVersion 0x20) [wpsVersion 0x10] := by
    constructor <;> decide +kernel
  exact absurd (done room).bytes (by decide +kernel)

end Smartchip.Ap.BeaconUpdate
