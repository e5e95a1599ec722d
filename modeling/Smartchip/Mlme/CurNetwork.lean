import Smartchip.Frame.Elements

/-!
# The current network

`set_cur_network` of `nic/mlme.c`.  The elements of a frame follow its 36 bytes of header and
fixed fields; for the two searches the function takes off the 12 bytes of the fixed fields only.
-/

namespace Smartchip.Mlme

open Smartchip.Foundation Smartchip.Frame

namespace CurNetwork

def eidSsid : UInt8 := 0

def eidDsParams : UInt8 := 3

/-- `WF_80211_IES_SIZE_MAX`. -/
def iesSizeMax : UInt16 := 768

/-- The fields of `wf_wlan_network_t` that are set here.  What lies in the array of the SSID
behind its length is left out. -/
structure WlanNetwork where
  macAddr : List UInt8
  ssid : List UInt8
  bssid : List UInt8
  channel : UInt8
  timestamp : UInt64
  bcnInterval : UInt16
  capInfo : UInt16
  iesLength : UInt32
  ies : Mem

/-- `overrun`: bytes go beyond `ssid.data`, which has 33 of them. -/
inductive SetEnd where
  | ret (code : Int) (curNetwork : WlanNetwork)
  | overrun

def readLe64 (mem : Mem) (addr : Nat) : UInt64 :=
  (mem.read addr 8).foldr (fun byte word => word <<< 8 ||| byte.toUInt64) 0

/-- What is set when the DS element has been found. -/
def setAddrs (pmgmt : Mem) (pds : Nat) (cur : WlanNetwork) : WlanNetwork :=
  { cur with
    channel := pmgmt (pds + 2)
    macAddr := pmgmt.read 10 6
    bssid := pmgmt.read 16 6 }

/-- What is set when the SSID has been found. -/
def setFixed (pmgmt : Mem) (pssid : Nat) (cur : WlanNetwork) : WlanNetwork :=
  { cur with
    ssid := pmgmt.read (pssid + 2) (pmgmt (pssid + 1)).toNat
    timestamp := readLe64 pmgmt 24
    bcnInterval := pmgmt.readLe16 32
    capInfo := pmgmt.readLe16 34 }

def setIes (pmgmt : Mem) (varLen : UInt16) (cur : WlanNetwork) : WlanNetwork :=
  { cur with
    iesLength := varLen.toUInt32
    ies := cur.ies.write 0 (pmgmt.read 36 varLen.toNat) }

/-- `wf_80211_mgmt_ies_search`, as it is called here. -/
def search (pmgmt : Mem) (mgmtLen : UInt16) (cmpId : UInt8) (fuel : Nat) : Option (Option Nat) :=
  wf80211MgmtIesSearch pmgmt 36 (mgmtLen - 12) cmpId fuel 0

def setCurNetwork (pmgmt : Mem) (mgmtLen : UInt16) (fuel : Nat) (cur : WlanNetwork) :
    Option SetEnd :=
  match search pmgmt mgmtLen eidDsParams fuel with
  | none => none
  | some none => some (.ret (-1) cur)
  | some (some pds) =>
      let cur := setAddrs pmgmt pds cur
      match search pmgmt mgmtLen eidSsid fuel with
      | none => none
      | some none => some (.ret (-2) cur)
      | some (some pssid) =>
          -- the NUL behind the SSID goes beyond the array as well
          if 32 < pmgmt (pssid + 1) then some .overrun
          else
            let cur := setFixed pmgmt pssid cur
            let varLen := mgmtLen - 36
            if iesSizeMax < varLen then some (.ret (-2) cur)
            else some (.ret 0 (setIes pmgmt varLen cur))

/-! ## What is to hold -/

/-- The bytes of the elements of a frame. -/
def elements (pmgmt : Mem) (mgmtLen : UInt16) : List UInt8 :=
  pmgmt.read 36 (mgmtLen.toNat - 36)

structure FromFrame (pmgmt : Mem) (mgmtLen : UInt16) (cur : WlanNetwork) : Prop where
  ssid : findElement eidSsid (elements pmgmt mgmtLen) = some cur.ssid
  short : cur.ssid.length ≤ 32
  bssid : cur.bssid = pmgmt.read 16 6
  channel : ∃ data, findElement eidDsParams (elements pmgmt mgmtLen) = some data ∧
    data.head? = some cur.channel
  capInfo : cur.capInfo = pmgmt.readLe16 34
  ies : cur.ies.read 0 cur.iesLength.toNat = elements pmgmt mgmtLen

/-- All of the record comes from the frame, or nothing. -/
def Atomic (pmgmt : Mem) (mgmtLen : UInt16) (cur : WlanNetwork) : Prop :=
  ∃ fuel code cur', setCurNetwork pmgmt mgmtLen fuel cur = some (.ret code cur') ∧
    (code ≠ 0 → cur' = cur) ∧ (code = 0 → FromFrame pmgmt mgmtLen cur')

/-! ## When it does -/

/-- What is to be found is in the frame, and it fits. -/
structure Complete (pmgmt : Mem) (mgmtLen : UInt16) : Prop where
  fits : 36 ≤ mgmtLen.toNat ∧ mgmtLen.toNat ≤ 36 + 768
  channel : ∃ data, findElement eidDsParams (elements pmgmt mgmtLen) = some data ∧ data ≠ []
  ssid : ∃ ssid, findElement eidSsid (elements pmgmt mgmtLen) = some ssid ∧ ssid.length ≤ 32

/-- The function fails behind a part of the fields, which have the values of the frame
already. -/
inductive Already (pmgmt : Mem) (mgmtLen : UInt16) (cur : WlanNetwork) : Prop where
  | addrs {fuel pds : Nat} (ds : search pmgmt mgmtLen eidDsParams fuel = some (some pds))
      (noSsid : search pmgmt mgmtLen eidSsid fuel = some none)
      (same : setAddrs pmgmt pds cur = cur) : Already pmgmt mgmtLen cur
  | fixed {fuel pds pssid : Nat}
      (ds : search pmgmt mgmtLen eidDsParams fuel = some (some pds))
      (ssid : search pmgmt mgmtLen eidSsid fuel = some (some pssid))
      (short : pmgmt (pssid + 1) ≤ 32) (long : iesSizeMax < mgmtLen - 36)
      (same : setFixed pmgmt pssid (setAddrs pmgmt pds cur) = cur) : Already pmgmt mgmtLen cur

def Settled (pmgmt : Mem) (mgmtLen : UInt16) (cur : WlanNetwork) : Prop :=
  (∃ fuel, search pmgmt mgmtLen eidDsParams fuel = some none) ∨
    Complete pmgmt mgmtLen ∨ Already pmgmt mgmtLen cur

section Proofs

variable {pmgmt : Mem} {mgmtLen : UInt16} {cur : WlanNetwork} {data : List UInt8}
  {cmpId : UInt8} {fuel pds pssid : Nat}

theorem elements_length (fits : 36 ≤ mgmtLen.toNat ∧ mgmtLen.toNat ≤ 36 + 768) :
    (mgmtLen - 36).toNat = mgmtLen.toNat - 36 ∧ (mgmtLen - 12).toNat = mgmtLen.toNat - 12 := by
  constructor <;> rw [UInt16.toNat_sub_of_le] <;> simp [UInt16.le_iff_toNat_le] <;> omega

/-- An element of the frame is found, although the search goes beyond the frame. -/
theorem search_complete (fits : 36 ≤ mgmtLen.toNat ∧ mgmtLen.toNat ≤ 36 + 768)
    (found : findElement cmpId (elements pmgmt mgmtLen) = some data) :
    ∃ fuel pie, (∀ more, fuel ≤ more →
        search pmgmt mgmtLen cmpId more = some (some pie)) ∧
      (pmgmt (pie + 1)).toNat = data.length ∧ pmgmt.read (pie + 2) data.length = data := by
  have inside : (0 : UInt16).toNat + (mgmtLen.toNat - 36) ≤ (mgmtLen - 12).toNat := by
    rw [(elements_length fits).2]
    change 0 + _ ≤ _
    omega
  obtain ⟨fuel, pie, ends, length, same⟩ :=
    @search_of_findElement pmgmt 36 (mgmtLen - 12) 0 cmpId _ data inside found
  exact ⟨fuel, pie, fun more le => search_mono le ends, length, same⟩

theorem setCurNetwork_complete (complete : Complete pmgmt mgmtLen) (cur : WlanNetwork) :
    ∃ fuel cur', setCurNetwork pmgmt mgmtLen fuel cur = some (.ret 0 cur') ∧
      FromFrame pmgmt mgmtLen cur' := by
  obtain ⟨fits, ⟨channel, ds, some⟩, ssid, here, short⟩ := complete
  obtain ⟨fuel, pds, findsDs, dsLength, dsSame⟩ := search_complete fits ds
  obtain ⟨more, pssid, findsSsid, length, same⟩ := search_complete fits here
  have small : ¬ 32 < pmgmt (pssid + 1) := by
    rw [UInt8.lt_iff_toNat_lt, length]
    exact Nat.not_lt.mpr short
  have room : ¬ iesSizeMax < mgmtLen - 36 := by
    rw [UInt16.lt_iff_toNat_lt, (elements_length fits).1]
    change ¬ 768 < _
    omega
  refine ⟨max fuel more,
    setIes pmgmt (mgmtLen - 36) (setFixed pmgmt pssid (setAddrs pmgmt pds cur)), ?_, ?_⟩
  · simp only [setCurNetwork, findsDs _ (Nat.le_max_left _ _),
      findsSsid _ (Nat.le_max_right _ _), small, if_false, room]
  · have stored : (setFixed pmgmt pssid (setAddrs pmgmt pds cur)).ssid = ssid := by
      simp [setFixed, length, same]
    exact {
      ssid := by
        simp only [setIes, stored, here]
      short := by
        simp only [setIes, stored, short]
      bssid := rfl
      channel := by
        refine ⟨channel, ds, ?_⟩
        cases channel with
        | nil => exact absurd rfl some
        | cons a channel =>
            have first := congrArg List.head? dsSame
            rw [List.length_cons, Nat.add_comm channel.length, Mem.read_add] at first
            exact first.symm
      capInfo := rfl
      ies := by
        have length := (elements_length fits).1
        have wide : (mgmtLen - 36).toUInt32.toNat = mgmtLen.toNat - 36 := by
          rw [UInt16.toNat_toUInt32, length]
        have read := Mem.read_write_self (setFixed pmgmt pssid (setAddrs pmgmt pds cur)).ies 0
          (elements pmgmt mgmtLen)
        rw [elements, Mem.length_read] at read
        simpa only [setIes, wide, length, elements] using read }

/-- The record is set from one frame, or it stays as it is, exactly in these cases. -/
theorem set_cur_network_iff (pmgmt : Mem) (mgmtLen : UInt16) (cur : WlanNetwork) :
    Atomic pmgmt mgmtLen cur ↔ Settled pmgmt mgmtLen cur := by
  constructor
  · rintro ⟨fuel, code, cur', ends, fails, succeeds⟩
    unfold setCurNetwork at ends
    split at ends
    · cases ends
    case h_2 noDs => exact .inl ⟨fuel, noDs⟩
    case h_3 pds ds =>
      dsimp only at ends
      split at ends
      · cases ends
      case h_2 noSsid =>
        cases ends
        exact .inr (.inr (.addrs ds noSsid (fails (by decide))))
      case h_3 pssid ssid =>
        split_ifs at ends with long size
        · cases ends
        · cases ends
          exact .inr (.inr (.fixed ds ssid (UInt8.not_lt.mp long) size (fails (by decide))))
        · cases ends
          obtain ⟨found, short, -, ⟨data, here, first⟩, -, stored⟩ := succeeds rfl
          refine .inr (.inl ⟨?_, ⟨data, here, ?_⟩, ⟨_, found, short⟩⟩)
          · rw [UInt16.lt_iff_toNat_lt, UInt16.toNat_sub] at size
            have limit := mgmtLen.toNat_lt
            change ¬ 768 < (2 ^ 16 - 36 + mgmtLen.toNat) % 2 ^ 16 at size
            omega
          · rintro rfl
            cases first
  · rintro (⟨fuel, noDs⟩ | complete | already)
    · exact ⟨fuel, -1, cur, by simp [setCurNetwork, noDs], fun _ => rfl, by simp⟩
    · obtain ⟨fuel, cur', ends, settled⟩ := setCurNetwork_complete complete cur
      exact ⟨fuel, 0, cur', ends, by simp, fun _ => settled⟩
    · cases already with
      | @addrs fuel pds ds noSsid same =>
          exact ⟨fuel, -2, _, by simp [setCurNetwork, ds, noSsid], fun _ => same, by simp⟩
      | @fixed fuel pds pssid ds ssid short long same =>
          exact ⟨fuel, -2, _, by simp [setCurNetwork, ds, ssid, UInt8.not_lt.mpr short, long],
            fun _ => same, by simp⟩

theorem setCurNetwork_mono {more : Nat} {r : SetEnd} (le : fuel ≤ more)
    (ends : setCurNetwork pmgmt mgmtLen fuel cur = some r) :
    setCurNetwork pmgmt mgmtLen more cur = some r := by
  have keeps : ∀ cmpId result, search pmgmt mgmtLen cmpId fuel = some result →
      search pmgmt mgmtLen cmpId more = some result := fun cmpId result =>
    search_mono le
  unfold setCurNetwork at ends ⊢
  cases ds : search pmgmt mgmtLen eidDsParams fuel with
  | none => simp [ds] at ends
  | some found =>
      cases ssid : search pmgmt mgmtLen eidSsid fuel with
      | none => cases found <;> simp_all [keeps _ _ ds]
      | some pssid =>
          rw [ds, ssid] at ends
          rw [keeps _ _ ds, keeps _ _ ssid]
          exact ends

/-- A probe response with a DS element and no SSID. -/
def dsOnly : Mem := fun i => if i = 36 then 3 else if i = 37 then 1 else 255

def noNetwork : WlanNetwork := ⟨[], [], [], 0, 0, 0, 0, 0, fun _ => 0⟩

theorem set_cur_network_half : ¬ Atomic dsOnly 39 noNetwork := by
  rintro ⟨fuel, code, cur', ends, fails, succeeds⟩
  have ds : search dsOnly 39 eidDsParams (fuel + 2) = some (some 36) :=
    search_mono (by omega) (by decide +kernel : search dsOnly 39 eidDsParams 1 = _)
  have noSsid : search dsOnly 39 eidSsid (fuel + 2) = some none :=
    search_mono (by omega) (by decide +kernel : search dsOnly 39 eidSsid 2 = _)
  have more := setCurNetwork_mono (Nat.le_add_right fuel 2) ends
  simp only [setCurNetwork, ds, noSsid] at more
  cases more
  have bssid := congrArg WlanNetwork.bssid (fails (by decide))
  cases bssid

end Proofs

end CurNetwork

end Smartchip.Mlme
