import Smartchip.Frame.Elements

/-!
# The security elements of a beacon

`wf_wlan_get_sec_ie` (`nic/wf_80211.c`) is to copy the RSN element and the WPA element
out of the body of a beacon.  It calls `wf_memcpy` where it means to compare.
-/

namespace Smartchip.Frame

open Smartchip.Foundation

/-! ## The function -/

def wpaIeId : UInt8 := 0xdd

def wpa2IeId : UInt8 := 0x30

def wpaOui : List UInt8 := [0x00, 0x50, 0xf2, 0x01]

/-- The timestamp, the beacon interval and the capabilities. -/
def fixedFields : Nat := 12

/-- The input, which is written to, and what the pointers of the call point to. -/
structure SecIe where
  inIe : Mem
  rsnIe : Option Mem
  rsnLen : UInt16
  wpaIe : Option Mem
  wpaLen : UInt16

/-- The loop behind each copy, with nothing in its body and a counter of eight bits. -/
def emptyLoop (bound : Nat) : Nat → UInt8 → Option Unit
  | 0, _ => none
  | fuel + 1, i => if i.toNat < bound then emptyLoop bound fuel (i + 8) else some ()

/-- A copy of an element to where a pointer that is not `NULL` points. -/
def copyIe (fuel : Nat) (out : Option Mem) (inIe : Mem) (cnt n : Nat) :
    Option (Option Mem) :=
  match out with
  | none => some none
  | some buf => (emptyLoop n fuel 0).map fun _ => some (buf.write 0 (inIe.read cnt n))

/-- `!wf_memcpy(..)`: the copy gives back where it was made, which is not `NULL`. -/
def notMemcpy : Bool := false

/-- The walk of `wf_wlan_get_sec_ie` with `flag` set; `none` when it has not ended. -/
def secIeLoop (inLen : Nat) : Nat → Nat → SecIe → Option SecIe
  | 0, _, _ => none
  | fuel + 1, cnt, s =>
      if inLen ≤ cnt then some s
      else
        let authmode := s.inIe cnt
        let s :=
          if authmode = wpaIeId then { s with inIe := s.inIe.write (cnt + 2) wpaOui } else s
        let n := (s.inIe (cnt + 1)).toNat + 2
        if authmode = wpaIeId ∧ notMemcpy = true then
          (copyIe fuel s.wpaIe s.inIe cnt n).bind fun wpaIe =>
            secIeLoop inLen fuel (cnt + n) { s with wpaIe, wpaLen := UInt16.ofNat n }
        else if authmode = wpa2IeId then
          (copyIe fuel s.rsnIe s.inIe cnt n).bind fun rsnIe =>
            secIeLoop inLen fuel (cnt + n) { s with rsnIe, rsnLen := UInt16.ofNat n }
        else secIeLoop inLen fuel (cnt + n) s

/-- What the pointers point to after the call, and the value that it returns. -/
def wfWlanGetSecIe (inLen : Nat) (flag : UInt8) (fuel : Nat) (s : SecIe) :
    Option (SecIe × Nat) :=
  (if flag = 0 then some s else secIeLoop inLen fuel fixedFields s).map fun s =>
    (s, s.rsnLen.toNat + s.wpaLen.toNat)

/-! ## What it is for -/

/-- A vendor element whose OUI and type are those of WPA. -/
def Ie.isWpa (ie : Ie) : Bool := ie.elementId == wpaIeId && ie.data.take 4 == wpaOui

def Ie.isRsn (ie : Ie) : Bool := ie.elementId == wpa2IeId

def lastIe (pick : Ie → Bool) (ies : List Ie) : Option Ie := (ies.filter pick).getLast?

/-- The length of the element that is returned, 0 if there is none. -/
def pickedLen (picked : Option Ie) : Nat :=
  match picked with
  | none => 0
  | some ie => ie.bytes.length

/-- The element stands where the pointer points, if it is not `NULL`. -/
def Returned (picked : Option Ie) (out : Option Mem) : Prop :=
  ∀ ie ∈ picked, ∀ buf ∈ out, buf.read 0 ie.bytes.length = ie.bytes

/-- The body of a beacon: the fixed fields and these elements. -/
structure BeaconBody (inIe : Mem) (inLen : Nat) (ies : List Ie) : Prop where
  short : ∀ ie ∈ ies, ie.data.length < 256
  len : inLen = fixedFields + (ieBytes ies).length
  bytes : inIe.read fixedFields (ieBytes ies).length = ieBytes ies

/-- The call ends, leaves the input as it was and returns the last element of each kind. -/
def GetsSecIes (inLen : Nat) (flag : UInt8) (ies : List Ie) (s : SecIe) : Prop :=
  ∃ fuel s' total, wfWlanGetSecIe inLen flag fuel s = some (s', total) ∧
    s'.inIe.read 0 inLen = s.inIe.read 0 inLen ∧
    (s'.rsnLen.toNat = pickedLen (lastIe Ie.isRsn ies) ∧
      Returned (lastIe Ie.isRsn ies) s'.rsnIe) ∧
    (s'.wpaLen.toNat = pickedLen (lastIe Ie.isWpa ies) ∧
      Returned (lastIe Ie.isWpa ies) s'.wpaIe)

/-! ## When it does it -/

/-- What stands behind the header of each vendor element begins with the OUI of WPA, as
far as the input goes. -/
def VendorFit : List Ie → Prop
  | [] => True
  | ie :: rest =>
      (ie.elementId = wpaIeId → (ie.data ++ ieBytes rest).take 4 <+: wpaOui) ∧ VendorFit rest

/-- The condition on the input and on what the pointers point to before the call. -/
structure SecIesFit (ies : List Ie) (s : SecIe) : Prop where
  vendor : VendorFit ies
  rsnShort : s.rsnIe.isSome = true → ∀ ie ∈ ies, ie.isRsn = true → ie.data.length ≤ 246
  rsnLen : lastIe Ie.isRsn ies = none → s.rsnLen = 0
  wpa : s.wpaLen.toNat = pickedLen (lastIe Ie.isWpa ies) ∧
    Returned (lastIe Ie.isWpa ies) s.wpaIe

/-! ## The empty loop -/

theorem emptyLoop_ends {bound fuel : Nat} {i : UInt8} (eight : i.toNat % 8 = 0)
    (short : bound ≤ 248) (enough : 248 < i.toNat + 8 * fuel) :
    emptyLoop bound fuel i = some () := by
  induction fuel generalizing i with
  | zero =>
      have bound := i.toNat_lt
      omega
  | succ fuel ih =>
      rw [emptyLoop]
      split_ifs with inside
      · have next : (i + 8).toNat = i.toNat + 8 := by
          rw [UInt8.toNat_add, show (8 : UInt8).toNat = 8 from rfl]
          omega
        exact ih (by omega) (by omega)
      · rfl

/-- The counter goes from 248 back to 0. -/
theorem emptyLoop_never {bound : Nat} (long : 248 < bound) (fuel : Nat) {i : UInt8}
    (eight : i.toNat % 8 = 0) : emptyLoop bound fuel i = none := by
  induction fuel generalizing i with
  | zero => rfl
  | succ fuel ih =>
      have top := i.toNat_lt
      rw [emptyLoop, if_pos (by omega)]
      apply ih
      rw [UInt8.toNat_add, show (8 : UInt8).toNat = 8 from rfl]
      omega

/-! ## A turn of the walk -/

/-- What a turn leaves, when its copy ends. -/
def SecIe.turn (s : SecIe) (cnt : Nat) : SecIe :=
  let n := (s.inIe (cnt + 1)).toNat + 2
  if s.inIe cnt = wpaIeId then { s with inIe := s.inIe.write (cnt + 2) wpaOui }
  else if s.inIe cnt = wpa2IeId then
    { s with
      rsnIe := s.rsnIe.map fun buf => buf.write 0 (s.inIe.read cnt n)
      rsnLen := UInt16.ofNat n }
  else s

/-- The turn copies an element to `rsn_ie`. -/
def SecIe.copies (s : SecIe) (cnt : Nat) : Prop :=
  s.inIe cnt = wpa2IeId ∧ s.rsnIe.isSome = true

section Turn

variable {s s' : SecIe} {inLen cnt fuel : Nat}

theorem secIeLoop_out (out : inLen ≤ cnt) : secIeLoop inLen (fuel + 1) cnt s = some s := by
  simp [secIeLoop, out]

/-- A turn ends when its copy does, and the walk goes on behind the element. -/
theorem secIeLoop_on (inside : cnt < inLen) :
    secIeLoop inLen (fuel + 1) cnt s = some s' ↔
      (s.copies cnt → emptyLoop ((s.inIe (cnt + 1)).toNat + 2) fuel 0 = some ()) ∧
        secIeLoop inLen fuel (cnt + ((s.inIe (cnt + 1)).toNat + 2)) (s.turn cnt) =
          some s' := by
  have length : s.inIe.write (cnt + 2) wpaOui (cnt + 1) = s.inIe (cnt + 1) :=
    Mem.write_before _ _ (by omega)
  by_cases vendor : s.inIe cnt = wpaIeId
  · simp [secIeLoop, not_le.mpr inside, vendor, notMemcpy, SecIe.turn, SecIe.copies, length,
      wpaIeId, wpa2IeId]
  · by_cases rsn : s.inIe cnt = wpa2IeId
    · cases out : s.rsnIe with
      | none =>
          simp [secIeLoop, not_le.mpr inside, SecIe.turn, SecIe.copies, copyIe, rsn, out,
            wpaIeId, wpa2IeId]
      | some buf =>
          cases ends : emptyLoop ((s.inIe (cnt + 1)).toNat + 2) fuel 0 with
          | none =>
              simp [secIeLoop, not_le.mpr inside, SecIe.turn, SecIe.copies, copyIe, rsn,
                out, ends, wpaIeId, wpa2IeId]
          | some _ =>
              simp [secIeLoop, not_le.mpr inside, SecIe.turn, SecIe.copies, copyIe, rsn,
                out, ends, wpaIeId, wpa2IeId]
    · simp [secIeLoop, not_le.mpr inside, vendor, rsn, SecIe.turn, SecIe.copies]

@[simp] theorem SecIe.turn_wpaIe : (s.turn cnt).wpaIe = s.wpaIe := by
  simp only [SecIe.turn]
  split_ifs <;> rfl

@[simp] theorem SecIe.turn_wpaLen : (s.turn cnt).wpaLen = s.wpaLen := by
  simp only [SecIe.turn]
  split_ifs <;> rfl

@[simp] theorem SecIe.turn_isSome : (s.turn cnt).rsnIe.isSome = s.rsnIe.isSome := by
  simp only [SecIe.turn]
  split_ifs <;> simp

theorem SecIe.turn_inIe :
    (s.turn cnt).inIe =
      if s.inIe cnt = wpaIeId then s.inIe.write (cnt + 2) wpaOui else s.inIe := by
  simp only [SecIe.turn]
  split_ifs <;> rfl

theorem SecIe.turn_before {i : Nat} (before : i < cnt + 2) :
    (s.turn cnt).inIe i = s.inIe i := by
  rw [SecIe.turn_inIe]
  split_ifs
  · exact Mem.write_before _ _ before
  · rfl

theorem SecIe.turn_rsn (rsn : s.inIe cnt = wpa2IeId) :
    (s.turn cnt).rsnLen = UInt16.ofNat ((s.inIe (cnt + 1)).toNat + 2) ∧
      (s.turn cnt).rsnIe =
        s.rsnIe.map fun buf =>
          buf.write 0 (s.inIe.read cnt ((s.inIe (cnt + 1)).toNat + 2)) := by
  simp [SecIe.turn, rsn, wpaIeId, wpa2IeId]

theorem SecIe.turn_other (other : s.inIe cnt ≠ wpa2IeId) :
    (s.turn cnt).rsnLen = s.rsnLen ∧ (s.turn cnt).rsnIe = s.rsnIe := by
  simp only [SecIe.turn]
  split_ifs <;> exact ⟨rfl, rfl⟩

/-- The comparison is never right, so nothing is returned for WPA. -/
theorem secIeLoop_wpa (ended : secIeLoop inLen fuel cnt s = some s') :
    s'.wpaLen = s.wpaLen ∧ s'.wpaIe = s.wpaIe := by
  induction fuel generalizing cnt s with
  | zero => cases ended
  | succ fuel ih =>
      by_cases inside : cnt < inLen
      · simpa using ih ((secIeLoop_on inside).mp ended).2
      · rw [secIeLoop_out (Nat.not_lt.mp inside)] at ended
        cases ended
        exact ⟨rfl, rfl⟩

/-- The bytes before the data of an element stay as they are from there on. -/
theorem secIeLoop_before (ended : secIeLoop inLen fuel cnt s = some s') {i : Nat}
    (before : i < cnt + 2) : s'.inIe i = s.inIe i := by
  induction fuel generalizing cnt s with
  | zero => cases ended
  | succ fuel ih =>
      by_cases inside : cnt < inLen
      · rw [ih ((secIeLoop_on inside).mp ended).2 (by omega), SecIe.turn_before before]
      · rw [secIeLoop_out (Nat.not_lt.mp inside)] at ended
        cases ended
        rfl

/-- What a turn has written is not written again: behind an element of less than two bytes
stands a part of the OUI, which is no vendor element. -/
theorem secIeLoop_written (ended : secIeLoop inLen fuel cnt s = some s')
    (vendor : s.inIe cnt = wpaIeId) (inside : cnt < inLen) {i : Nat} (here : i < cnt + 6) :
    s'.inIe i = (s.turn cnt).inIe i := by
  obtain _ | fuel := fuel
  · cases ended
  · have rest := ((secIeLoop_on inside).mp ended).2
    set n := (s.inIe (cnt + 1)).toNat + 2 with hn
    by_cases long : 4 ≤ n
    · exact secIeLoop_before rest (by omega)
    · have next : (s.turn cnt).inIe (cnt + n) ≠ wpaIeId := by
        rw [SecIe.turn_inIe, if_pos vendor]
        have written : some (s.inIe.write (cnt + 2) wpaOui (cnt + 2 + (n - 2))) =
            wpaOui[n - 2]? := Mem.write_inside s.inIe (cnt + 2) (by simp [wpaOui]; omega)
        rw [show cnt + 2 + (n - 2) = cnt + n by omega] at written
        intro same
        rw [same] at written
        rcases (show n - 2 = 0 ∨ n - 2 = 1 by omega) with at_oui | at_oui <;>
          simp [at_oui, wpaOui, wpaIeId] at written
      obtain _ | fuel := fuel
      · cases rest
      · by_cases inside : cnt + n < inLen
        · have behind := ((secIeLoop_on inside).mp rest).2
          rw [secIeLoop_before behind (by omega), SecIe.turn_inIe, if_neg next]
        · rw [secIeLoop_out (Nat.not_lt.mp inside)] at rest
          cases rest
          rfl

end Turn

/-! ## The elements -/

/-- The elements stand at an offset and reach to the end of the input. -/
structure ElementsAt (inIe : Mem) (inLen cnt : Nat) (ies : List Ie) : Prop where
  short : ∀ ie ∈ ies, ie.data.length < 256
  len : inLen = cnt + (ieBytes ies).length
  bytes : inIe.read cnt (ieBytes ies).length = ieBytes ies

theorem Ie.length_bytes (ie : Ie) : ie.bytes.length = ie.data.length + 2 := by
  simp [Ie.bytes]

theorem ieBytes_cons (ie : Ie) (rest : List Ie) :
    ieBytes (ie :: rest) = ie.bytes ++ ieBytes rest := by
  simp [ieBytes]

theorem lastIe_cons (pick : Ie → Bool) (ie : Ie) (rest : List Ie) :
    lastIe pick (ie :: rest) =
      (lastIe pick rest).or (if pick ie = true then some ie else none) := by
  unfold lastIe
  by_cases here : pick ie = true
  · rw [List.filter_cons_of_pos here, List.getLast?_cons, if_pos here]
    cases (rest.filter pick).getLast? <;> rfl
  · simp [here]

section Elements

variable {s s' : SecIe} {inLen cnt fuel : Nat} {ie : Ie} {rest ies : List Ie}

theorem ElementsAt.split (elements : ElementsAt s.inIe inLen cnt (ie :: rest)) :
    s.inIe.read cnt (ie.data.length + 2) = ie.bytes ∧
      inLen = cnt + (ie.data.length + 2) + (ieBytes rest).length ∧
      s.inIe.read (cnt + (ie.data.length + 2)) (ieBytes rest).length = ieBytes rest := by
  have bytes := elements.bytes
  have len := elements.len
  rw [ieBytes_cons, List.length_append, ie.length_bytes] at bytes len
  rw [Mem.read_add] at bytes
  have parts := List.append_inj bytes (by simp [Ie.bytes])
  exact ⟨parts.1, by omega, parts.2⟩

theorem ElementsAt.head (elements : ElementsAt s.inIe inLen cnt (ie :: rest)) :
    s.inIe cnt = ie.elementId ∧ (s.inIe (cnt + 1)).toNat = ie.data.length ∧
      s.inIe.read (cnt + 2) ie.data.length = ie.data := by
  have here := elements.split.1
  rw [read_two] at here
  have body := List.cons.inj here
  have data := List.cons.inj body.2
  refine ⟨body.1, ?_, data.2⟩
  rw [data.1]
  exact length_ofNat (elements.short ie (by simp))

theorem ElementsAt.inside (elements : ElementsAt s.inIe inLen cnt (ie :: rest)) :
    cnt < inLen := by
  have len := elements.split.2.1
  omega

/-- An input that is the same up to its end has the same elements. -/
theorem ElementsAt.tail (elements : ElementsAt s.inIe inLen cnt (ie :: rest))
    {mem : Mem} (same : ∀ i < inLen, mem i = s.inIe i) :
    ElementsAt mem inLen (cnt + (ie.data.length + 2)) rest := by
  obtain ⟨-, len, bytes⟩ := elements.split
  constructor
  · exact fun other member => elements.short other (by simp [member])
  · exact len
  · conv_rhs => rw [← bytes]
    rw [Mem.read_eq_iff]
    intro i inside
    exact same _ (by omega)

theorem ElementsAt.turn_same_iff (elements : ElementsAt s.inIe inLen cnt (ie :: rest)) :
    (∀ i < inLen, (s.turn cnt).inIe i = s.inIe i) ↔
      (ie.elementId = wpaIeId → (ie.data ++ ieBytes rest).take 4 <+: wpaOui) := by
  obtain ⟨id, -, data⟩ := elements.head
  obtain ⟨-, len, bytes⟩ := elements.split
  rw [SecIe.turn_inIe, id]
  split_ifs with vendor
  · have behind : s.inIe.read (cnt + 2) (ie.data ++ ieBytes rest).length =
        ie.data ++ ieBytes rest := by
      rw [List.length_append, Mem.read_add, data,
        show cnt + 2 + ie.data.length = cnt + (ie.data.length + 2) by omega, bytes]
    have reach : inLen = cnt + 2 + (ie.data ++ ieBytes rest).length := by
      rw [len, List.length_append]
      omega
    rw [reach, Mem.write_fit_iff, behind]
    simp [vendor, wpaOui]
  · simp [vendor]

theorem ElementsAt.on (elements : ElementsAt s.inIe inLen cnt (ie :: rest)) :
    secIeLoop inLen (fuel + 1) cnt s = some s' ↔
      (s.copies cnt → emptyLoop (ie.data.length + 2) fuel 0 = some ()) ∧
        secIeLoop inLen fuel (cnt + (ie.data.length + 2)) (s.turn cnt) = some s' := by
  rw [secIeLoop_on elements.inside, elements.head.2.1]

theorem ElementsAt.done (elements : ElementsAt s.inIe inLen cnt []) :
    secIeLoop inLen (fuel + 1) cnt s = some s := by
  apply secIeLoop_out
  simpa [ieBytes] using elements.len.le

theorem vendorFit_of_unchanged (elements : ElementsAt s.inIe inLen cnt ies)
    (ended : secIeLoop inLen fuel cnt s = some s')
    (same : ∀ i < inLen, s'.inIe i = s.inIe i) : VendorFit ies := by
  induction ies generalizing cnt fuel s with
  | nil => trivial
  | cons ie rest ih =>
      cases fuel with
      | zero => cases ended
      | succ fuel =>
          have fit : ∀ i < inLen, (s.turn cnt).inIe i = s.inIe i := by
            intro i inside
            by_cases vendor : s.inIe cnt = wpaIeId
            · by_cases near : i < cnt + 6
              · rw [← secIeLoop_written ended vendor elements.inside near]
                exact same i inside
              · rw [SecIe.turn_inIe, if_pos vendor]
                exact Mem.write_after _ (by simp [wpaOui]; omega)
            · rw [SecIe.turn_inIe, if_neg vendor]
          refine ⟨elements.turn_same_iff.mp fit, ih (elements.tail fit)
            (elements.on.mp ended).2 ?_⟩
          intro i inside
          rw [same i inside, fit i inside]

theorem secIeLoop_ends (elements : ElementsAt s.inIe inLen cnt ies) (fit : VendorFit ies)
    (short : s.rsnIe.isSome = true → ∀ ie ∈ ies, ie.isRsn = true → ie.data.length ≤ 246)
    (enough : ies.length + 32 < fuel) : ∃ s', secIeLoop inLen fuel cnt s = some s' := by
  induction ies generalizing cnt fuel s with
  | nil =>
      obtain ⟨fuel, rfl⟩ : ∃ k, fuel = k + 1 := ⟨fuel - 1, by omega⟩
      exact ⟨s, elements.done⟩
  | cons ie rest ih =>
      obtain ⟨fuel, rfl⟩ : ∃ k, fuel = k + 1 := ⟨fuel - 1, by omega⟩
      rw [List.length_cons] at enough
      have same := elements.turn_same_iff.mpr fit.1
      obtain ⟨s', ended⟩ := @ih (s.turn cnt) _ fuel (elements.tail same) fit.2
        (by
          rw [SecIe.turn_isSome]
          exact fun out other member => short out other (by simp [member]))
        (by omega)
      refine ⟨s', elements.on.mpr ⟨?_, ended⟩⟩
      rintro ⟨rsn, out⟩
      have bound := short out ie (by simp)
        (by simp [Ie.isRsn, ← elements.head.1, rsn])
      exact emptyLoop_ends rfl (by omega) (by omega)

/-- What a walk that ended has done when its writes change nothing. -/
structure Walked (inLen : Nat) (ies : List Ie) (s s' : SecIe) : Prop where
  same : ∀ i < inLen, s'.inIe i = s.inIe i
  short : s.rsnIe.isSome = true → ∀ ie ∈ ies, ie.isRsn = true → ie.data.length ≤ 246
  missing : lastIe Ie.isRsn ies = none → s'.rsnLen = s.rsnLen ∧ s'.rsnIe = s.rsnIe
  taken : ∀ ie ∈ lastIe Ie.isRsn ies, s'.rsnLen.toNat = ie.bytes.length ∧
    ∀ buf ∈ s'.rsnIe, buf.read 0 ie.bytes.length = ie.bytes

theorem secIeLoop_walked (elements : ElementsAt s.inIe inLen cnt ies) (fit : VendorFit ies)
    (ended : secIeLoop inLen fuel cnt s = some s') : Walked inLen ies s s' := by
  induction ies generalizing cnt fuel s with
  | nil =>
      cases fuel with
      | zero => cases ended
      | succ fuel =>
          rw [elements.done] at ended
          cases ended
          exact ⟨fun _ _ => rfl, by simp, fun _ => ⟨rfl, rfl⟩, by simp [lastIe]⟩
  | cons ie rest ih =>
      cases fuel with
      | zero => cases ended
      | succ fuel =>
          have same := elements.turn_same_iff.mpr fit.1
          obtain ⟨copied, ended⟩ := elements.on.mp ended
          have walked := ih (elements.tail same) fit.2 ended
          obtain ⟨id, size, -⟩ := elements.head
          have rsn_iff : ie.isRsn = true ↔ s.inIe cnt = wpa2IeId := by
            simp [Ie.isRsn, id]
          constructor
          · intro i inside
            rw [walked.same i inside, same i inside]
          · intro out other member rsn
            rcases List.mem_cons.mp member with rfl | member
            · by_contra long
              rw [emptyLoop_never (by omega) fuel rfl] at copied
              exact nomatch copied ⟨rsn_iff.mp rsn, out⟩
            · exact walked.short (by simpa using out) other member rsn
          · intro missing
            rw [lastIe_cons, Option.or_eq_none_iff] at missing
            have other : s.inIe cnt ≠ wpa2IeId := by
              simpa [rsn_iff] using missing.2
            obtain ⟨length, copy⟩ := walked.missing missing.1
            rw [length, copy]
            exact SecIe.turn_other other
          · intro picked member
            rw [lastIe_cons] at member
            cases later : lastIe Ie.isRsn rest with
            | some last =>
                rw [later, Option.some_or] at member
                cases member
                exact walked.taken _ later
            | none =>
                rw [later, Option.none_or] at member
                split_ifs at member with rsn
                · cases member
                  have bound := elements.short ie (by simp)
                  obtain ⟨length, copy⟩ := walked.missing later
                  obtain ⟨stored, written⟩ := SecIe.turn_rsn (rsn_iff.mp rsn)
                  rw [length, copy, stored, written, size, elements.split.1, ie.length_bytes]
                  refine ⟨?_, ?_⟩
                  · rw [UInt16.toNat_ofNat']
                    omega
                  · intro buf member
                    obtain ⟨old, -, rfl⟩ := Option.mem_map.mp member
                    rw [← ie.length_bytes]
                    exact Mem.read_write_self _ _ _
                · cases member

end Elements

theorem BeaconBody.elements {inIe : Mem} {inLen : Nat} {ies : List Ie}
    (body : BeaconBody inIe inLen ies) : ElementsAt inIe inLen fixedFields ies :=
  ⟨body.short, body.len, body.bytes⟩

theorem wfWlanGetSecIe_iff {inLen fuel total : Nat} {flag : UInt8} {s s' : SecIe}
    (set : flag ≠ 0) :
    wfWlanGetSecIe inLen flag fuel s = some (s', total) ↔
      secIeLoop inLen fuel fixedFields s = some s' ∧
        s'.rsnLen.toNat + s'.wpaLen.toNat = total := by
  simp only [wfWlanGetSecIe, set, if_false, Option.map_eq_some_iff, Prod.mk.injEq]
  constructor
  · rintro ⟨_, ended, rfl, sum⟩
    exact ⟨ended, sum⟩
  · rintro ⟨ended, sum⟩
    exact ⟨s', ended, rfl, sum⟩

/-- The call does what it is for exactly when the overwriting changes nothing, no element
is copied that its loop does not get over, and what is not set was right before. -/
theorem get_sec_ie_iff {inLen : Nat} {flag : UInt8} {ies : List Ie} {s : SecIe}
    (set : flag ≠ 0) (body : BeaconBody s.inIe inLen ies) :
    GetsSecIes inLen flag ies s ↔ SecIesFit ies s := by
  constructor
  · rintro ⟨fuel, s', total, called, same, ⟨rsnLen, -⟩, wpaLen, wpaIe⟩
    obtain ⟨ended, -⟩ := (wfWlanGetSecIe_iff set).mp called
    have unchanged : ∀ i < inLen, s'.inIe i = s.inIe i := by
      simpa using Mem.read_eq_iff.mp same
    have vendor := vendorFit_of_unchanged body.elements ended unchanged
    have walked := secIeLoop_walked body.elements vendor ended
    obtain ⟨length, copy⟩ := secIeLoop_wpa ended
    constructor
    · exact vendor
    · exact walked.short
    · intro missing
      rw [(walked.missing missing).1, missing] at rsnLen
      exact UInt16.toNat_inj.mp rsnLen
    · rw [← length, ← copy]
      exact ⟨wpaLen, wpaIe⟩
  · intro fit
    obtain ⟨s', ended⟩ := secIeLoop_ends body.elements fit.vendor fit.rsnShort
      (Nat.lt_succ_self (ies.length + 32))
    have walked := secIeLoop_walked body.elements fit.vendor ended
    obtain ⟨length, copy⟩ := secIeLoop_wpa ended
    refine ⟨_, s', _, (wfWlanGetSecIe_iff set).mpr ⟨ended, rfl⟩, ?_, ⟨?_, ?_⟩, ?_⟩
    · rw [Mem.read_eq_iff]
      simpa using walked.same
    · cases missing : lastIe Ie.isRsn ies with
      | none =>
          rw [(walked.missing missing).1, fit.rsnLen missing]
          rfl
      | some ie => exact (walked.taken ie missing).1
    · exact fun ie member => (walked.taken ie member).2
    · rw [length, copy]
      exact fit.wpa

/-- A vendor element that is not the one of WPA, behind the fixed fields. -/
def otherVendor : SecIe where
  inIe := Mem.write (fun _ => 0) fixedFields [0xdd, 4, 0x00, 0x10, 0x18, 0x02]
  rsnIe := none
  rsnLen := 0
  wpaIe := none
  wpaLen := 0

def otherVendorIes : List Ie := [⟨0xdd, [0x00, 0x10, 0x18, 0x02]⟩]

theorem other_vendor_overwritten :
    ¬ ∀ (inLen : Nat) (flag : UInt8) (ies : List Ie) (s : SecIe), flag ≠ 0 →
      BeaconBody s.inIe inLen ies → GetsSecIes inLen flag ies s := by
  intro claimed
  have body : BeaconBody otherVendor.inIe 18 otherVendorIes :=
    ⟨by decide, by decide, by decide +kernel⟩
  obtain ⟨fuel, s', total, called, same, -⟩ :=
    claimed 18 1 otherVendorIes otherVendor (by decide) body
  obtain ⟨ended, -⟩ := (wfWlanGetSecIe_iff (by decide)).mp called
  have unchanged : ∀ i < 18, s'.inIe i = otherVendor.inIe i := by
    simpa using Mem.read_eq_iff.mp same
  have vendor := (vendorFit_of_unchanged body.elements ended unchanged).1 rfl
  revert vendor
  decide

/-- An RSN element alone is returned. -/
def rsnAlone : SecIe where
  inIe := Mem.write (fun _ => 0) fixedFields [0x30, 2, 1, 0]
  rsnIe := some fun _ => 0
  rsnLen := 7
  wpaIe := none
  wpaLen := 0

theorem get_sec_ie_iff_rsn :
    SecIesFit [⟨0x30, [1, 0]⟩] rsnAlone ∧
      GetsSecIes 16 1 [⟨0x30, [1, 0]⟩] rsnAlone := by
  have fit : SecIesFit [⟨0x30, [1, 0]⟩] rsnAlone := by
    refine ⟨⟨by decide, trivial⟩, by decide, by decide, by decide, ?_⟩
    intro ie member
    cases member
  exact ⟨fit,
    (get_sec_ie_iff (by decide) ⟨by decide, by decide, by decide +kernel⟩).mpr fit⟩

end Smartchip.Frame
