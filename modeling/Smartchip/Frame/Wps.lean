import Smartchip.Frame.Search

/-!
# The WPS element and its attributes

`wf_wlan_get_wps_ie`, `wf_wlan_get_wps_attr` and `wf_wlan_get_wps_attr_content` of
`nic/wf_80211.c`.  The attributes of a WPS element are records with a header of four
bytes, an identifier and a length of 16 bits each.
-/

namespace Smartchip.Frame

open Smartchip.Foundation

/-! ## The functions -/

def vendorSpecificId : UInt8 := 0xdd

def wpsOui : Vector UInt8 4 := #v[0x00, 0x50, 0xf2, 0x04]

/-- `memcmp`: the difference of the first two bytes that are not the same. -/
def wfMemcmp : List UInt8 → List UInt8 → Int
  | a :: first, b :: second =>
      if a = b then wfMemcmp first second else (a.toNat : Int) - b.toNat
  | _, _ => 0

def wfFalse : Int := 0

def wfTrue : Int := 1

def isWpsAt (tempIe : Mem) (count : UInt32) : Bool :=
  tempIe count.toNat == vendorSpecificId &&
    wfMemcmp (tempIe.read (count + 2).toNat 4) wpsOui.toList == wfFalse

/-- The loop of `wf_wlan_get_wps_ie`; `none` when it has not ended. -/
def wpsIeLoop (tempIe : Mem) (tempLen : UInt32) : Nat → UInt32 → Option (Option UInt32)
  | 0, _ => none
  | fuel + 1, count =>
      if count + 1 + 4 < tempLen then
        if isWpsAt tempIe count then some (some count)
        else
          wpsIeLoop tempIe tempLen fuel
            (count + ((tempIe (count + 1).toNat).toUInt32 + 2))
      else some none

/-- What a call returns, the bytes that it copies and the length that it stores where a
pointer is not `NULL`. -/
structure WpsFound where
  result : Option Nat
  copied : List UInt8
  length : Option UInt32

/-- `temp_ie` is not `NULL`, the other two pointers may be; `none` also for a write
through `NULL`. -/
def wfWlanGetWpsIe (tempIe : Mem) (tempLen : UInt32) (wpsIe ieLen : Bool) (fuel : Nat) :
    Option WpsFound :=
  let zero := if ieLen = true then some 0 else none
  if tempLen = 0 then if ieLen = true then some ⟨none, [], zero⟩ else none
  else
    (wpsIeLoop tempIe tempLen fuel 0).map fun
      | none => ⟨none, [], zero⟩
      | some count =>
          ⟨some count.toNat,
            if wpsIe = true then
              tempIe.read count.toNat (tempIe (count + 1 + 2).toNat).toNat
            else [],
            if ieLen = true then some ((tempIe (count + 1).toNat).toUInt32 + 2) else none⟩

/-- The sum is stored in 16 bits. -/
def attrLen (wpsIe : Mem) (attrPtr : Nat) : UInt16 := wpsIe.readBe16 (attrPtr + 2) + 4

/-- The loop of `wf_wlan_get_wps_attr`. -/
def wpsAttrLoop (wpsIe : Mem) (wpsIelen : UInt32) (targetAttrId : UInt16) :
    Nat → Nat → Option (Option Nat)
  | 0, _ => none
  | fuel + 1, attrPtr =>
      if attrPtr < wpsIelen.toNat then
        if wpsIe.readBe16 attrPtr = targetAttrId then some (some attrPtr)
        else
          wpsAttrLoop wpsIe wpsIelen targetAttrId fuel
            (attrPtr + (attrLen wpsIe attrPtr).toNat)
      else some none

def wfWlanGetWpsAttr (wpsIe : Mem) (wpsIelen : UInt32) (targetAttrId : UInt16)
    (bufAttr lenAttr : Bool) (flag : UInt8) (fuel : Nat) : Option WpsFound :=
  let zero := if flag ≠ 0 ∧ lenAttr = true then some 0 else none
  if wpsIe 0 ≠ vendorSpecificId ∨ wfMemcmp (wpsIe.read 2 4) wpsOui.toList ≠ wfTrue then
    some ⟨none, [], zero⟩
  else
    (wpsAttrLoop wpsIe wpsIelen targetAttrId fuel 6).map fun
      | none => ⟨none, [], zero⟩
      | some attrPtr =>
          ⟨some attrPtr,
            if bufAttr = true then wpsIe.read attrPtr (attrLen wpsIe attrPtr).toNat else [],
            if lenAttr = true then some (attrLen wpsIe attrPtr).toUInt32 else zero⟩

def wfWlanGetWpsAttrContent (flag : UInt8) (wpsIe : Mem) (wpsIelen : UInt32)
    (targetAttrId : UInt16) (bufContent lenContent : Bool) (fuel : Nat) :
    Option WpsFound :=
  let zero := if flag ≠ 0 ∧ lenContent = true then some 0 else none
  (wfWlanGetWpsAttr wpsIe wpsIelen targetAttrId false true 1 fuel).map fun attr =>
    match attr.result, attr.length with
    | some attrPtr, some n =>
        if n ≠ 0 then
          ⟨some (attrPtr + 4),
            if bufContent = true then wpsIe.read (attrPtr + 4) (n - 4).toNat else [],
            if lenContent = true then some (n - 4) else none⟩
        else ⟨none, [], zero⟩
    | _, _ => ⟨none, [], zero⟩

/-! ## What they are for -/

def wpsTest : IeTest := byOui vendorSpecificId wpsOui

/-- The first complete element that has the OUI and the type of WPS. -/
def firstWps (tempIe : Mem) (tempLen : UInt32) : Option Nat :=
  firstWanted wpsTest tempIe tempLen.toNat

/-- The call ends, returns the first WPS element and copies exactly this element. -/
def GetsWpsIe (tempIe : Mem) (tempLen : UInt32) (wpsIe ieLen : Bool) : Prop :=
  ∃ fuel found, wfWlanGetWpsIe tempIe tempLen wpsIe ieLen fuel = some found ∧
    found.result = firstWps tempIe tempLen ∧
    ∀ p ∈ firstWps tempIe tempLen,
      (wpsIe = true → found.copied = tempIe.read p (ieSize tempIe p + 2)) ∧
        ∀ n ∈ found.length, n.toNat = ieSize tempIe p + 2

structure WpsElement (wpsIe : Mem) (wpsIelen : UInt32) : Prop where
  id : wpsIe 0 = vendorSpecificId
  len : wpsIelen.toNat = ieSize wpsIe 0 + 2
  long : 4 ≤ ieSize wpsIe 0
  oui : wpsIe.read 2 4 = wpsOui.toList

def attrSize (wpsIe : Mem) (offset : Nat) : Nat := (wpsIe.readBe16 (offset + 2)).toNat

/-- The first attribute with this identifier that is complete in the element. -/
def firstAttr (wpsIe : Mem) (wpsIelen : UInt32) (targetAttrId : UInt16) : Option Nat :=
  (records 4 (attrSize wpsIe) wpsIelen.toNat 6).find? fun offset =>
    wpsIe.readBe16 offset == targetAttrId

def GetsWpsAttr (wpsIe : Mem) (wpsIelen : UInt32) (targetAttrId : UInt16)
    (bufAttr lenAttr : Bool) (flag : UInt8) : Prop :=
  ∃ fuel found,
    wfWlanGetWpsAttr wpsIe wpsIelen targetAttrId bufAttr lenAttr flag fuel = some found ∧
    found.result = firstAttr wpsIe wpsIelen targetAttrId

/-- The value of the attribute is returned, copied and its length stored. -/
def GetsWpsAttrContent (wpsIe : Mem) (wpsIelen : UInt32) (targetAttrId : UInt16)
    (bufContent lenContent : Bool) (flag : UInt8) : Prop :=
  ∃ fuel found,
    wfWlanGetWpsAttrContent flag wpsIe wpsIelen targetAttrId bufContent lenContent fuel =
      some found ∧
    found.result = (firstAttr wpsIe wpsIelen targetAttrId).map (· + 4) ∧
    ∀ p ∈ firstAttr wpsIe wpsIelen targetAttrId,
      (bufContent = true → found.copied = wpsIe.read (p + 4) (attrSize wpsIe p)) ∧
        ∀ n ∈ found.length, n.toNat = attrSize wpsIe p

/-! ## When they do it -/

def nextCount (tempIe : Mem) (count : UInt32) : UInt32 :=
  count + ((tempIe (count + 1).toNat).toUInt32 + 2)

/-- Nothing is taken for a WPS element at any header up to the end of the walk. -/
inductive WpsPasses (tempIe : Mem) (tempLen : UInt32) : UInt32 → Prop
  | out {count : UInt32} (out : ¬ count + 1 + 4 < tempLen) : WpsPasses tempIe tempLen count
  | on {count : UInt32} (inside : count + 1 + 4 < tempLen)
      (miss : isWpsAt tempIe count = false)
      (rest : WpsPasses tempIe tempLen (nextCount tempIe count)) :
      WpsPasses tempIe tempLen count

/-- The WPS element is the first one that is taken for one, and if it is copied it is as
long as a byte of the OUI tells; or there is none and nothing is taken for one. -/
structure WpsIeFit (tempIe : Mem) (tempLen : UInt32) (wpsIe ieLen : Bool) : Prop where
  stored : tempLen = 0 → ieLen = true
  walk : (∃ p, firstWps tempIe tempLen = some p ∧
      (∀ o ∈ records 2 (ieSize tempIe) tempLen.toNat 0, o < p →
        wpsTest.hit tempIe o = false) ∧
      (wpsIe = true → ieSize tempIe p = 78)) ∨
    (firstWps tempIe tempLen = none ∧ WpsPasses tempIe tempLen 0)

theorem wfMemcmp_eq_zero {first second : List UInt8}
    (same : first.length = second.length) : wfMemcmp first second = 0 ↔ first = second := by
  induction first generalizing second with
  | nil =>
      rw [List.length_eq_zero_iff.mp same.symm]
      simp [wfMemcmp]
  | cons a first ih =>
      cases second with
      | nil => cases same
      | cons b second =>
          rw [wfMemcmp]
          split_ifs with equal
          · rw [ih (by simpa using same), equal]
            simp
          · have other : (a.toNat : Int) - b.toNat ≠ 0 := by
              intro zero
              exact equal (UInt8.toNat_inj.mp (by omega))
            simp [equal, other]

section Walk

variable {tempIe : Mem} {tempLen count : UInt32} {fuel p : Nat}

theorem wpsIeLoop_out (out : ¬ count + 1 + 4 < tempLen) :
    wpsIeLoop tempIe tempLen (fuel + 1) count = some none := by
  simp only [wpsIeLoop, out, if_false]

theorem wpsIeLoop_hit (inside : count + 1 + 4 < tempLen)
    (hit : isWpsAt tempIe count = true) :
    wpsIeLoop tempIe tempLen (fuel + 1) count = some (some count) := by
  simp only [wpsIeLoop, inside, hit, if_true]

theorem wpsIeLoop_on (inside : count + 1 + 4 < tempLen)
    (miss : isWpsAt tempIe count = false) :
    wpsIeLoop tempIe tempLen (fuel + 1) count =
      wpsIeLoop tempIe tempLen fuel (nextCount tempIe count) := by
  simp only [wpsIeLoop, inside, miss, if_true, nextCount]
  rfl

theorem WpsPasses.ends (passes : WpsPasses tempIe tempLen count) :
    ∃ fuel, wpsIeLoop tempIe tempLen fuel count = some none := by
  induction passes with
  | out out => exact ⟨1, wpsIeLoop_out out⟩
  | on inside miss rest ih =>
      obtain ⟨fuel, ends⟩ := ih
      exact ⟨fuel + 1, by rw [wpsIeLoop_on inside miss, ends]⟩

theorem wpsPasses_of_ends (ends : wpsIeLoop tempIe tempLen fuel count = some none) :
    WpsPasses tempIe tempLen count := by
  induction fuel generalizing count with
  | zero => cases ends
  | succ fuel ih =>
      by_cases inside : count + 1 + 4 < tempLen
      · cases hit : isWpsAt tempIe count with
        | true =>
            rw [wpsIeLoop_hit inside hit] at ends
            cases ends
        | false =>
            rw [wpsIeLoop_on inside hit] at ends
            exact .on inside hit (ih ends)
      · exact .out inside

/-! A complete element has a header that 32 bits reach. -/

theorem count_add {k : Nat} (small : count.toNat + k < 4294967296) :
    (count + UInt32.ofNat k).toNat = count.toNat + k := by
  rw [UInt32.toNat_add, UInt32.toNat_ofNat']
  omega

theorem nextCount_toNat
    (complete : CompleteAt 2 (ieSize tempIe) tempLen.toNat count.toNat) :
    (nextCount tempIe count).toNat = count.toNat + (2 + ieSize tempIe count.toNat) := by
  have bound := tempLen.toNat_lt
  unfold CompleteAt at complete
  have one : (count + 1).toNat = count.toNat + 1 := count_add (k := 1) (by omega)
  have two : (2 : UInt32).toNat = 2 := rfl
  unfold ieSize at complete ⊢
  rw [nextCount, one, UInt32.toNat_add, UInt32.toNat_add, UInt8.toNat_toUInt32, two]
  omega

theorem isWpsAt_eq (small : count.toNat + 2 < 4294967296) :
    isWpsAt tempIe count = wpsTest.hit tempIe count.toNat := by
  have two : (count + 2).toNat = count.toNat + 2 := count_add (k := 2) small
  have compare : wfMemcmp (tempIe.read (count.toNat + 2) 4) wpsOui.toList = 0 ↔
      tempIe.read (count.toNat + 2) 4 = wpsOui.toList := wfMemcmp_eq_zero (by simp)
  rw [isWpsAt, two, wpsTest, byOui, Bool.eq_iff_iff]
  simp [wfFalse, compare]

theorem count_inside (room : count.toNat + 6 ≤ tempLen.toNat) :
    count + 1 + 4 < tempLen := by
  have bound := tempLen.toNat_lt
  have one : (count + 1).toNat = count.toNat + 1 := count_add (k := 1) (by omega)
  have four : (4 : UInt32).toNat = 4 := rfl
  rw [UInt32.lt_iff_toNat_lt, UInt32.toNat_add, one, four]
  omega

theorem room_of_first {start : Nat}
    (first : (records 2 (ieSize tempIe) tempLen.toNat start).find? (wpsTest.wanted tempIe) =
      some p) :
    start ≤ p ∧ p + 6 ≤ tempLen.toNat ∧ wpsTest.hit tempIe p = true := by
  have wanted := List.find?_some first
  have room := wpsTest.room tempIe p wanted
  obtain ⟨behind, complete⟩ := mem_records (by omega) (List.mem_of_find?_eq_some first)
  refine ⟨behind, ?_, wpsTest.hit_of_wanted _ _ wanted⟩
  have reach : wpsTest.reach = 6 := rfl
  unfold CompleteAt ieSize at complete
  omega

/-- The walk comes to an element of the list exactly when it took nothing for one before. -/
theorem wpsIeLoop_first_iff
    (first : (records 2 (ieSize tempIe) tempLen.toNat count.toNat).find?
      (wpsTest.wanted tempIe) = some p) :
    (∃ fuel q, wpsIeLoop tempIe tempLen fuel count = some (some q) ∧ q.toNat = p) ↔
      ∀ o ∈ records 2 (ieSize tempIe) tempLen.toNat count.toNat, o < p →
        wpsTest.hit tempIe o = false := by
  have bound := tempLen.toNat_lt
  generalize here : count.toNat = o at first ⊢
  induction o using records_induction (ieSize tempIe) tempLen.toNat
    (show 0 < 2 by omega) generalizing count with
  | outside o outside =>
      rw [records_of_incomplete outside] at first
      cases first
  | inside o inside ih =>
      obtain ⟨from_o, room, hit⟩ := room_of_first first
      have enter := @count_inside tempLen count (by omega)
      have same := @isWpsAt_eq tempIe count (by omega)
      rw [records_of_complete (by omega) inside] at first ⊢
      rw [here] at same
      cases want : wpsTest.wanted tempIe o with
      | true =>
          rw [List.find?_cons_of_pos want] at first
          cases first
          constructor
          · intro _ r member before
            rcases List.mem_cons.mp member with rfl | member
            · omega
            · have behind := (mem_records (by omega) member).1
              omega
          · intro _
            exact ⟨1, count, wpsIeLoop_hit enter (same.trans hit), here⟩
      | false =>
          rw [List.find?_cons_of_neg (by simp [want])] at first
          obtain ⟨behind, -⟩ := room_of_first first
          have next := nextCount_toNat (here ▸ inside)
          rw [here] at next
          have rest := ih next first
          cases miss : wpsTest.hit tempIe o with
          | true =>
              constructor
              · rintro ⟨fuel, q, ends, at_p⟩
                cases fuel with
                | zero => cases ends
                | succ fuel =>
                    rw [wpsIeLoop_hit enter (same.trans miss)] at ends
                    cases ends
                    omega
              · intro clear
                have other := clear o (by simp) (by omega)
                rw [miss] at other
                cases other
          | false =>
              have step (fuel : Nat) := @wpsIeLoop_on tempIe tempLen count fuel enter
                (same.trans miss)
              constructor
              · rintro ⟨fuel, q, ends, at_p⟩ r member before
                cases fuel with
                | zero => cases ends
                | succ fuel =>
                    rw [step] at ends
                    rcases List.mem_cons.mp member with rfl | member
                    · exact miss
                    · exact rest.mp ⟨fuel, q, ends, at_p⟩ r member before
              · intro clear
                obtain ⟨fuel, q, ends, at_p⟩ := rest.mpr fun r member =>
                  clear r (List.mem_cons_of_mem _ member)
                exact ⟨fuel + 1, q, by rw [step, ends], at_p⟩

end Walk

/-! ## The element -/

section Element

variable {tempIe : Mem} {tempLen : UInt32} {wpsIe ieLen : Bool} {p : Nat}

theorem firstWps_empty : firstWps tempIe 0 = none := by
  rw [firstWps, firstWanted, records_of_incomplete]
  · rfl
  · unfold CompleteAt
    have zero : (0 : UInt32).toNat = 0 := rfl
    omega

/-- What is copied, a byte of the OUI long, and the length that is stored. -/
def wpsFoundAt (tempIe : Mem) (wpsIe ieLen : Bool) (count : UInt32) : WpsFound :=
  ⟨some count.toNat,
    if wpsIe = true then tempIe.read count.toNat (tempIe (count + 1 + 2).toNat).toNat else [],
    if ieLen = true then some ((tempIe (count + 1).toNat).toUInt32 + 2) else none⟩

theorem wfWlanGetWpsIe_found {fuel : Nat} {count : UInt32} (filled : tempLen ≠ 0)
    (ends : wpsIeLoop tempIe tempLen fuel 0 = some (some count)) :
    wfWlanGetWpsIe tempIe tempLen wpsIe ieLen fuel =
      some (wpsFoundAt tempIe wpsIe ieLen count) := by
  simp [wfWlanGetWpsIe, filled, ends, wpsFoundAt]

theorem wfWlanGetWpsIe_none {fuel : Nat} (filled : tempLen ≠ 0)
    (ends : wpsIeLoop tempIe tempLen fuel 0 = some none) :
    wfWlanGetWpsIe tempIe tempLen wpsIe ieLen fuel =
      some ⟨none, [], if ieLen = true then some 0 else none⟩ := by
  simp [wfWlanGetWpsIe, filled, ends]

/-- The copy is right exactly for an element of 80 bytes. -/
theorem wpsFoundAt_copied {count : UInt32} (room : count.toNat + 6 ≤ tempLen.toNat)
    (hit : wpsTest.hit tempIe count.toNat = true) :
    (wpsFoundAt tempIe true ieLen count).copied =
        tempIe.read count.toNat (ieSize tempIe count.toNat + 2) ↔
      ieSize tempIe count.toNat = 78 := by
  have bound := tempLen.toNat_lt
  have three : (count + 1 + 2).toNat = count.toNat + 3 := by
    have one : (count + 1).toNat = count.toNat + 1 := count_add (k := 1) (by omega)
    have two : (count + 1 + 2).toNat = (count + 1).toNat + 2 := count_add (k := 2) (by omega)
    omega
  have oui : tempIe (count.toNat + 3) = 0x50 := by
    have read : tempIe.read (count.toNat + 2) 4 = wpsOui.toList := by
      simpa [wpsTest, byOui] using (Bool.and_eq_true_iff.mp hit).2
    have second := congrArg (·[1]?) read
    simpa [Mem.read, wpsOui, List.range_succ] using second
  have copied : (wpsFoundAt tempIe true ieLen count).copied =
      tempIe.read count.toNat 80 := by
    simp [wpsFoundAt, three, oui]
  rw [copied]
  constructor
  · intro same
    have length := congrArg List.length same
    simp only [Mem.length_read] at length
    omega
  · intro size
    rw [size]

theorem wpsFoundAt_length {count : UInt32} (room : count.toNat + 6 ≤ tempLen.toNat) :
    ∀ n ∈ (wpsFoundAt tempIe wpsIe ieLen count).length,
      n.toNat = ieSize tempIe count.toNat + 2 := by
  intro n member
  have bound := tempLen.toNat_lt
  have one : (count + 1).toNat = count.toNat + 1 := count_add (k := 1) (by omega)
  have two : (2 : UInt32).toNat = 2 := rfl
  have byte := (tempIe (count.toNat + 1)).toNat_lt
  simp only [wpsFoundAt] at member
  split_ifs at member with stored
  · cases member
    rw [one, UInt32.toNat_add, UInt8.toNat_toUInt32, two, ieSize]
    omega
  · cases member

theorem get_wps_ie_iff :
    GetsWpsIe tempIe tempLen wpsIe ieLen ↔ WpsIeFit tempIe tempLen wpsIe ieLen := by
  by_cases empty : tempLen = 0
  · subst empty
    cases ieLen with
    | true =>
        refine iff_of_true ⟨0, ⟨none, [], some 0⟩, by simp [wfWlanGetWpsIe], ?_⟩
          ⟨fun _ => rfl, .inr ⟨firstWps_empty, .out (by decide)⟩⟩
        simp [firstWps_empty]
    | false =>
        apply iff_of_false
        · rintro ⟨fuel, found, ends, -⟩
          simp [wfWlanGetWpsIe] at ends
        · intro fit
          exact Bool.noConfusion (fit.stored rfl)
  · cases first : firstWps tempIe tempLen with
    | none =>
        constructor
        · rintro ⟨fuel, found, ends, result, -⟩
          refine ⟨fun zero => absurd zero empty, .inr ⟨first, ?_⟩⟩
          cases loop : wpsIeLoop tempIe tempLen fuel 0 with
          | none => simp [wfWlanGetWpsIe, empty, loop] at ends
          | some last =>
              cases last with
              | none => exact wpsPasses_of_ends loop
              | some count =>
                  rw [wfWlanGetWpsIe_found empty loop] at ends
                  cases ends
                  rw [first] at result
                  cases result
        · rintro ⟨-, ⟨p, wanted, -⟩ | ⟨-, passes⟩⟩
          · rw [first] at wanted
            cases wanted
          · obtain ⟨fuel, loop⟩ := passes.ends
            refine ⟨fuel, _, wfWlanGetWpsIe_none empty loop, first.symm, ?_⟩
            simp [first]
    | some p =>
        have walk := @wpsIeLoop_first_iff tempIe tempLen 0 p first
        obtain ⟨-, room, hit⟩ := room_of_first first
        constructor
        · rintro ⟨fuel, found, ends, result, copy⟩
          refine ⟨fun zero => absurd zero empty, .inl ⟨p, first, ?_⟩⟩
          cases loop : wpsIeLoop tempIe tempLen fuel 0 with
          | none => simp [wfWlanGetWpsIe, empty, loop] at ends
          | some last =>
              cases last with
              | none =>
                  rw [wfWlanGetWpsIe_none empty loop] at ends
                  cases ends
                  rw [first] at result
                  cases result
              | some count =>
                  rw [wfWlanGetWpsIe_found empty loop] at ends
                  cases ends
                  rw [first] at result
                  cases result
                  refine ⟨walk.mp ⟨fuel, count, loop, rfl⟩, ?_⟩
                  rintro rfl
                  exact (wpsFoundAt_copied room hit).mp ((copy _ first).1 rfl)
        · rintro ⟨-, ⟨q, wanted, clear, size⟩ | ⟨missing, -⟩⟩
          · rw [first] at wanted
            cases wanted
            obtain ⟨fuel, count, loop, rfl⟩ := walk.mpr clear
            refine ⟨fuel, _, wfWlanGetWpsIe_found empty loop, first.symm, ?_⟩
            intro p member
            rw [first] at member
            cases member
            refine ⟨?_, wpsFoundAt_length room⟩
            rintro rfl
            exact (wpsFoundAt_copied room hit).mpr (size rfl)
          · rw [first] at missing
            cases missing

end Element

/-! ## The attributes -/

section Attribute

variable {wpsIe : Mem} {wpsIelen : UInt32} {targetAttrId : UInt16} {buf len : Bool}
  {flag : UInt8}

/-- A comparison that finds no difference gives 0, and the call asks for 1. -/
theorem wfWlanGetWpsAttr_null (element : WpsElement wpsIe wpsIelen) (fuel : Nat) :
    wfWlanGetWpsAttr wpsIe wpsIelen targetAttrId buf len flag fuel =
      some ⟨none, [], if flag ≠ 0 ∧ len = true then some 0 else none⟩ := by
  have equal : wfMemcmp (wpsIe.read 2 4) wpsOui.toList = 0 := by
    rw [wfMemcmp_eq_zero (by simp), element.oui]
  simp [wfWlanGetWpsAttr, equal, wfTrue]

/-- With a data length of 65532 an attribute of another identifier is met for ever. -/
theorem wpsAttrLoop_stalls {attrPtr : Nat} (inside : attrPtr < wpsIelen.toNat)
    (other : wpsIe.readBe16 attrPtr ≠ targetAttrId) (wraps : attrSize wpsIe attrPtr = 65532)
    (fuel : Nat) : wpsAttrLoop wpsIe wpsIelen targetAttrId fuel attrPtr = none := by
  have zero : (attrLen wpsIe attrPtr).toNat = 0 := by
    unfold attrSize at wraps
    rw [attrLen, UInt16.toNat_add, wraps]
    rfl
  induction fuel with
  | zero => rfl
  | succ fuel ih => simp [wpsAttrLoop, inside, other, zero, ih]

theorem get_wps_attr_iff (element : WpsElement wpsIe wpsIelen) :
    GetsWpsAttr wpsIe wpsIelen targetAttrId buf len flag ↔
      firstAttr wpsIe wpsIelen targetAttrId = none := by
  constructor
  · rintro ⟨fuel, found, ends, result⟩
    rw [wfWlanGetWpsAttr_null element] at ends
    cases ends
    exact result.symm
  · intro missing
    exact ⟨0, _, wfWlanGetWpsAttr_null element 0, missing.symm⟩

theorem get_wps_attr_content_iff (element : WpsElement wpsIe wpsIelen) :
    GetsWpsAttrContent wpsIe wpsIelen targetAttrId buf len flag ↔
      firstAttr wpsIe wpsIelen targetAttrId = none := by
  have null (fuel : Nat) :
      wfWlanGetWpsAttrContent flag wpsIe wpsIelen targetAttrId buf len fuel =
        some ⟨none, [], if flag ≠ 0 ∧ len = true then some 0 else none⟩ := by
    simp [wfWlanGetWpsAttrContent, wfWlanGetWpsAttr_null element]
  constructor
  · rintro ⟨fuel, found, ends, result, -⟩
    rw [null] at ends
    cases ends
    exact Option.map_eq_none_iff.mp result.symm
  · intro missing
    refine ⟨0, _, null 0, ?_, ?_⟩ <;> simp [missing]

end Attribute

/-- The element is found and copied under a condition, an attribute never. -/
theorem wps_lookup_iff (tempIe : Mem) (tempLen : UInt32) (copy store : Bool) {wpsIe : Mem}
    {wpsIelen : UInt32} (targetAttrId : UInt16) (buf len : Bool) (flag : UInt8)
    (element : WpsElement wpsIe wpsIelen) :
    (GetsWpsIe tempIe tempLen copy store ↔ WpsIeFit tempIe tempLen copy store) ∧
      (GetsWpsAttr wpsIe wpsIelen targetAttrId buf len flag ↔
        firstAttr wpsIe wpsIelen targetAttrId = none) ∧
      (GetsWpsAttrContent wpsIe wpsIelen targetAttrId buf len flag ↔
        firstAttr wpsIe wpsIelen targetAttrId = none) :=
  ⟨get_wps_ie_iff, get_wps_attr_iff element, get_wps_attr_content_iff element⟩

/-- A WPS element with the version of the protocol, one attribute of one byte. -/
def versionOnly : Mem :=
  Mem.write (fun _ => 0) 0 [0xdd, 9, 0x00, 0x50, 0xf2, 0x04, 0x10, 0x4a, 0, 1, 0x10]

theorem versionOnly_element : WpsElement versionOnly 11 :=
  ⟨by decide +kernel, by decide +kernel, by decide +kernel, by decide +kernel⟩

theorem versionOnly_firstAttr : firstAttr versionOnly 11 0x104a = some 6 := by
  have complete : CompleteAt 4 (attrSize versionOnly) (11 : UInt32).toNat 6 := by
    decide +kernel
  rw [firstAttr, records_of_complete (by omega) complete, List.find?_cons_of_pos]
  decide +kernel

theorem wps_lookup_iff_version :
    GetsWpsAttr versionOnly 11 0x104a true true 1 ↔
      firstAttr versionOnly 11 0x104a = none :=
  (wps_lookup_iff (fun _ => 0) 0 false false 0x104a true true 1 versionOnly_element).2.1

theorem version_not_found :
    ¬ ∀ (tempIe : Mem) (tempLen : UInt32) (copy store : Bool) (wpsIe : Mem)
        (wpsIelen : UInt32) (targetAttrId : UInt16) (buf len : Bool) (flag : UInt8),
      WpsElement wpsIe wpsIelen →
        GetsWpsIe tempIe tempLen copy store ∧
          GetsWpsAttr wpsIe wpsIelen targetAttrId buf len flag ∧
          GetsWpsAttrContent wpsIe wpsIelen targetAttrId buf len flag := by
  intro claimed
  have found := (claimed versionOnly 11 false true versionOnly 11 0x104a true true 1
    versionOnly_element).2.1
  rw [get_wps_attr_iff versionOnly_element, versionOnly_firstAttr] at found
  cases found

end Smartchip.Frame
