import Smartchip.Foundation.Checked
import Smartchip.Frame.Wps

/-!
# Elements of Wi-Fi Direct and Wi-Fi Display

The lookups of `nic/p2p/p2p_frame_mgt.c` and `nic/p2p/p2p_wfd.c` for the first element with an OUI
and for an attribute in it. Two and two of them are one loop with another OUI and another order of
the bytes of a length. An access outside of the buffer, or a loop that does not end, has no value.
-/

namespace Smartchip.Frame.Vendor

open Smartchip.Foundation

def p2pOui : Vector UInt8 4 := ⟨#[0x50, 0x6f, 0x9a, 0x09], rfl⟩

def wfdOui : Vector UInt8 4 := ⟨#[0x50, 0x6f, 0x9a, 0x0a], rfl⟩

/-- `WF_80211_IES_SIZE_MAX` and `MAX_IE_SZ`. -/
def iesSizeMax : Nat := 768

/-! ## The element -/

section Element

variable (buf : Mem) (limit : Nat) (oui : Vector UInt8 4)

/-- A lookup compares the identifier and the four bytes of the OUI. -/
def ouiAt (ie : Nat) : Bool :=
  buf ie == vendorSpecificId && wfMemcmp (buf.read (ie + 2) 4) oui.toList == 0

/-- The loop of both lookups from `in_ie` on, with the offset of what it has found. -/
def getIeLoop (inIe inLen : Nat) : Nat → Nat → Option (Option Nat)
  | 0, _ => none
  | fuel + 1, cnt =>
      if cnt + 1 + 4 < inLen then do
        inside limit (inIe + cnt) 1
        if iesSizeMax ≤ cnt + 1 + 4 then some none
        else do
          onlyIf (buf (inIe + cnt) = vendorSpecificId) (inside limit (inIe + cnt + 2) 4)
          if ouiAt buf oui (inIe + cnt) then some (some cnt)
          else do
            inside limit (inIe + cnt + 1) 1
            getIeLoop inIe inLen fuel (cnt + (ieSize buf (inIe + cnt) + 2))
      else some none

/-- What is returned, what is copied and what is stored for the length where a pointer is not
`NULL`. -/
structure FoundIe where
  place : Option Nat
  copied : List UInt8
  length : Option Nat

/-- The common part; `in_len` is a number with a sign and `in_ie` is not `NULL`. -/
def getIe (inIe : Nat) (inLen : Int) (copy store : Bool) (zero : Option Nat) : Option FoundIe :=
  if inLen ≤ 0 then some ⟨none, [], zero⟩
  else do
    match ← getIeLoop buf limit oui inIe inLen.toNat (inLen.toNat + 1) 0 with
    | none => some ⟨none, [], zero⟩
    | some cnt =>
        let ie := inIe + cnt
        onlyIf (copy ∨ store) (inside limit (ie + 1) 1)
        onlyIf copy (inside limit ie (ieSize buf ie + 2))
        some ⟨some ie, if copy then buf.read ie (ieSize buf ie + 2) else [],
          if store then some (ieSize buf ie + 2) else zero⟩

end Element

section Calls

variable (buf : Mem) (limit : Nat)

def wfP2pGetIe (inIe : Nat) (inLen : Int) (p2pIe p2pIelen : Bool) : Option FoundIe :=
  getIe buf limit p2pOui inIe inLen p2pIe p2pIelen (if p2pIelen then some 0 else none)

/-- Without `flag` nothing is stored for the length where no element is found. -/
def wfP2pWfdGetIe (flag : UInt8) (inIe : Nat) (inLen : Int) (wfdIe wfdIelen : Bool) :
    Option FoundIe :=
  getIe buf limit wfdOui inIe inLen wfdIe wfdIelen
    (if flag ≠ 0 ∧ wfdIelen then some 0 else none)

end Calls

/-! ## Attributes -/

section Attribute

variable (read16 : Mem → Nat → UInt16) (buf : Mem) (limit ie ielen : Nat)

/-- `attr_len`, in 16 bits. -/
def attrLen (attr : Nat) : UInt16 := read16 buf (ie + attr + 1) + 3

/-- The loop of both lookups, with the offset of the attribute from the element. -/
def getAttrLoop (target : UInt8) : Nat → Nat → Option (Option Nat)
  | 0, _ => none
  | fuel + 1, attr =>
      if attr + 3 ≤ ielen then do
        inside limit (ie + attr) 3
        let len := (attrLen read16 buf ie attr).toNat
        if ielen < attr + len then some none
        else if buf (ie + attr) = target then some (some attr)
        else getAttrLoop target fuel (attr + len)
      else some none

/-- `refused` says which results of the comparison with the OUI are taken for another element. -/
def getAttr (oui : Vector UInt8 4) (refused : Int → Bool) (target : UInt8) :
    Option (Option Nat) :=
  if ielen ≤ 6 then some none
  else do
    inside limit ie 1
    if buf ie ≠ vendorSpecificId then some none
    else do
      inside limit (ie + 2) 4
      if refused (wfMemcmp (buf.read (ie + 2) 4) oui.toList) then some none
      else getAttrLoop read16 buf limit ie ielen target (ielen + 1) 6

/-- `attr_len - 3`, in 32 bits. -/
def contentLen (len : UInt16) : Nat := (len.toUInt32 - 3).toNat

/-- What is returned, what is copied and what is stored for the length where a pointer is not
`NULL`. -/
structure FoundContent where
  place : Option Nat
  copied : List UInt8
  length : Option Nat

/-- An attribute of length 0 is taken for none. -/
def getContent (attr : Option Nat) (copy store : Bool) (zero : Option Nat) :
    Option FoundContent :=
  match attr with
  | none => some ⟨none, [], zero⟩
  | some attr =>
      let len := attrLen read16 buf ie attr
      if len = 0 then some ⟨none, [], zero⟩
      else do
        onlyIf copy (inside limit (ie + attr + 3) (contentLen len))
        some ⟨some (ie + attr + 3), if copy then buf.read (ie + attr + 3) (contentLen len) else [],
          if store then some (contentLen len) else zero⟩

end Attribute

section Calls

variable (buf : Mem) (limit ie ielen : Nat)

def p2pGetAttr (target : UInt8) : Option (Option Nat) :=
  getAttr Mem.readLe16 buf limit ie ielen p2pOui (fun result => result ≠ 0) target

def wfP2pGetAttrContent (target : UInt8) (bufContent lenContent : Bool) :
    Option FoundContent := do
  getContent Mem.readLe16 buf limit ie (← p2pGetAttr buf limit ie ielen target) bufContent
    lenContent (if lenContent then some 0 else none)

/-- The comparison is asked for `wf_true`. -/
def wfdGetAttr (target : UInt8) : Option (Option Nat) :=
  getAttr Mem.readBe16 buf limit ie ielen wfdOui (fun result => result ≠ wfTrue) target

/-- Without `flag` nothing is stored for the length where no attribute is found. -/
def wfdGetAttrContent (target : UInt8) (bufContent lenContent : Bool) (flag : UInt8) :
    Option FoundContent := do
  getContent Mem.readBe16 buf limit ie (← wfdGetAttr buf limit ie ielen target) bufContent
    lenContent (if flag ≠ 0 ∧ lenContent then some 0 else none)

end Calls

/-! ## What the lookups find -/

section Found

variable {buf : Mem} {limit : Nat} {oui : Vector UInt8 4}

/-- The bytes from a place on. -/
def behind (buf : Mem) (place : Nat) : Mem := fun i => buf (place + i)

def ouiTest (oui : Vector UInt8 4) : IeTest := byOui vendorSpecificId oui

/-- A header that a lookup takes for that of its element. -/
def takenAt (buf : Mem) (oui : Vector UInt8 4) (inLen o : Nat) : Bool :=
  (ouiTest oui).hit buf o && decide (o + 6 ≤ inLen ∧ o + 5 < iesSizeMax)

/-- The first header that is taken. -/
def firstTaken (buf : Mem) (oui : Vector UInt8 4) (inLen start : Nat) : Option Nat :=
  (headers 2 (ieSize buf) inLen start).find? (takenAt buf oui inLen)

theorem ouiAt_eq (place o : Nat) :
    ouiAt buf oui (place + o) = (ouiTest oui).hit (behind buf place) o := by
  have compare : wfMemcmp (buf.read (place + o + 2) 4) oui.toList = 0 ↔
      buf.read (place + o + 2) 4 = oui.toList := wfMemcmp_eq_zero (by simp)
  have shifted : (behind buf place).read (o + 2) 4 = buf.read (place + o + 2) 4 := by
    simp [behind, Mem.read, Nat.add_assoc]
  have same : (wfMemcmp (buf.read (place + o + 2) 4) oui.toList == 0) =
      (buf.read (place + o + 2) 4 == oui.toList) := by
    rw [Bool.eq_iff_iff, beq_iff_eq, beq_iff_eq, compare]
  rw [ouiAt, same, ← shifted]
  rfl

theorem firstTaken_out {inLen start : Nat} (out : ¬ (start + 6 ≤ inLen ∧ start + 5 < iesSizeMax)) :
    firstTaken buf oui inLen start = none := by
  rw [firstTaken, List.find?_eq_none]
  intro o among
  have from_start := le_of_mem_headers (by omega) among
  simp only [takenAt, Bool.and_eq_true, decide_eq_true_eq, not_and]
  omega

theorem firstTaken_hit {inLen start : Nat} (taken : takenAt buf oui inLen start = true) :
    firstTaken buf oui inLen start = some start := by
  rw [firstTaken, headers]
  split_ifs <;> rw [List.find?_cons_of_pos taken]

theorem firstTaken_miss {inLen start : Nat} (missed : takenAt buf oui inLen start = false) :
    firstTaken buf oui inLen start =
      firstTaken buf oui inLen (start + (ieSize buf start + 2)) := by
  rcases Decidable.em (CompleteAt 2 (ieSize buf) inLen start) with whole | cut
  · rw [firstTaken, headers_of_complete (by omega) whole,
      List.find?_cons_of_neg (by simp [missed]), Nat.add_comm (ieSize buf start)]
    rfl
  · have out : inLen < start + (ieSize buf start + 2) := by
      unfold CompleteAt at cut
      omega
    have gone := @firstTaken_out buf oui inLen (start + (ieSize buf start + 2)) (by omega)
    rw [gone, firstTaken, headers_of_incomplete cut, List.find?_cons_of_neg (by simp [missed])]
    rfl

/-- The loop gives the first header that is taken. -/
theorem getIeLoop_eq {inIe inLen fuel cnt : Nat} (room : inIe + inLen ≤ limit)
    (enough : inLen ≤ cnt + fuel) :
    getIeLoop buf limit oui inIe inLen (fuel + 1) cnt =
      some (firstTaken (behind buf inIe) oui inLen cnt) := by
  induction fuel generalizing cnt with
  | zero =>
      rw [getIeLoop, if_neg (by omega), firstTaken_out (by omega)]
  | succ fuel ih =>
      rw [getIeLoop]
      have looks (n : Nat) (few : n ≤ 6) (ofs : Nat) (near : ofs + n ≤ cnt + 6)
          (header : cnt + 1 + 4 < inLen) : inside limit (inIe + ofs) n = some () :=
        if_pos (by omega)
      split_ifs with header cap hit
      · rw [looks 1 (by omega) cnt (by omega) header, firstTaken_out (by omega)]
        rfl
      · rw [looks 1 (by omega) cnt (by omega) header, Nat.add_assoc,
          looks 4 (by omega) (cnt + 2) (by omega) header]
        rw [ouiAt_eq] at hit
        have taken : takenAt (behind buf inIe) oui inLen cnt = true := by
          rw [takenAt, hit]
          simp only [Bool.true_and, decide_eq_true_eq]
          omega
        rw [firstTaken_hit taken]
        simp [onlyIf]
      · rw [looks 1 (by omega) cnt (by omega) header, Nat.add_assoc inIe, Nat.add_assoc inIe,
          looks 4 (by omega) (cnt + 2) (by omega) header,
          looks 1 (by omega) (cnt + 1) (by omega) header, ih (by omega)]
        rw [ouiAt_eq, Bool.not_eq_true] at hit
        have missed : takenAt (behind buf inIe) oui inLen cnt = false := by
          rw [takenAt, hit, Bool.false_and]
        rw [firstTaken_miss missed]
        simp [onlyIf]
        rfl
      · rw [firstTaken_out (by omega)]

/-- The first complete element with the OUI. -/
def firstVendor (buf : Mem) (oui : Vector UInt8 4) (inLen : Nat) : Option Nat :=
  firstWanted (ouiTest oui) buf inLen

/-- A lookup ends inside the bytes with the first element, and copies and measures it. -/
def GetsIe (buf : Mem) (oui : Vector UInt8 4) (inLen : Int) (copy store : Bool)
    (found : Option FoundIe) : Prop :=
  ∃ f, found = some f ∧ f.place = firstVendor buf oui inLen.toNat ∧
    ∀ p ∈ f.place, (copy = true → f.copied = buf.read p (ieSize buf p + 2)) ∧
      (store = true → f.length = some (ieSize buf p + 2))

/-- Where there is an element it is before the last place that is looked at and no header before it
is taken for one; where there is none no header is taken for one. -/
structure IeFits (buf : Mem) (oui : Vector UInt8 4) (inLen : Nat) : Prop where
  first : ∀ p ∈ firstVendor buf oui inLen, p + 5 < iesSizeMax ∧
    ∀ o ∈ records 2 (ieSize buf) inLen 0, o < p → (ouiTest oui).hit buf o = false
  none : firstVendor buf oui inLen = none →
    ∀ o ∈ headers 2 (ieSize buf) inLen 0, o + 6 ≤ inLen → o + 5 < iesSizeMax →
      (ouiTest oui).hit buf o = false

/-- An element with the OUI has six bytes inside. -/
theorem mem_firstVendor {inLen p : Nat} (first : firstVendor buf oui inLen = some p) :
    p ∈ records 2 (ieSize buf) inLen 0 ∧ (ouiTest oui).hit buf p = true ∧ p + 6 ≤ inLen ∧
      p + (2 + ieSize buf p) ≤ inLen := by
  have wanted := List.find?_some first
  have among := List.mem_of_find?_eq_some first
  have room := (ouiTest oui).room buf p wanted
  have whole := (mem_records (by omega) among).2
  have reach : (ouiTest oui).reach = 6 := rfl
  unfold CompleteAt at whole
  unfold ieSize at whole ⊢
  exact ⟨among, (ouiTest oui).hit_of_wanted _ _ wanted, by omega, whole⟩

theorem firstTaken_iff {inLen : Nat} :
    firstTaken buf oui inLen 0 = firstVendor buf oui inLen ↔ IeFits buf oui inLen := by
  cases first : firstVendor buf oui inLen with
  | none =>
      rw [firstTaken, List.find?_eq_none]
      constructor
      · intro clear
        refine ⟨by simp [first], ?_⟩
        intro _ o among room near
        have missed := clear o among
        simp only [takenAt, Bool.and_eq_true, decide_eq_true_eq, not_and] at missed
        rcases Bool.eq_false_or_eq_true ((ouiTest oui).hit buf o) with hit | miss
        · exact absurd near (missed hit room)
        · exact miss
      · intro fits o among
        simp only [takenAt, Bool.and_eq_true, decide_eq_true_eq, not_and]
        intro hit room near
        rw [fits.none first o among room near] at hit
        cases hit
  | some p =>
      obtain ⟨among, hit, room, whole⟩ := mem_firstVendor first
      rw [firstTaken, find_headers_iff (by omega) among]
      have before {o : Nat} (less : o < p) (near : p + 5 < iesSizeMax) :
          takenAt buf oui inLen o = (ouiTest oui).hit buf o := by
        have fits : o + 6 ≤ inLen ∧ o + 5 < iesSizeMax := by omega
        simp [takenAt, fits]
      constructor
      · rintro ⟨taken, clear⟩
        have near : p + 5 < iesSizeMax := by
          simp only [takenAt, Bool.and_eq_true, decide_eq_true_eq] at taken
          exact taken.2.2
        refine ⟨?_, by simp [first]⟩
        rintro q member
        rw [first] at member
        cases member
        refine ⟨near, ?_⟩
        intro o among less
        rw [← before less near]
        exact clear o among less
      · intro fits
        obtain ⟨near, clear⟩ := fits.first p first
        constructor
        · simp [takenAt, hit, room, near]
        · intro o among less
          rw [before less near]
          exact clear o among less

theorem firstTaken_room {inLen start q : Nat} (taken : firstTaken buf oui inLen start = some q) :
    q + 6 ≤ inLen := by
  have here := List.find?_some taken
  simp only [takenAt, Bool.and_eq_true, decide_eq_true_eq] at here
  exact here.2.1

section Lookup

variable {inIe : Nat} {inLen : Int} {copy store : Bool} {zero : Option Nat}

/-- What is stored when an element is taken. -/
def foundAt (buf : Mem) (copy store : Bool) (zero : Option Nat) (ie : Nat) : FoundIe :=
  ⟨some ie, if copy then buf.read ie (ieSize buf ie + 2) else [],
    if store then some (ieSize buf ie + 2) else zero⟩

/-- A lookup in a stretch of the buffer gives the first header that is taken; only a copy of it can
go outside. -/
theorem getIe_eq (room : inIe + inLen.toNat ≤ limit) :
    getIe buf limit oui inIe inLen copy store zero =
      match firstTaken (behind buf inIe) oui inLen.toNat 0 with
      | none => some ⟨none, [], zero⟩
      | some cnt =>
          if copy = true ∧ limit < inIe + cnt + (ieSize buf (inIe + cnt) + 2) then none
          else some (foundAt buf copy store zero (inIe + cnt)) := by
  rcases Decidable.em (inLen ≤ 0) with empty | filled
  · have nothing : inLen.toNat = 0 := by omega
    rw [getIe, if_pos empty, nothing, firstTaken_out (by omega)]
  · rw [getIe, if_neg filled, getIeLoop_eq room (by omega), Option.bind_eq_bind,
      Option.bind_some]
    cases taken : firstTaken (behind buf inIe) oui inLen.toNat 0 with
    | none => rfl
    | some cnt =>
        have six := firstTaken_room taken
        have len : inside limit (inIe + cnt + 1) 1 = some () := if_pos (by omega)
        cases copy with
        | false => cases store <;> simp [onlyIf, len, foundAt]
        | true =>
            rcases Nat.lt_or_ge limit (inIe + cnt + (ieSize buf (inIe + cnt) + 2)) with out | fits
            · have copied : inside limit (inIe + cnt) (ieSize buf (inIe + cnt) + 2) = none :=
                if_neg (by omega)
              simp [onlyIf, len, copied, out]
            · have copied : inside limit (inIe + cnt) (ieSize buf (inIe + cnt) + 2) = some () :=
                if_pos fits
              simp [onlyIf, len, copied, Nat.not_lt.mpr fits, foundAt]

/-- Where a lookup looks at its whole input, it is right under this condition only. -/
theorem getIe_iff :
    GetsIe buf oui inLen copy store (getIe buf inLen.toNat oui 0 inLen copy store zero) ↔
      IeFits buf oui inLen.toNat := by
  have whole : behind buf 0 = buf := by
    funext i
    simp [behind]
  rw [← firstTaken_iff, getIe_eq (by omega), whole]
  cases taken : firstTaken buf oui inLen.toNat 0 with
  | none => simp [GetsIe]
  | some q =>
      simp only [Nat.zero_add]
      constructor
      · rintro ⟨f, found, place, -⟩
        split_ifs at found
        cases found
        exact place
      · intro first
        obtain ⟨-, -, -, complete⟩ := mem_firstVendor first.symm
        rw [if_neg (by omega)]
        refine ⟨foundAt buf copy store zero q, rfl, first, ?_⟩
        rintro p ⟨⟩
        constructor <;> rintro rfl <;> simp [foundAt]

end Lookup

end Found

/-! ## What the lookups for attributes find -/

section FoundAttribute

variable {read16 : Mem → Nat → UInt16} {buf : Mem} {limit ie ielen : Nat}

/-- The length that the header of an attribute tells. -/
def attrSize (read16 : Mem → Nat → UInt16) (buf : Mem) (ie attr : Nat) : Nat :=
  (read16 buf (ie + attr + 1)).toNat

/-- The first attribute with this identifier that is complete in the element. -/
def firstAttr (read16 : Mem → Nat → UInt16) (buf : Mem) (ie ielen : Nat) (target : UInt8) :
    Option Nat :=
  (records 3 (attrSize read16 buf ie) ielen 6).find? fun attr => buf (ie + attr) == target

/-- The walk from an attribute on ends with what it finds. -/
inductive Finds (read16 : Mem → Nat → UInt16) (buf : Mem) (limit ie ielen : Nat)
    (target : UInt8) : Nat → Option Nat → Prop where
  | out {attr : Nat} (short : ielen < attr + 3) :
      Finds read16 buf limit ie ielen target attr none
  | cut {attr : Nat} (header : attr + 3 ≤ ielen) (looked : ie + attr + 3 ≤ limit)
      (long : ielen < attr + (attrLen read16 buf ie attr).toNat) :
      Finds read16 buf limit ie ielen target attr none
  | here {attr : Nat} (header : attr + 3 ≤ ielen) (looked : ie + attr + 3 ≤ limit)
      (whole : attr + (attrLen read16 buf ie attr).toNat ≤ ielen)
      (wanted : buf (ie + attr) = target) :
      Finds read16 buf limit ie ielen target attr (some attr)
  | on {attr : Nat} {found : Option Nat} (header : attr + 3 ≤ ielen)
      (looked : ie + attr + 3 ≤ limit)
      (whole : attr + (attrLen read16 buf ie attr).toNat ≤ ielen)
      (other : buf (ie + attr) ≠ target) (moves : 0 < (attrLen read16 buf ie attr).toNat)
      (rest : Finds read16 buf limit ie ielen target
        (attr + (attrLen read16 buf ie attr).toNat) found) :
      Finds read16 buf limit ie ielen target attr found

variable {target : UInt8} {attr fuel : Nat} {found : Option Nat}

/-- An attribute whose length is 0 in 16 bits is met for ever. -/
theorem getAttrLoop_stalls (header : attr + 3 ≤ ielen) (other : buf (ie + attr) ≠ target)
    (stays : (attrLen read16 buf ie attr).toNat = 0) (fuel : Nat) :
    getAttrLoop read16 buf limit ie ielen target fuel attr = none := by
  induction fuel with
  | zero => rfl
  | succ fuel ih =>
      have inner : ¬ ielen < attr := by omega
      rw [getAttrLoop, if_pos header]
      cases inside limit (ie + attr) 3 with
      | none => rfl
      | some _ => simp [stays, other, inner, ih]

theorem getAttrLoop_iff (enough : ielen ≤ attr + fuel) :
    getAttrLoop read16 buf limit ie ielen target (fuel + 1) attr = some found ↔
      Finds read16 buf limit ie ielen target attr found := by
  induction fuel generalizing attr with
  | zero =>
      rw [getAttrLoop, if_neg (by omega)]
      constructor
      · rintro ⟨⟩
        exact .out (by omega)
      · intro finds
        cases finds <;> first | rfl | omega
  | succ fuel ih =>
      rw [getAttrLoop]
      rcases Nat.lt_or_ge ielen (attr + 3) with short | header
      · rw [if_neg (by omega)]
        constructor
        · rintro ⟨⟩
          exact .out short
        · intro finds
          cases finds <;> first | rfl | omega
      rw [if_pos header]
      rcases Nat.lt_or_ge limit (ie + attr + 3) with hidden | looked
      · have faults : inside limit (ie + attr) 3 = none := if_neg (by omega)
        rw [faults]
        constructor
        · rintro ⟨⟩
        · intro finds
          cases finds <;> omega
      have looks : inside limit (ie + attr) 3 = some () := if_pos looked
      rw [looks, Option.bind_eq_bind, Option.bind_some]
      rcases Nat.lt_or_ge ielen (attr + (attrLen read16 buf ie attr).toNat) with long | whole
      · rw [if_pos long]
        constructor
        · rintro ⟨⟩
          exact .cut header looked long
        · intro finds
          cases finds <;> first | rfl | omega
      rw [if_neg (by omega)]
      rcases Decidable.em (buf (ie + attr) = target) with wanted | other
      · rw [if_pos wanted]
        constructor
        · rintro ⟨⟩
          exact .here header looked whole wanted
        · intro finds
          cases finds <;> first | rfl | omega | contradiction
      rw [if_neg other]
      rcases Nat.eq_zero_or_pos (attrLen read16 buf ie attr).toNat with stays | moves
      · have stuck : getAttrLoop read16 buf limit ie ielen target (fuel + 1) attr = none :=
          getAttrLoop_stalls header other stays (fuel + 1)
        rw [stays]
        simp only [Nat.add_zero, stuck]
        constructor
        · rintro ⟨⟩
        · intro finds
          cases finds <;> first | omega | contradiction
      · rw [ih (by omega)]
        constructor
        · exact .on header looked whole other moves
        · intro finds
          cases finds <;> first | assumption | omega | contradiction

/-- In a complete attribute nothing wraps. -/
theorem attrLen_toNat (small : ielen < 65536)
    (complete : CompleteAt 3 (attrSize read16 buf ie) ielen attr) :
    (attrLen read16 buf ie attr).toNat = 3 + attrSize read16 buf ie attr := by
  unfold CompleteAt at complete
  have three : (3 : UInt16).toNat = 3 := rfl
  unfold attrSize at complete ⊢
  rw [attrLen, UInt16.toNat_add, three]
  omega

theorem attrLen_ne_zero (small : ielen < 65536)
    (complete : CompleteAt 3 (attrSize read16 buf ie) ielen attr) :
    attrLen read16 buf ie attr ≠ 0 := by
  intro empty
  have len := attrLen_toNat small complete
  rw [empty] at len
  change 0 = _ at len
  omega

theorem contentLen_attrLen (small : ielen < 65536)
    (complete : CompleteAt 3 (attrSize read16 buf ie) ielen attr) :
    contentLen (attrLen read16 buf ie attr) = attrSize read16 buf ie attr := by
  have len := attrLen_toNat small complete
  have three : (3 : UInt32).toNat = 3 := rfl
  rw [contentLen, UInt32.toNat_sub_of_le, UInt16.toNat_toUInt32, three]
  · omega
  · rw [UInt32.le_iff_toNat_le, UInt16.toNat_toUInt32, three]
    omega

/-- The walk comes to the first attribute. -/
theorem finds_of_first {start p : Nat} (room : ie + ielen ≤ limit) (small : ielen < 65536)
    (first : (records 3 (attrSize read16 buf ie) ielen start).find?
      (fun attr => buf (ie + attr) == target) = some p) :
    Finds read16 buf limit ie ielen target start (some p) := by
  induction start using records_induction (attrSize read16 buf ie) ielen
    (show 0 < 3 by omega) with
  | outside start outside =>
      rw [records_of_incomplete outside] at first
      cases first
  | inside start complete ih =>
      have len := attrLen_toNat small complete
      rw [records_of_complete (by omega) complete] at first
      unfold CompleteAt at complete
      rcases Decidable.em (buf (ie + start) = target) with wanted | other
      · rw [List.find?_cons_of_pos (by simpa using wanted)] at first
        cases first
        exact .here (by omega) (by omega) (by omega) wanted
      · rw [List.find?_cons_of_neg (by simpa using other)] at first
        refine .on (by omega) (by omega) (by omega) other (by omega) ?_
        rw [len]
        exact ih first

section Content

variable {copy store : Bool} {zero : Option Nat}

/-- The content of an attribute is looked for inside the element and is that of the first one. -/
def GetsContent (read16 : Mem → Nat → UInt16) (buf : Mem) (ie ielen : Nat) (target : UInt8)
    (copy store : Bool) (found : Option FoundContent) : Prop :=
  ∃ f, found = some f ∧
    f.place = (firstAttr read16 buf ie ielen target).map (fun attr => ie + attr + 3) ∧
    ∀ attr ∈ firstAttr read16 buf ie ielen target,
      (copy = true → f.copied = buf.read (ie + attr + 3) (attrSize read16 buf ie attr)) ∧
      (store = true → f.length = some (attrSize read16 buf ie attr))

/-- With sums in 16 bits the headers lead out of the element, or to an attribute with this
identifier and the sum 0, and none before has this identifier or the sum 0. -/
inductive LeadsOut (read16 : Mem → Nat → UInt16) (buf : Mem) (ie ielen : Nat) (target : UInt8) :
    Nat → Prop where
  | out {attr : Nat} (short : ielen < attr + 3) : LeadsOut read16 buf ie ielen target attr
  | cut {attr : Nat} (header : attr + 3 ≤ ielen)
      (long : ielen < attr + (attrLen read16 buf ie attr).toNat) :
      LeadsOut read16 buf ie ielen target attr
  | empty {attr : Nat} (header : attr + 3 ≤ ielen) (wanted : buf (ie + attr) = target)
      (zero : (attrLen read16 buf ie attr).toNat = 0) : LeadsOut read16 buf ie ielen target attr
  | on {attr : Nat} (header : attr + 3 ≤ ielen)
      (whole : attr + (attrLen read16 buf ie attr).toNat ≤ ielen)
      (other : buf (ie + attr) ≠ target) (moves : 0 < (attrLen read16 buf ie attr).toNat)
      (rest : LeadsOut read16 buf ie ielen target
        (attr + (attrLen read16 buf ie attr).toNat)) :
      LeadsOut read16 buf ie ielen target attr

/-- The walk leads out where it finds nothing, or an attribute of length 0. -/
theorem leadsOut_iff (room : ie + ielen ≤ limit) :
    LeadsOut read16 buf ie ielen target attr ↔
      ∃ found, Finds read16 buf limit ie ielen target attr found ∧
        ∀ p ∈ found, (attrLen read16 buf ie p).toNat = 0 := by
  constructor
  · intro leads
    induction leads with
    | out short => exact ⟨none, .out short, by simp⟩
    | cut header long => exact ⟨none, .cut header (by omega) long, by simp⟩
    | @empty attr header wanted zero =>
        exact ⟨some attr, .here header (by omega) (by omega) wanted, by simp [zero]⟩
    | on header whole other moves rest ih =>
        obtain ⟨found, finds, empty⟩ := ih
        exact ⟨found, .on header (by omega) whole other moves finds, empty⟩
  · rintro ⟨found, finds, empty⟩
    induction finds with
    | out short => exact .out short
    | cut header looked long => exact .cut header long
    | @here attr header looked whole wanted => exact .empty header wanted (empty attr rfl)
    | on header looked whole other moves rest ih =>
        exact .on header whole other moves (ih empty)

/-- The content of the first attribute. -/
theorem getContent_first {p : Nat} (room : ie + ielen ≤ limit) (small : ielen < 65536)
    (first : firstAttr read16 buf ie ielen target = some p) :
    GetsContent read16 buf ie ielen target copy store
      (getContent read16 buf limit ie (some p) copy store zero) := by
  have complete := (mem_records (by omega) (List.mem_of_find?_eq_some first)).2
  have filled := attrLen_ne_zero small complete
  have content := contentLen_attrLen small complete
  unfold CompleteAt at complete
  have read : onlyIf (copy = true) (inside limit (ie + p + 3) (attrSize read16 buf ie p)) =
      some () := by
    have fits : inside limit (ie + p + 3) (attrSize read16 buf ie p) = some () :=
      if_pos (by omega)
    cases copy <;> simp [onlyIf, fits]
  simp only [getContent, if_neg filled, content, read, Option.bind_eq_bind, Option.bind_some]
  refine ⟨_, rfl, by simp [first], ?_⟩
  rw [first]
  rintro q ⟨⟩
  constructor <;> rintro rfl <;> simp

/-- Where there is no attribute, only one of length 0 is taken for none. -/
theorem getContent_none {found : Option Nat}
    (none_first : firstAttr read16 buf ie ielen target = none) :
    GetsContent read16 buf ie ielen target copy store
        (getContent read16 buf limit ie found copy store zero) ↔
      ∀ p ∈ found, (attrLen read16 buf ie p).toNat = 0 := by
  have absent (f : FoundContent) : (f.place = (firstAttr read16 buf ie ielen target).map
      (fun attr => ie + attr + 3) ∧ ∀ attr ∈ firstAttr read16 buf ie ielen target,
        (copy = true → f.copied = buf.read (ie + attr + 3) (attrSize read16 buf ie attr)) ∧
        (store = true → f.length = some (attrSize read16 buf ie attr))) ↔ f.place = none := by
    simp [none_first]
  simp only [GetsContent, absent]
  cases found with
  | none => simp [getContent]
  | some p =>
      have zero_iff : attrLen read16 buf ie p = 0 ↔ (attrLen read16 buf ie p).toNat = 0 := by
        rw [← UInt16.toNat_inj]
        rfl
      rcases Decidable.em (attrLen read16 buf ie p = 0) with empty | filled
      · simp [getContent, empty]
      · simp only [getContent, if_neg filled]
        constructor
        · rintro ⟨f, found, place⟩
          cases read : onlyIf (copy = true) (inside limit (ie + p + 3)
              (contentLen (attrLen read16 buf ie p))) with
          | none =>
              rw [read] at found
              cases found
          | some _ =>
              rw [read] at found
              cases found
              cases place
        · intro empty
          exact absurd (zero_iff.mpr (empty p rfl)) filled

/-- A complete element of the list with this OUI. -/
structure Element (buf : Mem) (oui : Vector UInt8 4) (ie ielen : Nat) : Prop where
  id : buf ie = vendorSpecificId
  oui : buf.read (ie + 2) 4 = oui.toList
  four : 4 ≤ ieSize buf ie
  size : ielen = ieSize buf ie + 2

theorem Element.small {oui : Vector UInt8 4} (element : Element buf oui ie ielen) :
    ielen < 65536 := by
  have byte := ieSize_lt buf ie
  have size := element.size
  omega

theorem Element.six {oui : Vector UInt8 4} (element : Element buf oui ie ielen)
    (room : ie + ielen ≤ limit) : ie + 6 ≤ limit := by
  have size := element.size
  have four := element.four
  omega

variable {oui : Vector UInt8 4} {refused : Int → Bool}

theorem getAttr_of_oui (id : buf ie = vendorSpecificId)
    (same : buf.read (ie + 2) 4 = oui.toList) (six : ie + 6 ≤ limit) :
    getAttr read16 buf limit ie ielen oui refused target =
      if ielen ≤ 6 ∨ refused 0 = true then some none
      else getAttrLoop read16 buf limit ie ielen target (ielen + 1) 6 := by
  have equal : wfMemcmp (buf.read (ie + 2) 4) oui.toList = 0 := by
    rw [wfMemcmp_eq_zero (by simp), same]
  have head : inside limit ie 1 = some () := if_pos (by omega)
  have four_bytes : inside limit (ie + 2) 4 = some () := if_pos (by omega)
  rcases Nat.lt_or_ge 6 ielen with long | short
  · cases out : refused 0 <;>
      simp [getAttr, Nat.not_le.mpr long, head, four_bytes, id, equal, out]
  · simp [getAttr, short]

/-- Where the OUI is not refused the walk decides. -/
theorem getAttr_iff (id : buf ie = vendorSpecificId) (same : buf.read (ie + 2) 4 = oui.toList)
    (six : ie + 6 ≤ limit) (taken : refused 0 = false) :
    getAttr read16 buf limit ie ielen oui refused target = some found ↔
      Finds read16 buf limit ie ielen target 6 found := by
  rw [getAttr_of_oui id same six]
  rcases Nat.lt_or_ge 6 ielen with long | short
  · rw [if_neg (by simp [taken]; omega), getAttrLoop_iff (by omega)]
  · rw [if_pos (Or.inl short)]
    constructor
    · rintro ⟨⟩
      exact .out (by omega)
    · intro finds
      cases finds <;> first | rfl | omega

/-- Where the OUI is not refused, the content is right when there is an attribute or the walk leads
out, and in no other element. -/
theorem content_iff (element : Element buf oui ie ielen) (room : ie + ielen ≤ limit)
    (taken : refused 0 = false) :
    GetsContent read16 buf ie ielen target copy store
        ((getAttr read16 buf limit ie ielen oui refused target).bind fun found =>
          getContent read16 buf limit ie found copy store zero) ↔
      firstAttr read16 buf ie ielen target ≠ none ∨ LeadsOut read16 buf ie ielen target 6 := by
  have walk (found : Option Nat) :
      getAttr read16 buf limit ie ielen oui refused target = some found ↔
        Finds read16 buf limit ie ielen target 6 found :=
    getAttr_iff element.id element.oui (element.six room) taken
  cases first : firstAttr read16 buf ie ielen target with
  | some p =>
      have finds := (walk _).mpr (@finds_of_first _ _ _ _ _ _ 6 p room element.small first)
      rw [finds, Option.bind_some]
      simp [getContent_first room element.small first]
  | none =>
      rw [leadsOut_iff room]
      simp only [ne_eq, not_true_eq_false, false_or]
      constructor
      · rintro ⟨f, ends, right⟩
        obtain ⟨found, gets, content⟩ := Option.bind_eq_some_iff.mp ends
        exact ⟨found, (walk found).mp gets, (getContent_none first).mp ⟨f, content, right⟩⟩
      · rintro ⟨found, finds, empty⟩
        rw [(walk found).mpr finds, Option.bind_some, getContent_none first]
        exact empty

/-- Where the OUI is refused nothing is found. -/
theorem content_refused (element : Element buf oui ie ielen) (room : ie + ielen ≤ limit)
    (out : refused 0 = true) :
    GetsContent read16 buf ie ielen target copy store
        ((getAttr read16 buf limit ie ielen oui refused target).bind fun found =>
          getContent read16 buf limit ie found copy store zero) ↔
      firstAttr read16 buf ie ielen target = none := by
  rw [getAttr_of_oui element.id element.oui (element.six room), if_pos (Or.inr out),
    Option.bind_some, getContent]
  cases first : firstAttr read16 buf ie ielen target <;> simp [GetsContent, first]

end Content

/-- Where attributes fill the element the walk finds the first one, if there is one. -/
theorem finds_of_tiles {start : Nat} (tiles : Tiles 3 (attrSize read16 buf ie) ielen start)
    (room : ie + ielen ≤ limit) (small : ielen < 65536) :
    Finds read16 buf limit ie ielen target start
      ((records 3 (attrSize read16 buf ie) ielen start).find?
        fun attr => buf (ie + attr) == target) := by
  induction tiles with
  | done =>
      have outside : ¬ CompleteAt 3 (attrSize read16 buf ie) ielen ielen := by
        unfold CompleteAt
        omega
      rw [records_of_incomplete outside]
      exact .out (by omega)
  | @record start complete rest ih =>
      have len := attrLen_toNat small complete
      rw [records_of_complete (by omega) complete]
      unfold CompleteAt at complete
      rcases Decidable.em (buf (ie + start) = target) with wanted | other
      · rw [List.find?_cons_of_pos (by simpa using wanted)]
        exact .here (by omega) (by omega) (by omega) wanted
      · rw [List.find?_cons_of_neg (by simpa using other)]
        refine .on (by omega) (by omega) (by omega) other (by omega) ?_
        rw [len]
        exact ih

end FoundAttribute

/-- When the four lookups are right: an element is found where no header is mistaken for it, a Wi-Fi
Direct attribute where it is complete or the walk leads out, a Wi-Fi Display attribute never. -/
theorem vendor_lookups_iff (buf : Mem) (inLen : Int) (flag target : UInt8) (copy store : Bool) :
    (GetsIe buf p2pOui inLen copy store (wfP2pGetIe buf inLen.toNat 0 inLen copy store) ↔
      IeFits buf p2pOui inLen.toNat) ∧
    (GetsIe buf wfdOui inLen copy store
        (wfP2pWfdGetIe buf inLen.toNat flag 0 inLen copy store) ↔
      IeFits buf wfdOui inLen.toNat) ∧
    (∀ limit ie ielen, Element buf p2pOui ie ielen → ie + ielen ≤ limit →
      (GetsContent Mem.readLe16 buf ie ielen target copy store
          (wfP2pGetAttrContent buf limit ie ielen target copy store) ↔
        firstAttr Mem.readLe16 buf ie ielen target ≠ none ∨
          LeadsOut Mem.readLe16 buf ie ielen target 6)) ∧
    ∀ limit ie ielen, Element buf wfdOui ie ielen → ie + ielen ≤ limit →
      (GetsContent Mem.readBe16 buf ie ielen target copy store
          (wfdGetAttrContent buf limit ie ielen target copy store flag) ↔
        firstAttr Mem.readBe16 buf ie ielen target = none) := by
  refine ⟨getIe_iff, getIe_iff, ?_, ?_⟩
  · intro limit ie ielen element room
    exact content_iff element room (by decide)
  · intro limit ie ielen element room
    exact content_refused element room (by decide)

/-- The two elements of a display: a device capability and a device information. -/
def displayIes : Mem := fun i =>
  (#[221, 9, 0x50, 0x6f, 0x9a, 0x09, 2, 2, 0, 0x25, 0,
    221, 13, 0x50, 0x6f, 0x9a, 0x0a, 0, 0, 6, 0x01, 0x11, 0x1c, 0x44, 0, 50] : Array UInt8).getD i 0

theorem vendor_lookups_display :
    (GetsContent Mem.readLe16 displayIes 0 11 2 true true
        (wfP2pGetAttrContent displayIes 26 0 11 2 true true) ↔
      firstAttr Mem.readLe16 displayIes 0 11 2 ≠ none ∨
        LeadsOut Mem.readLe16 displayIes 0 11 2 6) ∧
    (GetsContent Mem.readBe16 displayIes 11 15 2 true true
        (wfdGetAttrContent displayIes 26 11 15 2 true true 1) ↔
      firstAttr Mem.readBe16 displayIes 11 15 2 = none) := by
  have lookups := vendor_lookups_iff displayIes 26 1 2 true true
  exact ⟨lookups.2.2.1 26 0 11 ⟨by decide, by decide, by decide, by decide⟩ (by decide),
    lookups.2.2.2 26 11 15 ⟨by decide, by decide, by decide, by decide⟩ (by decide)⟩

theorem display_not_found :
    Element displayIes wfdOui 11 15 ∧
    firstAttr Mem.readBe16 displayIes 11 15 0 = some 6 ∧
    ¬ GetsContent Mem.readBe16 displayIes 11 15 0 true true
      (wfdGetAttrContent displayIes 26 11 15 0 true true 1) := by
  have first : firstAttr Mem.readBe16 displayIes 11 15 0 = some 6 := by decide +kernel
  refine ⟨⟨by decide, by decide, by decide, by decide⟩, first, ?_⟩
  rintro ⟨f, found, place, -⟩
  have lost : wfdGetAttrContent displayIes 26 11 15 0 true true 1 = some ⟨none, [], some 0⟩ := rfl
  rw [lost] at found
  cases found
  rw [first] at place
  cases place

end Smartchip.Frame.Vendor
