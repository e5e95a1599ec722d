import Smartchip.Ap.Association
import Smartchip.Foundation.Records
import Smartchip.Frame.Search

/-!
# The cipher suites of an element in a list

The parsers and the surveys of `nic/wf_80211.c` in memory, for any length that a caller
gives.  The bytes that are left are counted with 8 bits and from this length, not from
the one in the element.
-/

namespace Smartchip.Ap

open Smartchip.Foundation Smartchip.Frame

/-! ## The parsers -/

/-- What the two parsers differ in. -/
structure SuiteFormat where
  eid : UInt8
  oui : Option UInt32
  suite : UInt32 → UInt32

def rsnFormat : SuiteFormat := ⟨eidRsn, none, rsneCipherSuiteParse⟩

def wpaFormat : SuiteFormat :=
  ⟨eidVendorSpecific, some (ouiMicrosoft <<< 8 ||| 1), getWpaCipherSuite⟩

/-- What a parser returns, what it stores and the bytes that it reads. -/
structure Parsed where
  ret : Int
  group : Option UInt32
  pairwise : Option UInt32
  reads : List Nat

def Parsed.behind (reads : List Nat) (r : Parsed) : Parsed :=
  { r with reads := reads ++ r.reads }

def readBe32 (buf : Mem) (pos : Nat) : UInt32 :=
  be32 (buf pos) (buf (pos + 1)) (buf (pos + 2)) (buf (pos + 3))

/-- From the pairwise cipher suite count on. -/
def parseCount (suite : UInt32 → UInt32) (buf : Mem) (pos : Nat) (left : UInt8)
    (group : UInt32) : Parsed :=
  if left < 2 then ⟨-6, some group, none, []⟩
  else
    let cnt := (buf.readLe16 pos).toNat
    let left := left - 2
    if cnt = 0 ∨ left.toNat < cnt * 4 then ⟨-7, some group, none, List.range' pos 2⟩
    else
      ⟨0, some group, some (pairwiseSuites suite cnt (buf.read (pos + 2) (cnt * 4))),
        List.range' pos 2 ++ List.range' (pos + 2) (cnt * 4)⟩

/-- From the group cipher suite on. -/
def parseGroup (suite : UInt32 → UInt32) (buf : Mem) (pos : Nat) (left : UInt8) : Parsed :=
  if left < 4 then ⟨-5, none, none, []⟩
  else
    let group := suite (readBe32 buf pos)
    let left := left - 4
    if left = 0 then ⟨0, some group, none, List.range' pos 4⟩
    else (parseCount suite buf (pos + 4) left group).behind (List.range' pos 4)

/-- From the version on. -/
def parseVersion (suite : UInt32 → UInt32) (buf : Mem) (pos : Nat) (left : UInt8) :
    Parsed :=
  if left < 2 then ⟨-3, none, none, []⟩
  else if buf.readLe16 pos ≠ 1 then ⟨-4, none, none, List.range' pos 2⟩
  else
    let left := left - 2
    if left = 0 then ⟨0, none, none, List.range' pos 2⟩
    else (parseGroup suite buf (pos + 2) left).behind (List.range' pos 2)

/-- The data of the element, with the check of the OUI that one of the parsers makes. -/
def SuiteFormat.parseData (f : SuiteFormat) (buf : Mem) (left : UInt8) : Parsed :=
  match f.oui with
  | none => parseVersion f.suite buf 2 left
  | some oui =>
      if left < 4 then ⟨-3, none, none, []⟩
      else if readBe32 buf 2 ≠ oui then ⟨-4, none, none, List.range' 2 4⟩
      else (parseVersion f.suite buf 6 (left - 4)).behind (List.range' 2 4)

/-- The element begins at the address 0. -/
def SuiteFormat.parse (f : SuiteFormat) (buf : Mem) (len : UInt16) : Parsed :=
  if len = 0 then ⟨-1, none, none, []⟩
  else if buf 0 ≠ f.eid then ⟨-2, none, none, [0]⟩
  else if len.toNat < 2 + (buf 1).toNat then ⟨-2, none, none, [0, 1]⟩
  else (f.parseData buf (UInt8.ofNat (len.toNat - 2))).behind [0, 1]

def wf80211MgmtRsnParseAt (prsn : Mem) (len : UInt16) : Parsed := rsnFormat.parse prsn len

def wf80211MgmtWpaParseAt (pwpa : Mem) (len : UInt16) : Parsed := wpaFormat.parse pwpa len

/-- What is stored goes over what was stored before. -/
def Parsed.over (r : Parsed) (group pairwise : Option UInt32) : Option UInt32 × Option UInt32 :=
  (r.group.or group, r.pairwise.or pairwise)

/-! ## The surveys -/

/-- What a survey returns, what it stores for the ciphers, and the element with the length
that is left from it on. -/
structure SurveyEnd where
  ret : Int
  group : Option UInt32
  pairwise : Option UInt32
  ie : Option (Nat × UInt16)

/-- The loop of a survey; `none` when it has not ended. -/
def surveyLoop (f : SuiteFormat) (data : Mem) :
    Nat → Nat → UInt16 → Option UInt32 × Option UInt32 → Option SurveyEnd
  | 0, _, _, _ => none
  | fuel + 1, pie, ieLen, stored =>
      let r := f.parse (fun i => data (pie + i)) ieLen
      let stored := r.over stored.1 stored.2
      if r.ret = 0 then some ⟨r.ret, stored.1, stored.2, some (pie, ieLen)⟩
      else
        let size := (data (pie + 1)).toNat
        let ieLen := ieLen - (2 + UInt16.ofNat size)
        if ieLen ≤ 2 then some ⟨r.ret, stored.1, stored.2, none⟩
        else surveyLoop f data fuel (pie + (2 + size)) ieLen stored

def wf80211MgmtRsnSurvey (data : Mem) (dataLen : UInt16) (fuel : Nat) : Option SurveyEnd :=
  surveyLoop rsnFormat data fuel 0 dataLen (none, none)

def wf80211MgmtWpaSurvey (data : Mem) (dataLen : UInt16) (fuel : Nat) : Option SurveyEnd :=
  surveyLoop wpaFormat data fuel 0 dataLen (none, none)

/-! ## Where an element ends -/

/-- The first thing in the data of an element that is missing or wrong, or the field that
it ends behind. -/
inductive Outcome where
  | noOui | otherOui | noVersion | otherVersion | bare | noGroup | groupOnly | noCount
  | badCount | whole
  deriving DecidableEq

namespace Outcome

def ret : Outcome → Int
  | noOui => -3
  | otherOui => -4
  | noVersion => -3
  | otherVersion => -4
  | bare => 0
  | noGroup => -5
  | groupOnly => 0
  | noCount => -6
  | badCount => -7
  | whole => 0

def hasGroup : Outcome → Bool
  | groupOnly | noCount | badCount | whole => true
  | _ => false

/-- How far the data is looked at, with the size of the OUI and the number of suites. -/
def reach (pre cnt : Nat) : Outcome → Nat
  | noOui => 0
  | otherOui | noVersion => pre
  | otherVersion | bare | noGroup => pre + 2
  | groupOnly | noCount => pre + 6
  | badCount => pre + 8
  | whole => pre + 8 + cnt * 4

/-- The same is returned, and the same fields are stored. -/
def Same (o other : Outcome) : Prop :=
  o.ret = other.ret ∧ o.hasGroup = other.hasGroup ∧ (o = whole ↔ other = whole)

instance (o other : Outcome) : Decidable (o.Same other) :=
  inferInstanceAs (Decidable (_ ∧ _))

theorem reach_four {o : Outcome} {cnt : Nat} (oui : o ≠ noOui) :
    o.reach 4 cnt = 4 + o.reach 0 cnt := by
  cases o with
  | noOui => exact absurd rfl oui
  | whole =>
      simp only [reach]
      omega
  | _ => rfl

end Outcome

/-- The outcome from a version on, with a length of the data that is left. -/
def outcomeFrom (buf : Mem) (pos left : Nat) : Outcome :=
  let cnt := (buf.readLe16 (pos + 6)).toNat
  if left < 2 then .noVersion
  else if buf.readLe16 pos ≠ 1 then .otherVersion
  else if left = 2 then .bare
  else if left < 6 then .noGroup
  else if left = 6 then .groupOnly
  else if left < 8 then .noCount
  else if cnt = 0 ∨ left < 8 + cnt * 4 then .badCount
  else .whole

namespace SuiteFormat

variable (f : SuiteFormat) (buf : Mem)

def pre : Nat := if f.oui.isSome = true then 4 else 0

def outcome (left : Nat) : Outcome :=
  match f.oui with
  | none => outcomeFrom buf 2 left
  | some oui =>
      if left < 4 then .noOui
      else if readBe32 buf 2 ≠ oui then .otherOui
      else outcomeFrom buf 6 (left - 4)

def groupAt : UInt32 := f.suite (readBe32 buf (2 + f.pre + 2))

def count : Nat := (buf.readLe16 (2 + f.pre + 6)).toNat

def pairwiseAt : UInt32 :=
  pairwiseSuites f.suite (f.count buf) (buf.read (2 + f.pre + 8) (f.count buf * 4))

end SuiteFormat

/-! ## What the parsers do -/

section Parse

variable {suite : UInt32 → UInt32} {buf : Mem} {pos : Nat} {left : UInt8}

theorem lt_two : left < 2 ↔ left.toNat < 2 := UInt8.lt_iff_toNat_lt

theorem lt_four : left < 4 ↔ left.toNat < 4 := UInt8.lt_iff_toNat_lt

theorem eq_zero : left = 0 ↔ left.toNat = 0 := UInt8.toNat_inj.symm

theorem sub_two (some : ¬ left.toNat < 2) : (left - 2).toNat = left.toNat - 2 :=
  UInt8.toNat_sub_of_le left 2 (by rw [UInt8.le_iff_toNat_le]; exact Nat.not_lt.mp some)

theorem sub_four (some : ¬ left.toNat < 4) : (left - 4).toNat = left.toNat - 4 :=
  UInt8.toNat_sub_of_le left 4 (by rw [UInt8.le_iff_toNat_le]; exact Nat.not_lt.mp some)

/-- The parser from the version on, by where the data ends. -/
theorem parseVersion_spec {o : Outcome} {cnt : Nat}
    (ends : outcomeFrom buf pos left.toNat = o)
    (counted : (buf.readLe16 (pos + 6)).toNat = cnt) :
    parseVersion suite buf pos left =
      ⟨o.ret, if o.hasGroup = true then some (suite (readBe32 buf (pos + 2))) else none,
        if o = .whole then
          some (pairwiseSuites suite cnt (buf.read (pos + 8) (cnt * 4)))
        else none,
        List.range' pos (o.reach 0 cnt)⟩ := by
  subst ends
  simp only [parseVersion, outcomeFrom, lt_two, counted]
  by_cases short : left.toNat < 2
  · simp [short, Outcome.ret, Outcome.hasGroup, Outcome.reach]
  by_cases version : buf.readLe16 pos ≠ 1
  · simp [short, version, Outcome.ret, Outcome.hasGroup, Outcome.reach]
  simp only [short, version, if_false, eq_zero, sub_two short]
  by_cases bare : left.toNat = 2
  · simp [bare, Outcome.ret, Outcome.hasGroup, Outcome.reach]
  have more : ¬ left.toNat - 2 = 0 := by omega
  simp only [bare, more, if_false, parseGroup, lt_four, sub_two short]
  by_cases group : left.toNat < 6
  · have few : left.toNat - 2 < 4 := by omega
    simp [group, few, Parsed.behind, Outcome.ret, Outcome.hasGroup, Outcome.reach]
  have enough : ¬ (left - 2).toNat < 4 := by
    rw [sub_two short]
    omega
  have behind : (left - 2 - 4).toNat = left.toNat - 6 := by
    rw [sub_four enough, sub_two short]
    omega
  have some : ¬ left.toNat - 2 < 4 := by omega
  simp only [group, some, if_false, eq_zero, behind]
  by_cases only : left.toNat = 6
  · simp [only, Parsed.behind, Outcome.ret, Outcome.hasGroup, Outcome.reach,
      List.range'_append_1]
  have more : ¬ left.toNat - 6 = 0 := by omega
  simp only [only, more, if_false, parseCount, lt_two, behind]
  by_cases count : left.toNat < 8
  · have few : left.toNat - 6 < 2 := by omega
    simp [count, few, Parsed.behind, Outcome.ret, Outcome.hasGroup, Outcome.reach,
      List.range'_append_1]
  have some : ¬ left.toNat - 6 < 2 := by omega
  have last : (left - 2 - 4 - 2).toNat = left.toNat - 8 := by
    rw [sub_two (by omega), behind]
    omega
  have at_cnt : (buf.readLe16 (pos + 2 + 4)).toNat = cnt := counted
  simp only [count, some, if_false, last, at_cnt]
  by_cases bad : cnt = 0 ∨ left.toNat < 8 + cnt * 4
  · have wrong : cnt = 0 ∨ left.toNat - 8 < cnt * 4 := by omega
    simp [bad, wrong, Parsed.behind, Outcome.ret, Outcome.hasGroup, Outcome.reach,
      List.range'_append_1]
  · have right : ¬ (cnt = 0 ∨ left.toNat - 8 < cnt * 4) := by omega
    simp [bad, right, Parsed.behind, Outcome.ret, Outcome.hasGroup, Outcome.reach,
      List.range'_append_1]
    omega

theorem outcomeFrom_oui (left : Nat) :
    outcomeFrom buf pos left ≠ .noOui ∧ outcomeFrom buf pos left ≠ .otherOui := by
  unfold outcomeFrom
  dsimp only
  split_ifs <;> simp

theorem outcomeFrom_reach_le (left : Nat) :
    (outcomeFrom buf pos left).reach 0 (buf.readLe16 (pos + 6)).toNat ≤ left := by
  simp only [outcomeFrom]
  split_ifs <;> simp only [Outcome.reach] <;> omega

end Parse

namespace SuiteFormat

variable {f : SuiteFormat} {buf : Mem}

/-- What is stored for data of this length, as far as the fields are there. -/
def stored (f : SuiteFormat) (buf : Mem) (left : Nat) : Option UInt32 × Option UInt32 :=
  (if (f.outcome buf left).hasGroup = true then some (f.groupAt buf) else none,
    if f.outcome buf left = .whole then some (f.pairwiseAt buf) else none)

theorem parseData_spec (left : UInt8) :
    f.parseData buf left =
      ⟨(f.outcome buf left.toNat).ret, (f.stored buf left.toNat).1,
        (f.stored buf left.toNat).2,
        List.range' 2 ((f.outcome buf left.toNat).reach f.pre (f.count buf))⟩ := by
  obtain ⟨eid, oui, suite⟩ := f
  cases oui with
  | none => exact parseVersion_spec rfl rfl
  | some oui =>
      simp only [parseData, outcome, stored, lt_four, pre]
      by_cases short : left.toNat < 4
      · simp [short, Outcome.ret, Outcome.hasGroup, Outcome.reach]
      by_cases other : readBe32 buf 2 ≠ oui
      · simp [short, other, Outcome.ret, Outcome.hasGroup, Outcome.reach]
      have rest := @parseVersion_spec suite buf 6 (left - 4) _ _ rfl rfl
      obtain ⟨noOui, otherOui⟩ := @outcomeFrom_oui buf 6 (left.toNat - 4)
      rw [sub_four short] at rest
      simp only [short, other, if_false, rest, Parsed.behind]
      generalize outcomeFrom buf 6 (left.toNat - 4) = o at noOui otherOui ⊢
      rw [List.range'_append_1 (s := 2), ← Outcome.reach_four noOui]
      simp [groupAt, count, pairwiseAt, pre]

/-- Nothing behind the data is looked at. -/
theorem outcome_reach_le (left : Nat) :
    (f.outcome buf left).reach f.pre (f.count buf) ≤ left := by
  obtain ⟨eid, oui, suite⟩ := f
  cases oui with
  | none => exact outcomeFrom_reach_le left
  | some oui =>
      simp only [outcome]
      by_cases short : left < 4
      · simp [short, Outcome.reach]
      by_cases other : readBe32 buf 2 ≠ oui
      · simp [short, other, Outcome.reach, pre]
        omega
      · have reach := @outcomeFrom_reach_le buf 6 (left - 4)
        have added := @Outcome.reach_four _ (buf.readLe16 (6 + 6)).toNat
          (@outcomeFrom_oui buf 6 (left - 4)).1
        simp only [short, other, if_false]
        refine le_trans (le_of_eq added) ?_
        omega

end SuiteFormat

/-! ## The bytes of the element -/

section Congr

variable {a b : Mem}

theorem readLe16_eq {pos : Nat} (low : a pos = b pos) (high : a (pos + 1) = b (pos + 1)) :
    a.readLe16 pos = b.readLe16 pos := by
  simp [Mem.readLe16, low, high]

theorem readBe32_eq {pos : Nat} (same : ∀ i < 4, a (pos + i) = b (pos + i)) :
    readBe32 a pos = readBe32 b pos := by
  have zero := same 0 (by omega)
  simp only [Nat.add_zero] at zero
  simp [readBe32, zero, same 1, same 2, same 3]

theorem outcomeFrom_eq {pos left : Nat} (same : ∀ i < left, a (pos + i) = b (pos + i)) :
    outcomeFrom a pos left = outcomeFrom b pos left := by
  by_cases short : left < 2
  · simp [outcomeFrom, short]
  have low := same 0 (by omega)
  have version : a.readLe16 pos = b.readLe16 pos := readLe16_eq low (same 1 (by omega))
  by_cases few : left < 8
  · simp only [outcomeFrom, version, few, if_true]
  have count : a.readLe16 (pos + 6) = b.readLe16 (pos + 6) :=
    readLe16_eq (same 6 (by omega)) (same 7 (by omega))
  simp only [outcomeFrom, version, count]

variable {f : SuiteFormat} {left : Nat} (same : ∀ i < 2 + left, a i = b i)

include same in
theorem outcome_eq : f.outcome a left = f.outcome b left := by
  obtain ⟨eid, oui, suite⟩ := f
  cases oui with
  | none => exact outcomeFrom_eq fun i inside => same _ (by omega)
  | some oui =>
      simp only [SuiteFormat.outcome]
      by_cases short : left < 4
      · simp [short]
      have read : readBe32 a 2 = readBe32 b 2 :=
        readBe32_eq fun i inside => same _ (by omega)
      have rest : outcomeFrom a 6 (left - 4) = outcomeFrom b 6 (left - 4) :=
        outcomeFrom_eq fun i inside => same _ (by omega)
      simp only [short, read, rest]

include same in
theorem stored_eq : f.stored a left = f.stored b left := by
  have reach := @f.outcome_reach_le a left
  have ends := outcome_eq (f := f) same
  unfold SuiteFormat.stored
  rw [← ends]
  cases o : f.outcome a left with
  | groupOnly | noCount | badCount =>
      simp only [o, Outcome.reach] at reach
      have group : f.groupAt a = f.groupAt b := by
        unfold SuiteFormat.groupAt
        rw [readBe32_eq fun i inside => same _ (by omega)]
      simp [Outcome.hasGroup, group]
  | whole =>
      simp only [o, Outcome.reach] at reach
      have group : f.groupAt a = f.groupAt b := by
        unfold SuiteFormat.groupAt
        rw [readBe32_eq fun i inside => same _ (by omega)]
      have count : f.count a = f.count b := by
        unfold SuiteFormat.count
        rw [readLe16_eq (same _ (by omega)) (same _ (by omega))]
      have pairwise : f.pairwiseAt a = f.pairwiseAt b := by
        unfold SuiteFormat.pairwiseAt
        rw [← count, Mem.read_eq_iff.mpr]
        exact fun i inside => same _ (by omega)
      simp [Outcome.hasGroup, group, pairwise]
  | _ => simp [Outcome.hasGroup]

end Congr

/-! ## The parsers of an element that is given alone -/

/-- The memory from an element on. -/
def fromIe (data : Mem) (pie : Nat) : Mem := fun i => data (pie + i)

/-- What is returned, and the ciphers with what is stored over them. -/
def Parsed.onto (r : Parsed) (c : Ciphers) : Int × Ciphers :=
  (r.ret, ⟨r.group.getD c.group, r.pairwise.getD c.pairwise⟩)

section Alone

variable {suite : UInt32 → UInt32} {buf : Mem} {c : Ciphers}

theorem read_four (pos n : Nat) :
    buf.read pos (n + 4) =
      buf pos :: buf (pos + 1) :: buf (pos + 2) :: buf (pos + 3) :: buf.read (pos + 4) n := by
  rw [show n + 4 = (n + 2) + 2 by omega, read_two, read_two]

/-- The suites behind the last one that is counted do not matter. -/
theorem pairwiseSuites_take (suite : UInt32 → UInt32) (cnt : Nat) (list : List UInt8) :
    pairwiseSuites suite cnt (list.take (cnt * 4)) = pairwiseSuites suite cnt list := by
  induction cnt generalizing list with
  | zero => simp [pairwiseSuites]
  | succ cnt ih =>
      rw [show (cnt + 1) * 4 = cnt * 4 + 4 by omega]
      match list with
      | [] | [_] | [_, _] | [_, _, _] => rfl
      | b0 :: b1 :: b2 :: b3 :: rest =>
          simp only [List.take_succ_cons, pairwiseSuites, ih]

theorem parseGroup_onto {pos n : Nat} (some : 0 < n) (byte : n < 256) :
    (parseGroup suite buf pos (UInt8.ofNat n)).onto c =
      parseSuites suite c (buf.read pos n) := by
  have left : (UInt8.ofNat n).toNat = n := by
    rw [UInt8.toNat_ofNat']
    omega
  by_cases few : n < 4
  · obtain rfl | rfl | rfl : n = 1 ∨ n = 2 ∨ n = 3 := by omega
    all_goals rfl
  obtain ⟨k, rfl⟩ : ∃ k, n = k + 4 := ⟨n - 4, by omega⟩
  have behind : (UInt8.ofNat (k + 4) - 4).toNat = k := by
    rw [sub_four (by omega), left]
    omega
  rw [read_four, parseGroup, if_neg (by rw [lt_four, left]; exact few)]
  simp only [parseSuites, eq_zero, behind]
  obtain _ | _ | j := k
  · rfl
  · have one : ¬ 0 + 1 = 0 := by omega
    have short : UInt8.ofNat (0 + 1 + 4) - 4 < 2 := by decide
    simp only [one, if_false, parseCount, short, if_true]
    rfl
  · have last : (UInt8.ofNat (j + 1 + 1 + 4) - 4 - 2).toNat = j := by
      rw [sub_two (by omega), behind]
      omega
    have more : ¬ j + 1 + 1 = 0 := by omega
    have enough : ¬ j + 1 + 1 < 2 := by omega
    have field : ofLe16 (buf (pos + 4)) (buf (pos + 4 + 1)) = buf.readLe16 (pos + 4) := rfl
    rw [read_two]
    simp only [parseCount, lt_two, behind, last, more, enough, if_false, Mem.length_read,
      field]
    split_ifs with bad
    · rfl
    · rw [not_or, Nat.not_lt] at bad
      have list : pairwiseSuites suite (buf.readLe16 (pos + 4)).toNat
            (buf.read (pos + 4 + 2) ((buf.readLe16 (pos + 4)).toNat * 4)) =
          pairwiseSuites suite (buf.readLe16 (pos + 4)).toNat (buf.read (pos + 4 + 2) j) := by
        rw [← Mem.take_read buf (pos + 4 + 2) bad.2]
        exact pairwiseSuites_take _ _ _
      simp [Parsed.onto, Parsed.behind, list, readBe32]

/-- From a version on the two models are the same. -/
theorem parseVersion_onto {pos n : Nat} (byte : n < 256) :
    (parseVersion suite buf pos (UInt8.ofNat n)).onto c =
      match buf.read pos n with
      | low :: high :: rest =>
          if ofLe16 low high ≠ 1 then (-4, c) else parseSuites suite c rest
      | _ => (-3, c) := by
  obtain _ | _ | k := n
  · rfl
  · rfl
  · have left : (UInt8.ofNat (k + 1 + 1)).toNat = k + 1 + 1 := by
      rw [UInt8.toNat_ofNat']
      omega
    have some : ¬ (UInt8.ofNat (k + 1 + 1)).toNat < 2 := by omega
    have behind : UInt8.ofNat (k + 1 + 1) - 2 = UInt8.ofNat k := by
      rw [← UInt8.toNat_inj, sub_two some, left, UInt8.toNat_ofNat']
      omega
    have field : ofLe16 (buf pos) (buf (pos + 1)) = buf.readLe16 pos := rfl
    rw [read_two]
    simp only [parseVersion, lt_two, some, if_false, behind, field]
    split_ifs with version bare
    · rfl
    · have zero : k = 0 := by
        have none_left := congrArg UInt8.toNat bare
        rw [UInt8.toNat_ofNat', show (0 : UInt8).toNat = 0 from rfl] at none_left
        omega
      rw [zero]
      rfl
    · have more : 0 < k := by
        rw [Nat.pos_iff_ne_zero]
        rintro rfl
        exact bare rfl
      exact parseGroup_onto more (by omega)

theorem parse_own (f : SuiteFormat) (eid : buf 0 = f.eid) :
    f.parse buf (UInt16.ofNat (2 + ieSize buf 0)) =
      (f.parseData buf (UInt8.ofNat (ieSize buf 0))).behind [0, 1] := by
  have byte := ieSize_lt buf 0
  have own : (UInt16.ofNat (2 + ieSize buf 0)).toNat = 2 + ieSize buf 0 := by
    rw [UInt16.toNat_ofNat']
    omega
  have filled : UInt16.ofNat (2 + ieSize buf 0) ≠ 0 := by
    intro zero
    rw [zero, show (0 : UInt16).toNat = 0 from rfl] at own
    omega
  have whole : ¬ 2 + ieSize buf 0 < 2 + (buf 1).toNat := Nat.lt_irrefl _
  simp only [SuiteFormat.parse, filled, eid, ne_eq, not_true_eq_false, whole, if_false, own,
    Nat.add_sub_cancel_left]

end Alone

section Association

variable (mem : Mem) (pie : Nat) (c : Ciphers)

theorem own_length :
    UInt16.ofNat (2 + ieSize mem pie) ≠ 0 ∧
      2 + (readIe mem pie).data.length ≤ (UInt16.ofNat (2 + ieSize mem pie)).toNat := by
  have byte := ieSize_lt mem pie
  have own : (UInt16.ofNat (2 + ieSize mem pie)).toNat = 2 + ieSize mem pie := by
    rw [UInt16.toNat_ofNat']
    omega
  constructor
  · intro zero
    rw [zero, show (0 : UInt16).toNat = 0 from rfl] at own
    omega
  · rw [own, readIe, Mem.length_read, ieSize]

theorem readIe_data :
    (readIe mem pie).data = (fromIe mem pie).read 2 (ieSize mem pie) := by
  unfold readIe Mem.read fromIe ieSize
  simp only [Nat.add_assoc]

/-- The parsers of the module on association are these with the length of the element. -/
theorem wf80211MgmtRsnParse_own :
    (wf80211MgmtRsnParseAt (fromIe mem pie) (UInt16.ofNat (2 + ieSize mem pie))).onto c =
      wf80211MgmtRsnParse (readIe mem pie) (UInt16.ofNat (2 + ieSize mem pie)) c := by
  obtain ⟨filled, whole⟩ := own_length mem pie
  have byte := ieSize_lt mem pie
  have size : ieSize (fromIe mem pie) 0 = ieSize mem pie := rfl
  by_cases eid : mem pie = eidRsn
  · have same : (readIe mem pie).elementId = eidRsn := eid
    have alone := @parse_own (fromIe mem pie) rsnFormat eid
    rw [size] at alone
    rw [wf80211MgmtRsnParseAt, alone, wf80211MgmtRsnParse, if_neg filled,
      if_neg (not_not.mpr ⟨same, whole⟩), readIe_data]
    exact parseVersion_onto byte
  · have other : ¬ (readIe mem pie).elementId = eidRsn := eid
    generalize UInt16.ofNat (2 + ieSize mem pie) = len at filled
    simp [wf80211MgmtRsnParseAt, SuiteFormat.parse, filled, rsnFormat, fromIe, eid,
      wf80211MgmtRsnParse, other, Parsed.onto]

theorem wf80211MgmtWpaParse_own :
    (wf80211MgmtWpaParseAt (fromIe mem pie) (UInt16.ofNat (2 + ieSize mem pie))).onto c =
      wf80211MgmtWpaParse (readIe mem pie) (UInt16.ofNat (2 + ieSize mem pie)) c := by
  obtain ⟨filled, whole⟩ := own_length mem pie
  have byte := ieSize_lt mem pie
  have size : ieSize (fromIe mem pie) 0 = ieSize mem pie := rfl
  by_cases eid : mem pie = eidVendorSpecific
  · have same : (readIe mem pie).elementId = eidVendorSpecific := eid
    have alone := @parse_own (fromIe mem pie) wpaFormat eid
    rw [size] at alone
    rw [wf80211MgmtWpaParseAt, alone, wf80211MgmtWpaParse, if_neg filled,
      if_neg (not_not.mpr ⟨same, whole⟩), readIe_data]
    generalize ieSize mem pie = n at byte
    by_cases few : n < 4
    · obtain rfl | rfl | rfl | rfl : n = 0 ∨ n = 1 ∨ n = 2 ∨ n = 3 := by omega
      all_goals rfl
    · obtain ⟨k, rfl⟩ : ∃ k, n = k + 4 := ⟨n - 4, by omega⟩
      have left : (UInt8.ofNat (k + 4)).toNat = k + 4 := by
        rw [UInt8.toNat_ofNat']
        omega
      have behind : UInt8.ofNat (k + 4) - 4 = UInt8.ofNat k := by
        rw [← UInt8.toNat_inj, sub_four (by omega), left, UInt8.toNat_ofNat']
        omega
      have rest := @parseVersion_onto getWpaCipherSuite (fromIe mem pie) c 6 k (by omega)
      have oui : be32 (fromIe mem pie 2) (fromIe mem pie (2 + 1)) (fromIe mem pie (2 + 2))
          (fromIe mem pie (2 + 3)) = readBe32 (fromIe mem pie) 2 := rfl
      rw [read_four]
      simp only [SuiteFormat.parseData, wpaFormat, lt_four, left,
        show ¬ k + 4 < 4 by omega, if_false, behind, oui]
      split_ifs with other
      · rfl
      · exact rest
  · have other : ¬ (readIe mem pie).elementId = eidVendorSpecific := eid
    generalize UInt16.ofNat (2 + ieSize mem pie) = len at filled
    simp [wf80211MgmtWpaParseAt, SuiteFormat.parse, filled, wpaFormat, fromIe, eid,
      wf80211MgmtWpaParse, other, Parsed.onto]

end Association

/-! ## The first element of the bytes -/

/-- The first element with its header, or what there is of it. -/
def extent (buf : Mem) (len : UInt16) : Nat :=
  if CompleteAt 2 (ieSize buf) len.toNat 0 then 2 + ieSize buf 0 else len.toNat

def Agree (r other : Parsed) : Prop :=
  r.ret = other.ret ∧ r.group = other.group ∧ r.pairwise = other.pairwise

/-- Only the first element is read, and the result is the one that it has alone. -/
structure OfElement (parse : Mem → UInt16 → Parsed) (buf : Mem) (len : UInt16) :
    Prop where
  inside : ∀ o ∈ (parse buf len).reads, o < extent buf len
  alone : CompleteAt 2 (ieSize buf) len.toNat 0 →
    ∀ other, (∀ i < 2 + ieSize buf 0, other i = buf i) →
      Agree (parse buf len) (parse other (UInt16.ofNat (2 + ieSize buf 0)))

/-- Two inputs with the same first element have the same result. -/
theorem OfElement.pair {parse : Mem → UInt16 → Parsed} {buf other : Mem}
    {len more : UInt16} (first : OfElement parse buf len)
    (second : OfElement parse other more)
    (complete : CompleteAt 2 (ieSize buf) len.toNat 0)
    (also : CompleteAt 2 (ieSize other) more.toNat 0)
    (same : ∀ i < 2 + ieSize buf 0, other i = buf i) :
    Agree (parse buf len) (parse other more) := by
  have size : ieSize other 0 = ieSize buf 0 := by
    unfold ieSize
    rw [same 1 (by omega)]
  obtain ⟨ret, group, pairwise⟩ := first.alone complete other same
  obtain ⟨ret', group', pairwise'⟩ := second.alone also other fun _ _ => rfl
  rw [size] at ret' group' pairwise'
  exact ⟨ret.trans ret'.symm, group.trans group'.symm, pairwise.trans pairwise'.symm⟩

/-- What the parser takes for the length of the data, of which it knows 8 bits. -/
def leftOf (len : UInt16) (offset : Nat) : Nat := (len.toNat - offset - 2) % 256

/-- The data that the parser takes for that of the element ends where the element's data
does: it returns and stores the same, and looks at nothing behind. -/
structure Parsable (f : SuiteFormat) (buf : Mem) (len : UInt16) : Prop where
  header : len = 1 → buf 0 ≠ f.eid
  data : CompleteAt 2 (ieSize buf) len.toNat 0 → buf 0 = f.eid →
    (f.outcome buf (leftOf len 0)).Same (f.outcome buf (ieSize buf 0)) ∧
      (f.outcome buf (leftOf len 0)).reach f.pre (f.count buf) ≤ ieSize buf 0

section Element

variable {f : SuiteFormat} {buf : Mem} {len : UInt16}

theorem same_iff (l n : Nat) :
    (f.outcome buf l).Same (f.outcome buf n) ↔
      (f.outcome buf l).ret = (f.outcome buf n).ret ∧ f.stored buf l = f.stored buf n := by
  unfold Outcome.Same SuiteFormat.stored
  rw [Prod.mk.injEq]
  cases (f.outcome buf l).hasGroup <;> cases (f.outcome buf n).hasGroup <;>
    by_cases whole : f.outcome buf l = .whole <;>
    by_cases also : f.outcome buf n = .whole <;> simp [whole, also]

theorem parse_other (some : 0 < len.toNat) (other : buf 0 ≠ f.eid) :
    f.parse buf len = ⟨-2, none, none, [0]⟩ := by
  have filled : len ≠ 0 := by
    rintro rfl
    exact Nat.lt_irrefl 0 some
  simp [SuiteFormat.parse, filled, other]

theorem parse_incomplete (some : 0 < len.toNat) (eid : buf 0 = f.eid)
    (short : len.toNat < 2 + ieSize buf 0) :
    f.parse buf len = ⟨-2, none, none, [0, 1]⟩ := by
  have filled : len ≠ 0 := by
    rintro rfl
    exact Nat.lt_irrefl 0 some
  unfold ieSize at short
  simp [SuiteFormat.parse, filled, eid, short]

theorem parse_complete (complete : 2 + ieSize buf 0 ≤ len.toNat) (eid : buf 0 = f.eid) :
    f.parse buf len =
      ⟨(f.outcome buf (leftOf len 0)).ret, (f.stored buf (leftOf len 0)).1,
        (f.stored buf (leftOf len 0)).2,
        [0, 1] ++
          List.range' 2 ((f.outcome buf (leftOf len 0)).reach f.pre (f.count buf))⟩ := by
  have filled : len ≠ 0 := by
    rintro rfl
    have zero : (0 : UInt16).toNat = 0 := rfl
    omega
  have left : (UInt8.ofNat (len.toNat - 2)).toNat = leftOf len 0 := by
    rw [UInt8.toNat_ofNat', leftOf]
    rfl
  unfold ieSize at complete
  simp only [SuiteFormat.parse, filled, eid, not_lt.mpr complete, if_false, ne_eq,
    not_true_eq_false, SuiteFormat.parseData_spec, left, Parsed.behind]

theorem leftOf_own (n : Nat) (byte : n < 256) : leftOf (UInt16.ofNat (2 + n)) 0 = n := by
  rw [leftOf, UInt16.toNat_ofNat']
  omega

theorem mem_reads {o n : Nat} : o ∈ [0, 1] ++ List.range' 2 n ↔ o < 2 + n := by
  simp only [List.mem_append, List.mem_cons, List.not_mem_nil, or_false,
    List.mem_range'_1]
  omega

/-- How far an element is read that is given with its own length. -/
theorem own_reads_iff (eid : buf 0 = f.eid) {pie len : Nat} :
    (∀ o ∈ (f.parse buf (UInt16.ofNat (2 + ieSize buf 0))).reads, pie + o + 1 ≤ len) ↔
      pie + 2 + (f.outcome buf (ieSize buf 0)).reach f.pre (f.count buf) ≤ len := by
  have byte := ieSize_lt buf 0
  have left : (UInt8.ofNat (ieSize buf 0)).toNat = ieSize buf 0 := by
    rw [UInt8.toNat_ofNat']
    omega
  simp only [parse_own f eid, f.parseData_spec, left, Parsed.behind, mem_reads]
  constructor
  · intro reads
    have last := reads (1 + (f.outcome buf (ieSize buf 0)).reach f.pre (f.count buf)) (by omega)
    omega
  · intro fits o read
    omega

theorem OfElement.parsable (element : OfElement f.parse buf len) : Parsable f buf len := by
  have byte := ieSize_lt buf 0
  have own : (UInt16.ofNat (2 + ieSize buf 0)).toNat = 2 + ieSize buf 0 := by
    rw [UInt16.toNat_ofNat']
    omega
  constructor
  · rintro rfl eid
    have short : (1 : UInt16).toNat < 2 + ieSize buf 0 := by
      have one : (1 : UInt16).toNat = 1 := rfl
      omega
    have outside : ¬ CompleteAt 2 (ieSize buf) (1 : UInt16).toNat 0 := by
      unfold CompleteAt
      omega
    have read := element.inside
    rw [parse_incomplete (by decide) eid short, extent, if_neg outside] at read
    exact absurd (read 1 (by simp)) (by decide)
  · intro complete eid
    have inside : 2 + ieSize buf 0 ≤ len.toNat := by
      unfold CompleteAt at complete
      omega
    have read := element.inside
    obtain ⟨ret, group, pairwise⟩ := element.alone complete buf fun _ _ => rfl
    rw [parse_complete inside eid] at ret group pairwise read
    rw [parse_complete own.ge eid, leftOf_own _ byte] at ret group pairwise
    rw [extent, if_pos complete] at read
    refine ⟨(same_iff _ _).mpr ⟨ret, Prod.ext group pairwise⟩, ?_⟩
    by_contra far
    have last := read (1 + (f.outcome buf (leftOf len 0)).reach f.pre (f.count buf))
      (mem_reads.mpr (by omega))
    omega

theorem ofElement_empty : OfElement f.parse buf 0 := by
  constructor
  · simp [SuiteFormat.parse]
  · intro complete
    unfold CompleteAt at complete
    have zero : (0 : UInt16).toNat = 0 := rfl
    omega

/-- An element of another kind is not looked into. -/
theorem ofElement_other (some : 0 < len.toNat) (eid : buf 0 ≠ f.eid) :
    OfElement f.parse buf len := by
  constructor
  · rw [parse_other (by omega) eid]
    intro o member
    rw [List.mem_singleton.mp member, extent]
    split_ifs <;> omega
  · intro _ other agree
    have header : other 0 ≠ f.eid := by
      rw [agree 0 (by omega)]
      exact eid
    rw [parse_other (by omega) eid, parse_other (by
      rw [UInt16.toNat_ofNat']
      have byte := ieSize_lt buf 0
      omega) header]
    exact ⟨rfl, rfl, rfl⟩

theorem ofElement_incomplete (two : 2 ≤ len.toNat) (eid : buf 0 = f.eid)
    (outside : ¬ CompleteAt 2 (ieSize buf) len.toNat 0) : OfElement f.parse buf len := by
  have short : len.toNat < 2 + ieSize buf 0 := by
    unfold CompleteAt at outside
    omega
  constructor
  · rw [parse_incomplete (by omega) eid short, extent, if_neg outside]
    intro o member
    simp only [List.mem_cons, List.not_mem_nil, or_false] at member
    omega
  · exact fun whole => absurd whole outside

theorem ofElement_complete (eid : buf 0 = f.eid)
    (complete : CompleteAt 2 (ieSize buf) len.toNat 0)
    (same : (f.outcome buf (leftOf len 0)).Same (f.outcome buf (ieSize buf 0)))
    (reach : (f.outcome buf (leftOf len 0)).reach f.pre (f.count buf) ≤ ieSize buf 0) :
    OfElement f.parse buf len := by
  have byte := ieSize_lt buf 0
  have own : (UInt16.ofNat (2 + ieSize buf 0)).toNat = 2 + ieSize buf 0 := by
    rw [UInt16.toNat_ofNat']
    omega
  have inside : 2 + ieSize buf 0 ≤ len.toNat := by
    unfold CompleteAt at complete
    omega
  obtain ⟨ret, stores⟩ := (same_iff _ _).mp same
  constructor
  · intro o member
    rw [parse_complete inside eid] at member
    rw [extent, if_pos complete]
    have near := mem_reads.mp member
    omega
  · intro _ other agree
    have header : other 0 = f.eid := (agree 0 (by omega)).trans eid
    have size : ieSize other 0 = ieSize buf 0 := by
      unfold ieSize
      rw [agree 1 (by omega)]
    rw [parse_complete inside eid, parse_complete (by omega) header,
      leftOf_own _ byte, outcome_eq agree, stored_eq agree]
    exact ⟨ret, congrArg Prod.fst stores, congrArg Prod.snd stores⟩

theorem ofElement_iff : OfElement f.parse buf len ↔ Parsable f buf len := by
  constructor
  · exact OfElement.parsable
  · intro parsable
    by_cases empty : len = 0
    · rw [empty]
      exact ofElement_empty
    have some : 0 < len.toNat := by
      by_contra none
      exact empty (UInt16.toNat_inj.mp (Nat.eq_zero_of_not_pos none))
    by_cases eid : buf 0 = f.eid
    · by_cases complete : CompleteAt 2 (ieSize buf) len.toNat 0
      · obtain ⟨same, reach⟩ := parsable.data complete eid
        exact ofElement_complete eid complete same reach
      · have two : len.toNat ≠ 1 := by
          intro one
          exact parsable.header (UInt16.toNat_inj.mp one) eid
        exact ofElement_incomplete (by omega) eid complete
    · exact ofElement_other some eid

end Element

/-! ## The surveys of a list -/

namespace SuiteFormat

/-- The element is one of this format, its version is supported and its data ends behind
a field. -/
def valid (f : SuiteFormat) (data : Mem) (pie : Nat) : Bool :=
  data pie == f.eid && (f.outcome (fromIe data pie) (ieSize data pie)).ret == 0

/-- The first valid element of the list. -/
def firstValid (f : SuiteFormat) (data : Mem) (dataLen : UInt16) : Option Nat :=
  (records 2 (ieSize data) dataLen.toNat 0).find? (f.valid data)

end SuiteFormat

/-- The survey ends with this element and with its ciphers. -/
def Surveys (survey : Mem → UInt16 → Nat → Option SurveyEnd) (f : SuiteFormat)
    (data : Mem) (dataLen : UInt16) (p : Nat) : Prop :=
  ∃ fuel found, survey data dataLen fuel = some found ∧
    found.ret = 0 ∧ found.ie.map Prod.fst = some p ∧
    (found.group, found.pairwise) = f.stored (fromIe data p) (ieSize data p)

/-- The outcome of an element with the length that the parser takes. -/
def taken (f : SuiteFormat) (data : Mem) (dataLen : UInt16) (pie : Nat) : Outcome :=
  f.outcome (fromIe data pie) (leftOf dataLen pie)

/-- The group cipher that is stored when the parser has been at this element. -/
def groupBehind (f : SuiteFormat) (data : Mem) (dataLen : UInt16) (old : Option UInt32)
    (pie : Nat) : Option UInt32 :=
  if data pie = f.eid ∧ (taken f data dataLen pie).hasGroup = true then
    some (f.groupAt (fromIe data pie))
  else old

/-- The parser does not take an element before the valid one for a valid one, it takes the
valid one for what it is, and the group cipher that is stored last is that of the valid
one. -/
structure SurveyFit (f : SuiteFormat) (data : Mem) (dataLen : UInt16) (p : Nat) : Prop where
  before : ∀ o ∈ records 2 (ieSize data) dataLen.toNat 0, o < p → data o = f.eid →
    (taken f data dataLen o).ret ≠ 0
  here : (taken f data dataLen p).ret = 0
  pairwise : taken f data dataLen p = .whole ↔
    f.outcome (fromIe data p) (ieSize data p) = .whole
  group : ((records 2 (ieSize data) dataLen.toNat 0).filter (· ≤ p)).foldl
      (groupBehind f data dataLen) none =
    (f.stored (fromIe data p) (ieSize data p)).1

section Survey

variable {f : SuiteFormat} {data : Mem} {dataLen : UInt16} {p : Nat}

/-- The pairwise set that is stored when the parser has been at this element. -/
def pairwiseBehind (f : SuiteFormat) (data : Mem) (dataLen : UInt16) (old : Option UInt32)
    (pie : Nat) : Option UInt32 :=
  if data pie = f.eid ∧ taken f data dataLen pie = .whole then
    some (f.pairwiseAt (fromIe data pie))
  else old

/-- The parser at a complete element of the list. -/
theorem parse_record {o : Nat} {ieLen : UInt16} (group pairwise : Option UInt32)
    (complete : CompleteAt 2 (ieSize data) dataLen.toNat o)
    (left : ieLen.toNat = dataLen.toNat - o) :
    (f.parse (fromIe data o) ieLen).ret =
        (if data o = f.eid then (taken f data dataLen o).ret else -2) ∧
      (f.parse (fromIe data o) ieLen).over group pairwise =
        (groupBehind f data dataLen group o, pairwiseBehind f data dataLen pairwise o) := by
  have size : ieSize (fromIe data o) 0 = ieSize data o := rfl
  have header : fromIe data o 0 = data o := rfl
  have same : leftOf ieLen 0 = leftOf dataLen o := by
    rw [leftOf, left]
    rfl
  unfold CompleteAt at complete
  by_cases eid : data o = f.eid
  · rw [parse_complete (by omega) (header.trans eid), same]
    simp only [Parsed.over, SuiteFormat.stored, groupBehind, pairwiseBehind, taken, eid,
      true_and, if_true]
    split_ifs <;> simp
  · rw [parse_other (by omega) (header ▸ eid)]
    simp [Parsed.over, groupBehind, pairwiseBehind, eid]

theorem surveyLoop_hit {fuel pie : Nat} {ieLen : UInt16} {old : Option UInt32 × Option UInt32}
    (success : (f.parse (fromIe data pie) ieLen).ret = 0) :
    surveyLoop f data (fuel + 1) pie ieLen old =
      some ⟨0, ((f.parse (fromIe data pie) ieLen).over old.1 old.2).1,
        ((f.parse (fromIe data pie) ieLen).over old.1 old.2).2, some (pie, ieLen)⟩ := by
  unfold fromIe at success ⊢
  simp only [surveyLoop, success, if_true]

theorem surveyLoop_on {fuel pie : Nat} {ieLen : UInt16} {old : Option UInt32 × Option UInt32}
    (failure : (f.parse (fromIe data pie) ieLen).ret ≠ 0)
    (more : ¬ ieLen - (2 + UInt16.ofNat (ieSize data pie)) ≤ 2) :
    surveyLoop f data (fuel + 1) pie ieLen old =
      surveyLoop f data fuel (pie + (2 + ieSize data pie))
        (ieLen - (2 + UInt16.ofNat (ieSize data pie)))
        ((f.parse (fromIe data pie) ieLen).over old.1 old.2) := by
  unfold fromIe at failure ⊢
  unfold ieSize at more ⊢
  simp only [surveyLoop, failure, more, if_false]

theorem surveyLoop_ie {fuel pie q : Nat} {ieLen : UInt16}
    {old : Option UInt32 × Option UInt32} {found : SurveyEnd}
    (ended : surveyLoop f data fuel pie ieLen old = some found)
    (ie : found.ie.map Prod.fst = some q) : pie ≤ q := by
  induction fuel generalizing pie ieLen old with
  | zero => cases ended
  | succ fuel ih =>
      simp only [surveyLoop] at ended
      split_ifs at ended
      · cases ended
        cases ie
        exact Nat.le_refl _
      · cases ended
        cases ie
      · have behind := ih ended
        omega

theorem valid_room {o : Nat} (valid : f.valid data o = true)
    (complete : CompleteAt 2 (ieSize data) dataLen.toNat o) :
    data o = f.eid ∧ o + 4 ≤ dataLen.toNat := by
  simp only [SuiteFormat.valid, Bool.and_eq_true, beq_iff_eq] at valid
  refine ⟨valid.1, ?_⟩
  have reach := @f.outcome_reach_le (fromIe data o) (ieSize data o)
  have two : 2 ≤ (f.outcome (fromIe data o) (ieSize data o)).reach f.pre
      (f.count (fromIe data o)) := by
    have success := valid.2
    cases ends : f.outcome (fromIe data o) (ieSize data o) <;>
      simp_all [Outcome.ret, Outcome.reach]
    omega
  unfold CompleteAt at complete
  omega

/-- What remains behind an element, and that the loop goes on where a valid one follows. -/
theorem ieLen_behind {o : Nat} {ieLen : UInt16} (left : ieLen.toNat = dataLen.toNat - o)
    (room : o + (2 + ieSize data o) + 4 ≤ dataLen.toNat) :
    (ieLen - (2 + UInt16.ofNat (ieSize data o))).toNat =
        dataLen.toNat - (o + (2 + ieSize data o)) ∧
      ¬ ieLen - (2 + UInt16.ofNat (ieSize data o)) ≤ 2 := by
  have byte : ieSize data o < 256 := (data (o + 1)).toNat_lt
  have two : (2 : UInt16).toNat = 2 := rfl
  have size : (2 + UInt16.ofNat (ieSize data o)).toNat = 2 + ieSize data o := by
    rw [UInt16.toNat_add, UInt16.toNat_ofNat', two]
    omega
  have behind : (ieLen - (2 + UInt16.ofNat (ieSize data o))).toNat =
      dataLen.toNat - (o + (2 + ieSize data o)) := by
    rw [UInt16.toNat_sub_of_le, size, left]
    · omega
    · rw [UInt16.le_iff_toNat_le, size, left]
      omega
  refine ⟨behind, ?_⟩
  rw [UInt16.le_iff_toNat_le, behind, two]
  omega

theorem records_up_to {o : Nat} (inside : CompleteAt 2 (ieSize data) dataLen.toNat o) :
    (records 2 (ieSize data) dataLen.toNat o).filter (· ≤ o) = [o] := by
  rw [records_of_complete (by omega) inside, List.filter_cons_of_pos (by simp),
    List.filter_eq_nil_iff.mpr]
  intro r member
  have behind := (mem_records (by omega) member).1
  simp
  omega

/-- From here the survey comes to an end at `p` with these ciphers. -/
def SurveyEndsAt (f : SuiteFormat) (data : Mem) (pie : Nat) (ieLen : UInt16)
    (old : Option UInt32 × Option UInt32) (p : Nat) (stored : Option UInt32 × Option UInt32) :
    Prop :=
  ∃ fuel found, surveyLoop f data fuel pie ieLen old = some found ∧
    found.ret = 0 ∧ found.ie.map Prod.fst = some p ∧ (found.group, found.pairwise) = stored

/-- It ends here when the parser takes the element. -/
theorem surveyEndsAt_here {pie : Nat} {ieLen : UInt16}
    {old stored : Option UInt32 × Option UInt32} :
    SurveyEndsAt f data pie ieLen old pie stored ↔
      (f.parse (fromIe data pie) ieLen).ret = 0 ∧
        (f.parse (fromIe data pie) ieLen).over old.1 old.2 = stored := by
  constructor
  · rintro ⟨fuel, found, ends, -, ie, same⟩
    cases fuel with
    | zero => cases ends
    | succ fuel =>
        by_cases zero : (f.parse (fromIe data pie) ieLen).ret = 0
        · rw [surveyLoop_hit zero] at ends
          cases ends
          exact ⟨zero, same⟩
        · simp only [surveyLoop] at ends
          unfold fromIe at zero
          rw [if_neg zero] at ends
          split_ifs at ends
          · cases ends
            cases ie
          · have behind := surveyLoop_ie ends ie
            omega
  · rintro ⟨success, same⟩
    exact ⟨1, _, surveyLoop_hit success, rfl, rfl, same⟩

/-- It ends later when the parser does not take the element. -/
theorem surveyEndsAt_later {pie : Nat} {ieLen : UInt16}
    {old stored : Option UInt32 × Option UInt32} (later : pie ≠ p)
    (more : ¬ ieLen - (2 + UInt16.ofNat (ieSize data pie)) ≤ 2) :
    SurveyEndsAt f data pie ieLen old p stored ↔
      (f.parse (fromIe data pie) ieLen).ret ≠ 0 ∧
        SurveyEndsAt f data (pie + (2 + ieSize data pie))
          (ieLen - (2 + UInt16.ofNat (ieSize data pie)))
          ((f.parse (fromIe data pie) ieLen).over old.1 old.2) p stored := by
  constructor
  · rintro ⟨fuel, found, ends, success, ie, same⟩
    cases fuel with
    | zero => cases ends
    | succ fuel =>
        by_cases zero : (f.parse (fromIe data pie) ieLen).ret = 0
        · rw [surveyLoop_hit zero] at ends
          cases ends
          cases ie
          contradiction
        · rw [surveyLoop_on zero more] at ends
          exact ⟨zero, fuel, found, ends, success, ie, same⟩
  · rintro ⟨failure, fuel, found, ends, tail⟩
    exact ⟨fuel + 1, found, (surveyLoop_on failure more).trans ends, tail⟩

/-- The survey ends at the first valid element exactly when no other is taken for one and
this one is. -/
theorem surveyLoop_first_iff {o : Nat} {ieLen : UInt16} {group : Option UInt32}
    {stored : Option UInt32 × Option UInt32}
    (left : ieLen.toNat = dataLen.toNat - o)
    (first : (records 2 (ieSize data) dataLen.toNat o).find? (f.valid data) = some p) :
    SurveyEndsAt f data o ieLen (group, none) p stored ↔
    (∀ r ∈ records 2 (ieSize data) dataLen.toNat o, r < p → data r = f.eid →
      (taken f data dataLen r).ret ≠ 0) ∧
    (taken f data dataLen p).ret = 0 ∧
    (((records 2 (ieSize data) dataLen.toNat o).filter (· ≤ p)).foldl
      (groupBehind f data dataLen) group, pairwiseBehind f data dataLen none p) = stored := by
  induction o using records_induction (ieSize data) dataLen.toNat
    (show 0 < 2 by omega) generalizing ieLen group with
  | outside o outside =>
      rw [records_of_incomplete outside] at first
      cases first
  | inside o inside ih =>
      obtain ⟨ret, stores⟩ := parse_record (f := f) group none inside left
      cases want : f.valid data o with
      | true =>
          rw [records_of_complete (by omega) inside, List.find?_cons_of_pos want] at first
          cases first
          obtain ⟨eid, -⟩ := valid_room want inside
          rw [if_pos eid] at ret
          rw [surveyEndsAt_here, ret, stores, records_up_to inside, List.foldl_cons,
            List.foldl_nil]
          constructor
          · intro ends
            refine ⟨?_, ends⟩
            intro r member before
            have behind := (mem_records (by omega) member).1
            omega
          · intro ends
            exact ends.2
      | false =>
          rw [records_of_complete (by omega) inside] at first ⊢
          rw [List.find?_cons_of_neg (by simp [want])] at first
          obtain ⟨behind, complete⟩ := mem_records (by omega) (List.mem_of_find?_eq_some first)
          obtain ⟨-, room⟩ := valid_room (List.find?_some first) complete
          obtain ⟨next, more⟩ := @ieLen_behind data dataLen o ieLen left (by omega)
          have rest := @ih _ (groupBehind f data dataLen group o) next first
          rw [surveyEndsAt_later (by omega) more, stores, ret,
            List.filter_cons_of_pos (by simp; omega), List.foldl_cons, List.forall_mem_cons]
          have none_yet (failure : (if data o = f.eid then (taken f data dataLen o).ret
              else -2) ≠ 0) : pairwiseBehind f data dataLen none o = none := by
            rw [pairwiseBehind, if_neg]
            rintro ⟨eid, whole⟩
            rw [if_pos eid, whole] at failure
            exact failure rfl
          constructor
          · rintro ⟨failure, ends⟩
            rw [none_yet failure] at ends
            obtain ⟨before, here⟩ := rest.mp ends
            exact ⟨⟨fun _ eid => by simpa [eid] using failure, before⟩, here⟩
          · rintro ⟨⟨clear, before⟩, here⟩
            have failure : (if data o = f.eid then (taken f data dataLen o).ret else -2) ≠ 0 := by
              split_ifs with eid
              · exact clear (by omega) eid
              · decide
            rw [none_yet failure]
            exact ⟨failure, rest.mpr ⟨before, here⟩⟩

theorem surveys_iff (first : f.firstValid data dataLen = some p) :
    Surveys (fun data dataLen fuel => surveyLoop f data fuel 0 dataLen (none, none)) f data
      dataLen p ↔ SurveyFit f data dataLen p := by
  have valid := List.find?_some first
  obtain ⟨-, complete⟩ := mem_records (by omega) (List.mem_of_find?_eq_some first)
  obtain ⟨eid, -⟩ := valid_room valid complete
  have pairwise : pairwiseBehind f data dataLen none p =
        (f.stored (fromIe data p) (ieSize data p)).2 ↔
      (taken f data dataLen p = .whole ↔
        f.outcome (fromIe data p) (ieSize data p) = .whole) := by
    simp only [pairwiseBehind, eid, true_and, SuiteFormat.stored]
    split_ifs <;> simp_all
  rw [Surveys, ← SurveyEndsAt, surveyLoop_first_iff (Nat.sub_zero _).symm first, ← Prod.eta (f.stored _ _),
    Prod.mk.injEq, pairwise]
  constructor
  · rintro ⟨before, here, group, whole⟩
    exact ⟨before, here, whole, group⟩
  · intro fit
    exact ⟨fit.before, fit.here, fit.group, fit.pairwise⟩

end Survey

/-- A parser is right, and a survey with a valid element in its list, exactly when the
lengths that are counted with 8 bits lead to the same fields. -/
theorem suites_iff (buf : Mem) (len : UInt16) :
    (OfElement wf80211MgmtRsnParseAt buf len ↔ Parsable rsnFormat buf len) ∧
      (OfElement wf80211MgmtWpaParseAt buf len ↔ Parsable wpaFormat buf len) ∧
      (∀ p, rsnFormat.firstValid buf len = some p →
        (Surveys wf80211MgmtRsnSurvey rsnFormat buf len p ↔ SurveyFit rsnFormat buf len p)) ∧
      ∀ p, wpaFormat.firstValid buf len = some p →
        (Surveys wf80211MgmtWpaSurvey wpaFormat buf len p ↔ SurveyFit wpaFormat buf len p) :=
  ⟨ofElement_iff, ofElement_iff, fun _ first => surveys_iff first,
    fun _ first => surveys_iff first⟩

/-- A caller that gives the length of the element itself is on the safe side. -/
theorem parsable_own {f : SuiteFormat} {buf : Mem} :
    Parsable f buf (UInt16.ofNat (2 + ieSize buf 0)) := by
  have byte := ieSize_lt buf 0
  constructor
  · intro one
    have size := congrArg UInt16.toNat one
    rw [UInt16.toNat_ofNat', show (1 : UInt16).toNat = 1 from rfl] at size
    omega
  · intro _ _
    rw [leftOf_own _ byte]
    exact ⟨(same_iff _ _).mpr ⟨rfl, rfl⟩, f.outcome_reach_le _⟩

/-- An RSN element with nothing but the version, and an SSID of one byte behind it. -/
def bareThenSsid : Mem := Mem.write (fun _ => 0) 0 [0x30, 2, 1, 0, 0, 1, 0x41]

theorem suites_iff_ssid :
    Surveys wf80211MgmtRsnSurvey rsnFormat bareThenSsid 7 0 ↔
      SurveyFit rsnFormat bareThenSsid 7 0 := by
  have complete : CompleteAt 2 (ieSize bareThenSsid) (7 : UInt16).toNat 0 := by
    decide +kernel
  have first : rsnFormat.firstValid bareThenSsid 7 = some 0 := by
    rw [SuiteFormat.firstValid, records_of_complete (by omega) complete,
      List.find?_cons_of_pos (by decide +kernel)]
  exact (suites_iff bareThenSsid 7).2.2.1 0 first

theorem bare_not_alone :
    ¬ ∀ (buf : Mem) (len : UInt16),
      OfElement wf80211MgmtRsnParseAt buf len ∧ OfElement wf80211MgmtWpaParseAt buf len ∧
        (∀ p, rsnFormat.firstValid buf len = some p →
          Surveys wf80211MgmtRsnSurvey rsnFormat buf len p) ∧
        ∀ p, wpaFormat.firstValid buf len = some p →
          Surveys wf80211MgmtWpaSurvey wpaFormat buf len p := by
  intro claimed
  have element : OfElement rsnFormat.parse bareThenSsid 7 := (claimed bareThenSsid 7).1
  have same := ((ofElement_iff.mp element).data (by decide +kernel) (by decide +kernel)).1
  revert same
  decide +kernel

end Smartchip.Ap
