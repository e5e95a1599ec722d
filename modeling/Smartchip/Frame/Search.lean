import Smartchip.Foundation.Records
import Smartchip.Frame.Elements

/-!
# Searching for an element

The three searches of `nic/wf_80211.c` against the first complete element of the
bytes.  The searches look at a header before they ask whether it is still inside, and
two of them count with 16 bits.
-/

namespace Smartchip.Frame

open Smartchip.Foundation

/-! ## The searches -/

/-- What a search compares at an offset and the bytes that it reads for it, which reach at
most `reach` far.  An element is wanted when the comparison is right and it has the bytes
that are compared. -/
structure IeTest where
  hit : Mem → Nat → Bool
  looks : Mem → Nat → List Nat
  wanted : Mem → Nat → Bool
  reach : Nat
  hit_of_wanted : ∀ buf o, wanted buf o = true → hit buf o = true
  looks_lt : ∀ buf o r, r ∈ looks buf o → r < o + reach
  room : ∀ buf o, wanted buf o = true → reach ≤ 2 + (buf (o + 1)).toNat

def byId (cmpId : UInt8) : IeTest where
  hit := fun buf o => buf o == cmpId
  looks := fun _ o => [o]
  wanted := fun buf o => buf o == cmpId
  reach := 1
  hit_of_wanted := fun _ _ wanted => wanted
  looks_lt := by simp
  room := by
    intro buf o _
    omega

@[simp] theorem byId_hit (cmpId : UInt8) (buf : Mem) (o : Nat) :
    (byId cmpId).hit buf o = (buf o == cmpId) := rfl

/-- `wf_memcmp` of four bytes at `pie->data`; the element is wanted when it has them. -/
def byOui (cmpId : UInt8) (oui : Vector UInt8 4) : IeTest where
  hit := fun buf o => buf o == cmpId && buf.read (o + 2) 4 == oui.toList
  looks := fun buf o =>
    o :: if buf o = cmpId then [o + 2, o + 3, o + 4, o + 5] else []
  wanted := fun buf o => buf o == cmpId && decide (4 ≤ (buf (o + 1)).toNat) &&
    buf.read (o + 2) 4 == oui.toList
  reach := 6
  hit_of_wanted := by
    intro buf o wanted
    grind
  looks_lt := by
    intro buf o r member
    split_ifs at member <;> simp at member <;> omega
  room := by
    intro buf o wanted
    grind

/-- The element that is found, and every byte that was read. -/
structure SearchEnd where
  result : Option Nat
  reads : List Nat

def SearchEnd.behind (reads : List Nat) (found : SearchEnd) : SearchEnd :=
  { found with reads := reads ++ found.reads }

/-- The loop of `wf_80211_mgmt_ies_search` and `wf_80211_mgmt_ies_search_with_oui`; `none`
when it has not ended. -/
def iesLoop (test : IeTest) (buf : Mem) (varLen : UInt16) :
    Nat → UInt16 → Option SearchEnd
  | 0, _ => none
  | fuel + 1, offset =>
      let pie := offset.toNat
      if test.hit buf pie then some ⟨some pie, test.looks buf pie⟩
      else
        let reads := test.looks buf pie ++ [pie + 1]
        let offset := offset + (2 + (buf (pie + 1)).toUInt16)
        if varLen ≤ offset then some ⟨none, reads⟩
        else (iesLoop test buf varLen fuel offset).map (SearchEnd.behind reads)

/-- The loop of `wf_wlan_get_ie`. -/
def getIeLoop (pbuf : Mem) (index limit : Int) : Nat → Nat → Option (Option Nat)
  | 0, _ => none
  | fuel + 1, i =>
      if ((pbuf i).toNat : Int) = index then some (some i)
      else
        let i := i + ((pbuf (i + 1)).toNat + 2)
        if limit ≤ i then some none else getIeLoop pbuf index limit fuel i

def wfWlanGetIe (pbuf : Mem) (index limit : Int) (fuel : Nat) : Option (Option Nat) :=
  if limit < 1 then some none else getIeLoop pbuf index limit fuel 0

/-- The search of the other modules is this loop without its reads. -/
theorem wf80211MgmtIesSearch_eq (mem : Mem) (pstart : Nat) (varLen offset : UInt16)
    (cmpId : UInt8) (fuel : Nat) :
    wf80211MgmtIesSearch mem pstart varLen cmpId fuel offset =
      (iesLoop (byId cmpId) (fun i => mem (pstart + i)) varLen fuel offset).map
        fun found => found.result.map (pstart + ·) := by
  induction fuel generalizing offset with
  | zero => rfl
  | succ fuel ih =>
      simp only [wf80211MgmtIesSearch, iesLoop, byId_hit, beq_iff_eq, Nat.add_assoc, ih]
      split_ifs
      · rfl
      · rfl
      · rw [Option.map_map]
        rfl

/-! ## What a search is for -/

/-- The length that the header of an element tells. -/
def ieSize (buf : Mem) (offset : Nat) : Nat := (buf (offset + 1)).toNat

theorem ieSize_lt (buf : Mem) (offset : Nat) : ieSize buf offset < 256 :=
  (buf (offset + 1)).toNat_lt

/-- The first element of the longest well-formed beginning that is wanted. -/
def firstWanted (test : IeTest) (buf : Mem) (varLen : Nat) : Option Nat :=
  (records 2 (ieSize buf) varLen 0).find? (test.wanted buf)

/-- The search ends, reads only inside and finds the first wanted element. -/
def Searches (test : IeTest) (buf : Mem) (varLen : UInt16) : Prop :=
  ∃ fuel found, iesLoop test buf varLen fuel 0 = some found ∧
    (∀ o ∈ found.reads, o < varLen.toNat) ∧
    found.result = firstWanted test buf varLen.toNat

/-- `wf_wlan_get_ie` and the search end with the same element. -/
def Agrees (buf : Mem) (varLen : UInt16) (cmpId : UInt8) : Prop :=
  ∃ fuel found, iesLoop (byId cmpId) buf varLen fuel 0 = some found ∧
    ∃ fuel, wfWlanGetIe buf cmpId.toNat varLen.toNat fuel = some found.result

/-! ## When the searches do it -/

/-- Nothing is found at this offset, and its header and what is compared are inside. -/
structure ClearAt (test : IeTest) (buf : Mem) (varLen : UInt16) (offset : Nat) : Prop where
  miss : test.hit buf offset = false
  looks : ∀ o ∈ test.looks buf offset, o < varLen.toNat
  header : offset + 1 < varLen.toNat

def nextOffset (buf : Mem) (offset : UInt16) : UInt16 :=
  offset + (2 + (buf (offset.toNat + 1)).toUInt16)

/-- The headers that follow each other with 16-bit offsets are inside and nothing is found
at any of them, up to one that leads out of the buffer. -/
inductive Passes (test : IeTest) (buf : Mem) (varLen : UInt16) : UInt16 → Prop
  | last {offset : UInt16} (clear : ClearAt test buf varLen offset.toNat)
      (out : varLen ≤ nextOffset buf offset) : Passes test buf varLen offset
  | step {offset : UInt16} (clear : ClearAt test buf varLen offset.toNat)
      (still : nextOffset buf offset < varLen)
      (rest : Passes test buf varLen (nextOffset buf offset)) :
      Passes test buf varLen offset

/-- There is a wanted element and nothing is found before it, or there is none and the
offsets pass the buffer. -/
def Searchable (test : IeTest) (buf : Mem) (varLen : UInt16) : Prop :=
  (∃ p, firstWanted test buf varLen.toNat = some p ∧
    ∀ o ∈ records 2 (ieSize buf) varLen.toNat 0, o < p → test.hit buf o = false) ∨
  Passes test buf varLen 0

section Loop

variable {test : IeTest} {buf : Mem} {varLen : UInt16}

theorem iesLoop_hit {offset : UInt16} (hit : test.hit buf offset.toNat = true)
    (fuel : Nat) :
    iesLoop test buf varLen (fuel + 1) offset =
      some ⟨some offset.toNat, test.looks buf offset.toNat⟩ := by
  simp [iesLoop, hit]

theorem iesLoop_out {offset : UInt16} (miss : test.hit buf offset.toNat = false)
    (out : varLen ≤ nextOffset buf offset) (fuel : Nat) :
    iesLoop test buf varLen (fuel + 1) offset =
      some ⟨none, test.looks buf offset.toNat ++ [offset.toNat + 1]⟩ := by
  unfold nextOffset at out
  simp [iesLoop, miss, out]

theorem iesLoop_on {offset : UInt16} (miss : test.hit buf offset.toNat = false)
    (still : ¬ varLen ≤ nextOffset buf offset) (fuel : Nat) :
    iesLoop test buf varLen (fuel + 1) offset =
      (iesLoop test buf varLen fuel (nextOffset buf offset)).map
        (SearchEnd.behind (test.looks buf offset.toNat ++ [offset.toNat + 1])) := by
  unfold nextOffset at still ⊢
  simp [iesLoop, miss, still]

theorem Passes.ends {offset : UInt16} (passes : Passes test buf varLen offset) :
    ∃ fuel found, iesLoop test buf varLen fuel offset = some found ∧
      (∀ o ∈ found.reads, o < varLen.toNat) ∧ found.result = none := by
  induction passes with
  | @last offset clear out =>
      refine ⟨1, _, iesLoop_out clear.miss out 0, ?_, rfl⟩
      intro o member
      rcases List.mem_append.mp member with look | header
      · exact clear.looks o look
      · rw [List.mem_singleton.mp header]
        exact clear.header
  | @step offset clear still rest ih =>
      obtain ⟨fuel, found, ends, inside, none⟩ := ih
      refine ⟨fuel + 1, found.behind (test.looks buf offset.toNat ++ [offset.toNat + 1]),
        ?_, ?_, none⟩
      · rw [iesLoop_on clear.miss (UInt16.not_le.mpr still), ends]
        rfl
      · intro o member
        rcases List.mem_append.mp member with here | behind
        · rcases List.mem_append.mp here with look | header
          · exact clear.looks o look
          · rw [List.mem_singleton.mp header]
            exact clear.header
        · exact inside o behind

theorem passes_of_ends {offset : UInt16} {fuel : Nat} {found : SearchEnd}
    (ends : iesLoop test buf varLen fuel offset = some found)
    (inside : ∀ o ∈ found.reads, o < varLen.toNat) (none : found.result = none) :
    Passes test buf varLen offset := by
  induction fuel generalizing offset found with
  | zero => cases ends
  | succ fuel ih =>
      cases hit : test.hit buf offset.toNat with
      | true =>
          rw [iesLoop_hit hit] at ends
          cases ends
          cases none
      | false =>
          by_cases out : varLen ≤ nextOffset buf offset
          · rw [iesLoop_out hit out] at ends
            cases ends
            refine .last ⟨hit, ?_, ?_⟩ out
            · intro o member
              exact inside o (List.mem_append_left _ member)
            · exact inside _ (by simp)
          · rw [iesLoop_on hit out, Option.map_eq_some_iff] at ends
            obtain ⟨rest, ends, rfl⟩ := ends
            refine .step ⟨hit, ?_, ?_⟩ (UInt16.not_le.mp out) (ih ends ?_ none)
            · intro o member
              exact inside o (List.mem_append_left _ (List.mem_append_left _ member))
            · exact inside _ (by simp [SearchEnd.behind])
            · intro o member
              exact inside o (List.mem_append_right _ member)

/-! The elements and the offsets of the loop are the same as long as they are complete. -/

theorem nextOffset_mod (buf : Mem) (offset : UInt16) :
    (nextOffset buf offset).toNat =
      (offset.toNat + (2 + ieSize buf offset.toNat)) % 65536 :=
  ieStep_mod offset (buf (offset.toNat + 1))

theorem nextOffset_toNat {offset : UInt16}
    (inside : CompleteAt 2 (ieSize buf) varLen.toNat offset.toNat) :
    (nextOffset buf offset).toNat = offset.toNat + (2 + ieSize buf offset.toNat) := by
  have bound := varLen.toNat_lt
  unfold CompleteAt at inside
  rw [nextOffset_mod]
  omega

/-- An element that is found with nothing found before it is where the loop ends. -/
theorem ends_of_first {p : Nat} (offset : UInt16)
    (first : (records 2 (ieSize buf) varLen.toNat offset.toNat).find? (test.wanted buf) =
      some p)
    (clear : ∀ o ∈ records 2 (ieSize buf) varLen.toNat offset.toNat, o < p →
      test.hit buf o = false) :
    ∃ fuel found, iesLoop test buf varLen fuel offset = some found ∧
      (∀ o ∈ found.reads, o < varLen.toNat) ∧ found.result = some p := by
  have wanted := List.find?_some first
  have room := test.room buf p wanted
  obtain ⟨-, complete⟩ := mem_records (by omega) (List.mem_of_find?_eq_some first)
  have reach : p + test.reach ≤ varLen.toNat := by
    unfold CompleteAt ieSize at complete
    omega
  induction here : offset.toNat using records_induction (ieSize buf) varLen.toNat
    (show 0 < 2 by omega) generalizing offset with
  | outside o outside =>
      rw [here, records_of_incomplete outside] at first
      cases first
  | inside o inside ih =>
      rw [here, records_of_complete (by omega) inside] at first clear
      cases want : test.wanted buf o with
      | true =>
          rw [List.find?_cons_of_pos want] at first
          cases first
          rw [← here] at want
          refine ⟨1, _, iesLoop_hit (test.hit_of_wanted buf _ want) 0, ?_, by rw [here]⟩
          intro r member
          have near := test.looks_lt buf _ r member
          omega
      | false =>
          rw [List.find?_cons_of_neg (by simp [want])] at first
          obtain ⟨behind, -⟩ := mem_records (by omega) (List.mem_of_find?_eq_some first)
          have miss := clear o (by simp) (by omega)
          rw [← here] at miss inside
          have next := nextOffset_toNat inside
          rw [here] at next
          have still : ¬ varLen ≤ nextOffset buf offset := by
            rw [UInt16.le_iff_toNat_le, next]
            unfold CompleteAt at complete
            omega
          rw [← next] at first clear
          obtain ⟨fuel, found, ends, kept, result⟩ := ih (nextOffset buf offset) first
            (fun r member => clear r (List.mem_cons_of_mem _ member)) next
          refine ⟨fuel + 1,
            found.behind (test.looks buf offset.toNat ++ [offset.toNat + 1]), ?_, ?_, result⟩
          · rw [iesLoop_on miss still, ends]
            rfl
          · intro r member
            unfold CompleteAt at inside
            rcases List.mem_append.mp member with member | member
            · rcases List.mem_append.mp member with look | header
              · have near := test.looks_lt buf _ r look
                omega
              · rw [List.mem_singleton.mp header]
                omega
            · exact kept r member

/-- The converse: on the way to an element of the list nothing else was found. -/
theorem clear_of_ends {p fuel : Nat} {found : SearchEnd} (offset : UInt16)
    (first : (records 2 (ieSize buf) varLen.toNat offset.toNat).find? (test.wanted buf) =
      some p)
    (ends : iesLoop test buf varLen fuel offset = some found)
    (result : found.result = some p) :
    ∀ o ∈ records 2 (ieSize buf) varLen.toNat offset.toNat, o < p →
      test.hit buf o = false := by
  generalize here : offset.toNat = o at first ⊢
  induction o using records_induction (ieSize buf) varLen.toNat
    (show 0 < 2 by omega) generalizing offset fuel found with
  | outside o outside =>
      rw [records_of_incomplete outside] at first
      cases first
  | inside o inside ih =>
      rw [records_of_complete (by omega) inside] at first ⊢
      cases fuel with
      | zero => cases ends
      | succ fuel =>
          rw [← here] at inside first ⊢
          cases hit : test.hit buf offset.toNat with
          | true =>
              rw [iesLoop_hit hit] at ends
              cases ends
              cases result
              intro r member before
              rcases List.mem_cons.mp member with rfl | member
              · omega
              · have behind := (mem_records (by omega) member).1
                omega
          | false =>
              have plain : test.wanted buf offset.toNat = false := by
                cases want : test.wanted buf offset.toNat with
                | false => rfl
                | true => rw [test.hit_of_wanted buf _ want] at hit; cases hit
              rw [List.find?_cons_of_neg (by simp [plain])] at first
              have next := nextOffset_toNat inside
              by_cases out : varLen ≤ nextOffset buf offset
              · rw [iesLoop_out hit out] at ends
                cases ends
                cases result
              · rw [iesLoop_on hit out, Option.map_eq_some_iff] at ends
                obtain ⟨rest, ends, rfl⟩ := ends
                rw [here] at first next ⊢
                rw [here] at hit
                intro r member before
                rcases List.mem_cons.mp member with rfl | member
                · exact hit
                · exact ih (nextOffset buf offset) ends result next first r member before

theorem ClearAt.plain {o : Nat} (clear : ClearAt test buf varLen o) :
    test.wanted buf o = false := by
  cases want : test.wanted buf o with
  | false => rfl
  | true =>
      have hit := test.hit_of_wanted buf o want
      rw [clear.miss] at hit
      cases hit

/-- Offsets that pass the buffer come by every element, and none of them is wanted. -/
theorem Passes.no_element {offset : UInt16} (passes : Passes test buf varLen offset) :
    (records 2 (ieSize buf) varLen.toNat offset.toNat).find? (test.wanted buf) = none := by
  induction passes with
  | @last offset clear out =>
      by_cases inside : CompleteAt 2 (ieSize buf) varLen.toNat offset.toNat
      · have next := nextOffset_toNat inside
        have behind : ¬ CompleteAt 2 (ieSize buf) varLen.toNat
            (offset.toNat + (2 + ieSize buf offset.toNat)) := by
          rw [UInt16.le_iff_toNat_le, next] at out
          unfold CompleteAt
          omega
        rw [records_of_complete (by omega) inside, records_of_incomplete behind]
        simp [clear.plain]
      · rw [records_of_incomplete inside]
        rfl
  | @step offset clear still rest ih =>
      by_cases inside : CompleteAt 2 (ieSize buf) varLen.toNat offset.toNat
      · rw [records_of_complete (by omega) inside, List.find?_cons_of_neg
          (by simp [clear.plain]), ← nextOffset_toNat inside]
        exact ih
      · rw [records_of_incomplete inside]
        rfl

/-- A search does what it is for exactly when the bytes are searchable. -/
theorem searches_iff : Searches test buf varLen ↔ Searchable test buf varLen := by
  constructor
  · rintro ⟨fuel, found, ends, inside, result⟩
    cases first : firstWanted test buf varLen.toNat with
    | none => exact .inr (passes_of_ends ends inside (result.trans first))
    | some p => exact .inl ⟨p, first, clear_of_ends 0 first ends (result.trans first)⟩
  · rintro (⟨p, first, clear⟩ | passes)
    · obtain ⟨fuel, found, ends, inside, result⟩ := ends_of_first 0 first clear
      exact ⟨fuel, found, ends, inside, result.trans first.symm⟩
    · obtain ⟨fuel, found, ends, inside, result⟩ := passes.ends
      exact ⟨fuel, found, ends, inside, result.trans passes.no_element.symm⟩

end Loop

/-! ## The third search -/

section GetIe

variable {buf : Mem} {varLen : UInt16} {cmpId : UInt8}

theorem getIeLoop_of_first {p o : Nat}
    (first : (records 2 (ieSize buf) varLen.toNat o).find? ((byId cmpId).wanted buf) =
      some p) :
    ∃ fuel, getIeLoop buf cmpId.toNat varLen.toNat fuel o = some (some p) := by
  induction o using records_induction (ieSize buf) varLen.toNat (show 0 < 2 by omega) with
  | outside o outside =>
      rw [records_of_incomplete outside] at first
      cases first
  | inside o inside ih =>
      rw [records_of_complete (by omega) inside] at first
      by_cases here : buf o = cmpId
      · rw [List.find?_cons_of_pos (by simp [byId, here])] at first
        cases first
        exact ⟨1, by simp [getIeLoop, here]⟩
      · rw [List.find?_cons_of_neg (by simp [byId, here])] at first
        obtain ⟨behind, complete⟩ :=
          mem_records (by omega) (List.mem_of_find?_eq_some first)
        obtain ⟨fuel, found⟩ := ih first
        have other : ((buf o).toNat : Int) ≠ cmpId.toNat := by
          intro same
          exact here (UInt8.toNat_inj.mp (by omega))
        have step : o + (ieSize buf o + 2) = o + (2 + ieSize buf o) := by omega
        refine ⟨fuel + 1, ?_⟩
        unfold ieSize at step
        unfold CompleteAt at complete
        simp only [getIeLoop, other, if_false, step]
        rw [if_neg]
        · exact found
        · unfold ieSize at behind
          omega

/-- The third search counts with 32 bits, so it ends where the others wrap around. -/
theorem getIeLoop_of_passes {offset : UInt16}
    (passes : Passes (byId cmpId) buf varLen offset) :
    ∃ fuel, getIeLoop buf cmpId.toNat varLen.toNat fuel offset.toNat = some none := by
  have other {offset : UInt16} (clear : ClearAt (byId cmpId) buf varLen offset.toNat) :
      ((buf offset.toNat).toNat : Int) ≠ cmpId.toNat := by
    intro same
    have miss := clear.miss
    rw [byId_hit, UInt8.toNat_inj.mp (Int.ofNat_inj.mp same)] at miss
    simp at miss
  induction passes with
  | @last offset clear out =>
      have next := nextOffset_mod buf offset
      have beyond : (varLen.toNat : Int) ≤
          (offset.toNat + ((buf (offset.toNat + 1)).toNat + 2) : Nat) := by
        rw [UInt16.le_iff_toNat_le] at out
        unfold ieSize at next
        omega
      exact ⟨1, by simp only [getIeLoop, other clear, if_false, beyond, if_true]⟩
  | @step offset clear still rest ih =>
      have next := nextOffset_mod buf offset
      unfold ieSize at next
      by_cases beyond : (varLen.toNat : Int) ≤
          (offset.toNat + ((buf (offset.toNat + 1)).toNat + 2) : Nat)
      · exact ⟨1, by simp only [getIeLoop, other clear, if_false, beyond, if_true]⟩
      · obtain ⟨fuel, ends⟩ := ih
        have bound := varLen.toNat_lt
        have same : offset.toNat + ((buf (offset.toNat + 1)).toNat + 2) =
            (nextOffset buf offset).toNat := by
          omega
        refine ⟨fuel + 1, ?_⟩
        simp only [getIeLoop, other clear, if_false, beyond]
        rw [same]
        exact ends

theorem Searchable.agrees (searchable : Searchable (byId cmpId) buf varLen) :
    Agrees buf varLen cmpId := by
  obtain ⟨fuel, found, ends, -, result⟩ := searches_iff.mpr searchable
  refine ⟨fuel, found, ends, ?_⟩
  rw [result]
  rcases searchable with ⟨p, first, -⟩ | passes
  · have inside := (mem_records (by omega) (List.mem_of_find?_eq_some first)).2
    have some : ¬ (varLen.toNat : Int) < 1 := by
      unfold CompleteAt at inside
      omega
    rw [first]
    obtain ⟨fuel, same⟩ := getIeLoop_of_first first
    exact ⟨fuel, by rw [wfWlanGetIe, if_neg some, same]⟩
  · have some : ¬ (varLen.toNat : Int) < 1 := by
      cases passes with
      | last clear out =>
          have header := clear.header
          omega
      | step clear still rest =>
          have header := clear.header
          omega
    have none := passes.no_element
    obtain ⟨fuel, same⟩ := getIeLoop_of_passes passes
    refine ⟨fuel, ?_⟩
    rw [wfWlanGetIe, if_neg some, firstWanted, show (0 : Nat) = (0 : UInt16).toNat from rfl,
      none, same]

end GetIe

/-- The searches read only inside, end, find the first complete element and agree exactly
when the bytes are searchable for both comparisons. -/
theorem ies_search_iff (buf : Mem) (varLen : UInt16) (cmpId : UInt8)
    (oui : Vector UInt8 4) :
    Searches (byId cmpId) buf varLen ∧ Searches (byOui cmpId oui) buf varLen ∧
        Agrees buf varLen cmpId ↔
      Searchable (byId cmpId) buf varLen ∧ Searchable (byOui cmpId oui) buf varLen := by
  constructor
  · rintro ⟨plain, withOui, -⟩
    exact ⟨searches_iff.mp plain, searches_iff.mp withOui⟩
  · rintro ⟨plain, withOui⟩
    exact ⟨searches_iff.mpr plain, searches_iff.mpr withOui, plain.agrees⟩

/-- The header of an element of 20 bytes, and nothing behind it. -/
def headerOnly : Mem := Mem.write (fun _ => 0) 0 [0x30, 0x14]

theorem header_only_found :
    ¬ ∀ (buf : Mem) (varLen : UInt16) (cmpId : UInt8) (oui : Vector UInt8 4),
      Searches (byId cmpId) buf varLen ∧ Searches (byOui cmpId oui) buf varLen ∧
        Agrees buf varLen cmpId := by
  intro claimed
  obtain ⟨⟨fuel, found, ends, -, result⟩, -⟩ :=
    claimed headerOnly 2 0x30 (Vector.replicate 4 0)
  have none : firstWanted (byId 0x30) headerOnly (2 : UInt16).toNat = none := by
    have outside : ¬ CompleteAt 2 (ieSize headerOnly) (2 : UInt16).toNat 0 := by
      decide +kernel
    rw [firstWanted, records_of_incomplete outside]
    rfl
  cases fuel with
  | zero => cases ends
  | succ fuel =>
      rw [iesLoop_hit (by decide +kernel)] at ends
      cases ends
      rw [none] at result
      cases result

end Smartchip.Frame
