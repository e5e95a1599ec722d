import Smartchip.Foundation.Memory

/-!
# The elements of a management frame

`wf_80211_mgmt_ies_search` of `nic/wf_80211.c` walks over elements in memory with a
16-bit offset.  It looks at an element before it asks whether the element is still
inside, so what it finds is compared with the elements of the bytes themselves.
-/

namespace Smartchip.Frame

open Smartchip.Foundation

theorem length_drop_lt (e len : UInt8) (rest : List UInt8) :
    (rest.drop len.toNat).length < (e :: len :: rest).length := by
  rw [List.length_drop, List.length_cons, List.length_cons]
  omega

/-- The data of the first element with this identifier that is complete in the bytes. -/
def findElement (id : UInt8) : List UInt8 → Option (List UInt8)
  | e :: len :: rest =>
      if rest.length < len.toNat then none
      else if e = id then some (rest.take len.toNat)
      else findElement id (rest.drop len.toNat)
  | _ => none
  termination_by bytes => bytes.length
  decreasing_by exact length_drop_lt e len rest

/-- `wf_80211_mgmt_ie_t`. -/
structure Ie where
  elementId : UInt8
  data : List UInt8
  deriving DecidableEq

def Ie.bytes (ie : Ie) : List UInt8 :=
  ie.elementId :: UInt8.ofNat ie.data.length :: ie.data

def ieBytes (ies : List Ie) : List UInt8 := ies.flatMap Ie.bytes

/-- The elements that a loop comes by whose offset goes on by `2 + pie->len`. -/
def ieWalk : List UInt8 → List Ie
  | e :: len :: rest => ⟨e, rest.take len.toNat⟩ :: ieWalk (rest.drop len.toNat)
  | _ => []
  termination_by bytes => bytes.length
  decreasing_by exact length_drop_lt e len rest

theorem length_ofNat {data : List UInt8} (short : data.length < 256) :
    (UInt8.ofNat data.length).toNat = data.length := by
  rw [UInt8.toNat_ofNat']
  omega

/-- The step of such a loop, whose offset has 16 bits. -/
theorem ieStep_mod (offset : UInt16) (len : UInt8) :
    (offset + (2 + len.toUInt16)).toNat = (offset.toNat + (2 + len.toNat)) % 65536 := by
  have two : (2 : UInt16).toNat = 2 := rfl
  rw [UInt16.toNat_add, UInt16.toNat_add, UInt8.toNat_toUInt16, two]
  omega

theorem ieStep_toNat {offset : UInt16} {len : UInt8}
    (room : offset.toNat + (2 + len.toNat) < 65536) :
    (offset + (2 + len.toUInt16)).toNat = offset.toNat + (2 + len.toNat) := by
  rw [ieStep_mod, Nat.mod_eq_of_lt room]

theorem ieWalk_ieBytes {ies : List Ie} (short : ∀ ie ∈ ies, ie.data.length < 256) :
    ieWalk (ieBytes ies) = ies := by
  induction ies with
  | nil => simp [ieBytes, ieWalk]
  | cons ie ies ih =>
      have rest := ih fun other member => short other (by simp [member])
      have here := length_ofNat (short ie (by simp))
      simp only [ieBytes, List.flatMap_cons, Ie.bytes, List.cons_append] at rest ⊢
      rw [ieWalk, here, List.take_left, List.drop_left, rest]

/-- The loop of `wf_80211_mgmt_ies_search`: the address of the element, `some none` for
`WF_RETURN_FAIL`, and `none` when the loop has not ended. -/
def wf80211MgmtIesSearch (mem : Mem) (pstart : Nat) (varLen : UInt16) (cmpId : UInt8) :
    Nat → UInt16 → Option (Option Nat)
  | 0, _ => none
  | fuel + 1, offset =>
      let pie := pstart + offset.toNat
      if mem pie = cmpId then some (some pie)
      else
        let offset := offset + (2 + (mem (pie + 1)).toUInt16)
        if varLen ≤ offset then some none
        else wf80211MgmtIesSearch mem pstart varLen cmpId fuel offset

section Search

variable {mem : Mem} {pstart : Nat} {varLen offset : UInt16} {cmpId : UInt8}

theorem search_mono {result : Option Nat} {fuel more : Nat} (le : fuel ≤ more)
    (ended : wf80211MgmtIesSearch mem pstart varLen cmpId fuel offset = some result) :
    wf80211MgmtIesSearch mem pstart varLen cmpId more offset = some result := by
  induction fuel generalizing offset more with
  | zero => cases ended
  | succ fuel ih =>
      obtain ⟨more, rfl⟩ : ∃ k, more = k + 1 := ⟨more - 1, by omega⟩
      simp only [wf80211MgmtIesSearch] at ended ⊢
      split_ifs at ended ⊢
      · exact ended
      · exact ended
      · exact ih (by omega) ended

/-- The search ends at most in one way. -/
theorem search_unique {first second : Option Nat} {fuel more : Nat}
    (ended : wf80211MgmtIesSearch mem pstart varLen cmpId fuel offset = some first)
    (also : wf80211MgmtIesSearch mem pstart varLen cmpId more offset = some second) :
    first = second := by
  have left := search_mono (le_max_left fuel more) ended
  have right := search_mono (le_max_right fuel more) also
  exact Option.some.inj (left.symm.trans right)

theorem read_two (mem : Mem) (addr n : Nat) :
    mem.read addr (n + 2) = mem addr :: mem (addr + 1) :: mem.read (addr + 2) n := by
  rw [Nat.add_comm n 2, Mem.read_add]
  rfl

/-- An element that is complete in the bytes is the one that the search finds. -/
theorem search_of_findElement {n : Nat} {data : List UInt8}
    (inside : offset.toNat + n ≤ varLen.toNat)
    (found : findElement cmpId (mem.read (pstart + offset.toNat) n) = some data) :
    ∃ fuel pie, wf80211MgmtIesSearch mem pstart varLen cmpId fuel offset = some (some pie) ∧
      (mem (pie + 1)).toNat = data.length ∧ mem.read (pie + 2) data.length = data := by
  induction n using Nat.strongRecOn generalizing offset with
  | ind n ih =>
      obtain _ | _ | n := n
      · rw [findElement] at found
        · cases found
        · nofun
      · rw [findElement] at found
        · cases found
        · intro e len rest same
          cases congrArg List.length same
      · rw [read_two, findElement, Mem.length_read] at found
        set pie := pstart + offset.toNat with hpie
        split_ifs at found with short here
        · cases found
          refine ⟨1, pie, ?_, ?_, ?_⟩
          · simp only [wf80211MgmtIesSearch]
            rw [← hpie, if_pos here]
          · simp only [List.length_take, Mem.length_read]
            omega
          · rw [Mem.take_read _ _ (by omega), Mem.length_read]
        · rw [Mem.drop_read] at found
          have bound := varLen.toNat_lt
          have next : (offset + (2 + (mem (pie + 1)).toUInt16)).toNat =
              offset.toNat + (2 + (mem (pie + 1)).toNat) := ieStep_toNat (by omega)
          have at_next : pie + 2 + (mem (pie + 1)).toNat =
              pstart + (offset + (2 + (mem (pie + 1)).toUInt16)).toNat := by
            rw [next]
            omega
          rw [at_next] at found
          obtain ⟨fuel, hit, result, length, read⟩ :=
            ih (n - (mem (pie + 1)).toNat) (by omega) (by omega) found
          refine ⟨fuel + 1, hit, ?_, length, read⟩
          simp only [wf80211MgmtIesSearch]
          rw [← hpie, if_neg here, if_neg, result]
          rw [UInt16.le_iff_toNat_le]
          -- at least the two bytes of a header are left
          have more : 2 ≤ n - (mem (pie + 1)).toNat := by
            by_contra few
            rw [findElement] at found
            · cases found
            · intro e len rest same
              have size := congrArg List.length same
              simp only [Mem.length_read, List.length_cons] at size
              omega
          omega

end Search

end Smartchip.Frame
