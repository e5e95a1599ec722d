import Mathlib.Data.List.Dedup
import Mathlib.Logic.Function.Basic
import Smartchip.Frame.VendorIe

/-!
# Channel lists in P2P action frames

`nic/p2p/p2p_frame_mgt.c`: the functions that look for the channel of the other interface in the
channel lists and operating channels of a frame, and that write a channel to all of them. They are
one loop over the elements, with a loop over the entries of a list in it. An access outside of the
frame, or a loop that does not end, has no value.
-/

namespace Smartchip.P2p.Channels

open Smartchip.Foundation Smartchip.Frame.Vendor
open Smartchip.Frame (ieSize vendorSpecificId wfMemcmp_eq_zero)

/-- `WF_PUBLIC_ACTION_IE_OFFSET` -/
def publicActionIeOffset : Nat := 8

def p2pAttrChList : UInt8 := 0x0b

def p2pAttrOperatingCh : UInt8 := 0x11

/-- A length that is handed on as a `wf_s32`. -/
def signed (len : UInt32) : Int := len.toBitVec.toInt

/-! ## The loops -/

section Loops

variable {α : Type} (limit : Nat)

/-- `while (attr_contentlen > 0)` from `pattr_temp` on, with what is done with the channels of an
entry. -/
def entriesLoop (visit : Nat → Nat → Mem × α → Option (Mem × α)) :
    Nat → Nat → UInt32 → Mem × α → Option (Mem × α)
  | 0, _, _, _ => none
  | fuel + 1, temp, left, s =>
      if left = 0 then some s
      else do
        inside limit (temp + 1) 1
        let numOfCh := (s.1 (temp + 1)).toNat
        entriesLoop visit fuel (temp + (2 + numOfCh)) (left - UInt32.ofNat (2 + numOfCh))
          (← visit (temp + 2) numOfCh s)

/-- The entries of a list are behind its country string. -/
def listEntries (visit : Nat → Nat → Mem × α → Option (Mem × α)) (pattr : Nat)
    (contentlen : UInt32) (s : Mem × α) : Option (Mem × α) :=
  entriesLoop limit visit (limit + 1) (pattr + 3) (contentlen - 3) s

/-- What is done with the first attribute of a kind, if there is one. -/
def withContent (target : UInt8) (use : Nat → UInt32 → Mem × α → Option (Mem × α))
    (p2pIe p2pIelen : Nat) (s : Mem × α) : Option (Mem × α) := do
  let cont ← wfP2pGetAttrContent s.1 limit p2pIe p2pIelen target false true
  match cont.place with
  | none => some s
  | some pattr => use pattr (UInt32.ofNat (cont.length.getD 0)) s

variable (frameBody : Nat) (len : UInt32)

/-- The next call of `wf_p2p_get_ie`, from `in_ie` on. -/
def nextIe (buf : Mem) (inIe : Nat) : Option FoundIe :=
  let ies := frameBody + publicActionIeOffset
  let iesLen := len - UInt32.ofNat publicActionIeOffset
  wfP2pGetIe buf limit inIe (signed (iesLen - UInt32.ofNat (inIe - ies))) false true

/-- `while (p2p_ie)`, which some calls leave early. -/
def elementsLoop (each : Nat → Nat → Mem × α → Option (Mem × α)) (leave : α → Bool) :
    Nat → FoundIe → Mem × α → Option (Mem × α)
  | 0, _, _ => none
  | fuel + 1, found, s =>
      match found.place with
      | none => some s
      | some p2pIe => do
          let p2pIelen := found.length.getD 0
          let s ← each p2pIe p2pIelen s
          if leave s.2 then some s
          else elementsLoop each leave fuel (← nextIe limit frameBody len s.1 (p2pIe + p2pIelen)) s

/-- Without `flag` only the first lookup is made. -/
def inElements (each : Nat → Nat → Mem × α → Option (Mem × α)) (leave : α → Bool) (flag : UInt8)
    (s : Mem × α) : Option (Mem × α) := do
  let found ← nextIe limit frameBody len s.1 (frameBody + publicActionIeOffset)
  if flag = 0 then some s
  else elementsLoop limit frameBody len each leave (limit + 1) found s

end Loops

/-! ## The functions -/

section Functions

variable (limit : Nat)

/-- The channels of an entry are compared up to the first one that is `buddy_ch`. -/
def matchLoop (buf : Mem) (buddyCh : UInt8) : Nat → Nat → Option Bool
  | 0, _ => some false
  | n + 1, pos => do
      inside limit pos 1
      if buf pos = buddyCh then some true else matchLoop buf buddyCh n (pos + 1)

def fillLoop (ch : UInt8) : Nat → Nat → Mem → Option Mem
  | 0, _, buf => some buf
  | n + 1, pos, buf => do
      inside limit pos 1
      fillLoop ch n (pos + 1) (Function.update buf pos ch)

/-- `ch_list` has room for 40 channels. -/
def chListSize : Nat := 40

def collectLoop (buf : Mem) : Nat → Nat → List UInt8 → Option (List UInt8)
  | 0, _, chList => some chList
  | n + 1, pos, chList => do
      inside limit pos 1
      if buf pos ∈ chList then collectLoop buf n (pos + 1) chList
      else do
        inside chListSize chList.length 1
        collectLoop buf n (pos + 1) (chList ++ [buf pos])

def matchEntry (buddyCh : UInt8) (pos n : Nat) (s : Mem × Bool) : Option (Mem × Bool) := do
  let hit ← matchLoop limit s.1 buddyCh n pos
  some (s.1, s.2 || hit)

def fillEntry (ch : UInt8) (pos n : Nat) (s : Mem × Unit) : Option (Mem × Unit) := do
  some (← fillLoop limit ch n pos s.1, ())

def collectEntry (pos n : Nat) (s : Mem × List UInt8) : Option (Mem × List UInt8) := do
  some (s.1, ← collectLoop limit s.1 n pos s.2)

/-- `P2P_FRAME_ARRAY`, with a length of 16 bits. -/
def logArray (pattr : Nat) (contentlen : UInt32) : Option Unit :=
  inside limit pattr (contentlen.toNat % 65536)

/-- The fourth byte of an operating channel is compared. -/
def matchOpCh (buddyCh : UInt8) (pattr : Nat) (s : Mem × Bool) : Option (Mem × Bool) := do
  inside limit (pattr + 4) 1
  some (s.1, s.2 || s.1 (pattr + 4) == buddyCh)

def fillOpCh (ch : UInt8) (pattr : Nat) (s : Mem × Unit) : Option (Mem × Unit) := do
  inside limit (pattr + 4) 1
  some (Function.update s.1 (pattr + 4) ch, ())

/-- A channel in decimal, as far as it has two digits. -/
def channelText (ch : UInt8) : List UInt8 :=
  if ch ≤ 9 then [ch + 48]
  else if ch ≤ 99 then [ch / 10 + 48, ch % 10 + 48]
  else []

def chListText (chList : List UInt8) : List UInt8 := [44].intercalate (chList.map channelText)

/-- The text goes to a buffer that the caller has; `flag` clears what is clear. -/
def p2pDumpAttrChList (buf : Mem) (p2pIe p2pIelen : Nat) (bufLen : Nat) : Option (List UInt8) := do
  let s ← withContent limit p2pAttrChList (listEntries limit (collectEntry limit)) p2pIe p2pIelen
    (buf, [])
  inside bufLen 0 (chListText s.2).length
  some (chListText s.2)

variable (frameBody : Nat) (len : UInt32) (buf : Mem)

def p2pCheckChListWithBuddy (buddyCh flag : UInt8) : Option Bool :=
  (inElements limit frameBody len
    (withContent limit p2pAttrChList (listEntries limit (matchEntry limit buddyCh)))
    (fun _ => false) flag (buf, false)).map Prod.snd

/-- What `p2p_adjust_channel` does to an element. -/
def adjustElement (buddyCh : UInt8) (p2pIe p2pIelen : Nat) (s : Mem × Unit) :
    Option (Mem × Unit) := do
  let s ← withContent limit p2pAttrChList (fun pattr contentlen s => do
    logArray limit pattr contentlen
    listEntries limit (fillEntry limit buddyCh) pattr contentlen s) p2pIe p2pIelen s
  withContent limit p2pAttrOperatingCh (fun pattr contentlen s => do
    logArray limit pattr contentlen
    fillOpCh limit buddyCh pattr s) p2pIe p2pIelen s

def p2pAdjustChannel (buddyCh flag : UInt8) : Option Mem :=
  (inElements limit frameBody len (adjustElement limit buddyCh) (fun _ => false) flag
    (buf, ())).map Prod.fst

def p2pChangeP2pieChList (ch flag : UInt8) : Option Mem :=
  (inElements limit frameBody len
    (withContent limit p2pAttrChList (listEntries limit (fillEntry limit ch)))
    (fun _ => false) flag (buf, ())).map Prod.fst

/-- This one leaves with the first operating channel that fits. -/
def p2pCheckP2pieOpChWithBuddy (buddyCh flag : UInt8) : Option Bool :=
  (inElements limit frameBody len
    (withContent limit p2pAttrOperatingCh fun pattr _ => matchOpCh limit buddyCh pattr)
    id flag (buf, false)).map Prod.snd

end Functions

/-! ## Entries that fit -/

section Entries

variable {α : Type} {limit : Nat}

/-- The entries fill what is left of the list and each of them is begun inside. -/
inductive Entries (limit : Nat) (visited : Nat → Nat → Mem × α → Mem × α → Prop) :
    Nat → Nat → Mem × α → Mem × α → Prop where
  | done {temp : Nat} {s : Mem × α} : Entries limit visited temp 0 s s
  | entry {temp left : Nat} {s s₁ s' : Mem × α} (head : temp + 2 ≤ limit)
      (whole : 2 + (s.1 (temp + 1)).toNat ≤ left)
      (visits : visited (temp + 2) (s.1 (temp + 1)).toNat s s₁)
      (rest : Entries limit visited (temp + (2 + (s.1 (temp + 1)).toNat))
        (left - (2 + (s.1 (temp + 1)).toNat)) s₁ s') :
      Entries limit visited temp left s s'

/-- A list of at least three bytes whose entries fill it. -/
def ListEntries (limit : Nat) (visited : Nat → Nat → Mem × α → Mem × α → Prop)
    (pattr contentlen : Nat) (s s' : Mem × α) : Prop :=
  3 ≤ contentlen ∧ Entries limit visited (pattr + 3) (contentlen - 3) s s'

variable {visit : Nat → Nat → Mem × α → Option (Mem × α)}
  {visited : Nat → Nat → Mem × α → Mem × α → Prop}

/-- The loop never comes far behind the limit: a remaining length below 0 ends outside. -/
theorem entriesLoop_reach {fuel temp : Nat} {left : UInt32} {s s' : Mem × α}
    (ends : entriesLoop limit visit fuel temp left s = some s') :
    left = 0 ∨ temp + left.toNat ≤ limit + 255 := by
  induction fuel generalizing temp left s with
  | zero => cases ends
  | succ fuel ih =>
      rw [entriesLoop] at ends
      split_ifs at ends with last
      · exact Or.inl last
      · obtain ⟨_, head, ends⟩ := Option.bind_eq_some_iff.mp ends
        obtain ⟨s₁, -, ends⟩ := Option.bind_eq_some_iff.mp ends
        have byte := (s.1 (temp + 1)).toNat_lt
        have room : temp + 1 + 1 ≤ limit := by
          rw [← inside_isSome, head]
          rfl
        have step : (UInt32.ofNat (2 + (s.1 (temp + 1)).toNat)).toNat =
            2 + (s.1 (temp + 1)).toNat := UInt32.toNat_ofNat_of_lt' (by
          change _ < 2 ^ 32
          omega)
        right
        rcases Nat.lt_or_ge left.toNat (2 + (s.1 (temp + 1)).toNat) with wraps | whole
        · omega
        · have less : (left - UInt32.ofNat (2 + (s.1 (temp + 1)).toNat)).toNat =
              left.toNat - (2 + (s.1 (temp + 1)).toNat) := by
            rw [UInt32.toNat_sub_of_le _ _ (by rw [UInt32.le_iff_toNat_le, step]; omega), step]
          rcases ih ends with empty | reach
          · rw [empty] at less
            change 0 = _ at less
            omega
          · omega

theorem entries_zero {temp : Nat} {s s' : Mem × α} :
    Entries limit visited temp 0 s s' ↔ s' = s := by
  constructor
  · intro fits
    generalize nothing : 0 = left at fits
    cases fits with
    | done => rfl
    | entry head whole => omega
  · rintro rfl
    exact .done

theorem entries_pos {temp left : Nat} {s s' : Mem × α} (more : 0 < left) :
    Entries limit visited temp left s s' ↔
      temp + 2 ≤ limit ∧ 2 + (s.1 (temp + 1)).toNat ≤ left ∧
        ∃ s₁, visited (temp + 2) (s.1 (temp + 1)).toNat s s₁ ∧
          Entries limit visited (temp + (2 + (s.1 (temp + 1)).toNat))
            (left - (2 + (s.1 (temp + 1)).toNat)) s₁ s' := by
  constructor
  · intro fits
    cases fits with
    | done => omega
    | entry head whole visits rest => exact ⟨head, whole, _, visits, rest⟩
  · rintro ⟨head, whole, s₁, visits, rest⟩
    exact .entry head whole visits rest

/-- The loop over the entries, in a frame that is not as large as the memory. -/
theorem entriesLoop_iff (small : limit + 1024 ≤ 2 ^ 32)
    (spec : ∀ {pos n : Nat} {s s' : Mem × α}, pos ≤ limit →
      (visit pos n s = some s' ↔ visited pos n s s'))
    {fuel temp : Nat} {left : UInt32} {s s' : Mem × α} (enough : limit ≤ temp + fuel) :
    entriesLoop limit visit (fuel + 1) temp left s = some s' ↔
      Entries limit visited temp left.toNat s s' := by
  induction fuel generalizing temp left s with
  | zero =>
      rw [entriesLoop]
      split_ifs with last
      · rw [last]
        change _ ↔ Entries limit visited temp 0 s s'
        rw [entries_zero, Option.some_inj, eq_comm]
      · have more : 0 < left.toNat := Nat.pos_of_ne_zero fun zero => last (UInt32.toNat_inj.mp zero)
        have faults : inside limit (temp + 1) 1 = none := if_neg (by omega)
        rw [faults, entries_pos more]
        constructor
        · rintro ⟨⟩
        · rintro ⟨head, -⟩
          omega
  | succ fuel ih =>
      rw [entriesLoop]
      split_ifs with last
      · rw [last]
        change _ ↔ Entries limit visited temp 0 s s'
        rw [entries_zero, Option.some_inj, eq_comm]
      · have more : 0 < left.toNat := Nat.pos_of_ne_zero fun zero => last (UInt32.toNat_inj.mp zero)
        have byte := (s.1 (temp + 1)).toNat_lt
        have step : (UInt32.ofNat (2 + (s.1 (temp + 1)).toNat)).toNat =
            2 + (s.1 (temp + 1)).toNat := UInt32.toNat_ofNat_of_lt' (by
          change _ < 2 ^ 32
          omega)
        rw [entries_pos more]
        rcases Nat.lt_or_ge limit (temp + 2) with out | head
        · have faults : inside limit (temp + 1) 1 = none := if_neg (by omega)
          rw [faults]
          constructor
          · rintro ⟨⟩
          · rintro ⟨head, -⟩
            omega
        have looks : inside limit (temp + 1) 1 = some () := if_pos head
        simp only [looks, Option.bind_eq_bind, Option.bind_some, Option.bind_eq_some_iff,
          spec head]
        rcases Nat.lt_or_ge left.toNat (2 + (s.1 (temp + 1)).toNat) with wraps | whole
        · constructor
          · rintro ⟨s₁, -, ends⟩
            have less : (left - UInt32.ofNat (2 + (s.1 (temp + 1)).toNat)).toNat =
                2 ^ 32 + left.toNat - (2 + (s.1 (temp + 1)).toNat) := by
              rw [UInt32.toNat_sub, step]
              omega
            rcases entriesLoop_reach ends with empty | reach
            · rw [empty] at less
              change 0 = _ at less
              omega
            · omega
          · rintro ⟨-, whole, -⟩
            omega
        · have less : (left - UInt32.ofNat (2 + (s.1 (temp + 1)).toNat)).toNat =
              left.toNat - (2 + (s.1 (temp + 1)).toNat) := by
            rw [UInt32.toNat_sub_of_le _ _ (by rw [UInt32.le_iff_toNat_le, step]; omega), step]
          constructor
          · rintro ⟨s₁, visits, ends⟩
            rw [ih (by omega), less] at ends
            exact ⟨head, whole, s₁, visits, ends⟩
          · rintro ⟨-, -, s₁, visits, rest⟩
            refine ⟨s₁, visits, ?_⟩
            rw [ih (by omega), less]
            exact rest

theorem entries_reach {temp left : Nat} {s s' : Mem × α}
    (fits : Entries limit visited temp left s s') : left = 0 ∨ temp + left ≤ limit + 255 := by
  induction fits with
  | done => exact Or.inl rfl
  | @entry temp left s s₁ s' head whole visits rest ih =>
      have byte := (s.1 (temp + 1)).toNat_lt
      omega

/-- A list of fewer than three bytes has no end. -/
theorem listEntries_iff (small : limit + 1024 ≤ 2 ^ 32)
    (spec : ∀ {pos n : Nat} {s s' : Mem × α}, pos ≤ limit →
      (visit pos n s = some s' ↔ visited pos n s s'))
    {pattr contentlen : Nat} {s s' : Mem × α} (word : contentlen < 2 ^ 32) :
    listEntries limit visit pattr (UInt32.ofNat contentlen) s = some s' ↔
      ListEntries limit visited pattr contentlen s s' := by
  have len : (UInt32.ofNat contentlen).toNat = contentlen := UInt32.toNat_ofNat_of_lt' word
  have three : (3 : UInt32).toNat = 3 := rfl
  rw [listEntries, entriesLoop_iff small spec (by omega), ListEntries]
  rcases Nat.lt_or_ge contentlen 3 with short | long
  · have wraps : (UInt32.ofNat contentlen - 3).toNat = 2 ^ 32 + contentlen - 3 := by
      rw [UInt32.toNat_sub, len, three]
      omega
    rw [wraps]
    constructor
    · intro fits
      have reach := entries_reach fits
      omega
    · rintro ⟨enough, -⟩
      omega
  · have less : (UInt32.ofNat contentlen - 3).toNat = contentlen - 3 := by
      rw [UInt32.toNat_sub_of_le _ _ (by rw [UInt32.le_iff_toNat_le, len, three]; exact long),
        len, three]
    rw [less]
    exact (and_iff_right long).symm

end Entries

/-! ## What is done with an entry -/

section Visits

variable {limit : Nat} {buf : Mem} {ch : UInt8} {pos n : Nat}

/-- The channel is met before the frame ends. -/
def Meets (limit : Nat) (buf : Mem) (ch : UInt8) (pos n : Nat) : Prop :=
  ∃ i < n, pos + i < limit ∧ buf (pos + i) = ch

/-- The channel is met, or all channels are inside and it is none of them. -/
def MatchedEntry (limit : Nat) (ch : UInt8) (pos n : Nat) (s s' : Mem × Bool) : Prop :=
  s'.1 = s.1 ∧
    ((Meets limit s.1 ch pos n ∧ s'.2 = true) ∨
      (¬ Meets limit s.1 ch pos n ∧ pos + n ≤ limit ∧ s'.2 = s.2))

def FilledEntry (limit : Nat) (ch : UInt8) (pos n : Nat) (s s' : Mem × Unit) : Prop :=
  pos + n ≤ limit ∧ s'.1 = s.1.write pos (List.replicate n ch)

/-- The channels that are not there yet are put behind. -/
def collect (chList : List UInt8) (chs : List UInt8) : List UInt8 :=
  chs.foldl (fun chList ch => if ch ∈ chList then chList else chList ++ [ch]) chList

def CollectedEntry (limit : Nat) (pos n : Nat) (s s' : Mem × List UInt8) : Prop :=
  pos + n ≤ limit ∧ s'.1 = s.1 ∧ s'.2 = collect s.2 (s.1.read pos n) ∧
    (s'.2 = s.2 ∨ s'.2.length ≤ chListSize)

theorem meets_succ : Meets limit buf ch pos (n + 1) ↔
    (pos < limit ∧ buf pos = ch) ∨ Meets limit buf ch (pos + 1) n := by
  constructor
  · rintro ⟨i, few, inside, same⟩
    cases i with
    | zero => exact Or.inl ⟨inside, same⟩
    | succ i =>
        have shift : pos + (i + 1) = pos + 1 + i := by omega
        rw [shift] at inside same
        exact Or.inr ⟨i, by omega, inside, same⟩
  · rintro (⟨inside, same⟩ | ⟨i, few, inside, same⟩)
    · exact ⟨0, by omega, inside, same⟩
    · have shift : pos + 1 + i = pos + (i + 1) := by omega
      rw [shift] at inside same
      exact ⟨i + 1, by omega, inside, same⟩

theorem matchLoop_iff (head : pos ≤ limit) {hit : Bool} :
    matchLoop limit buf ch n pos = some hit ↔
      (Meets limit buf ch pos n ∧ hit = true) ∨
        (¬ Meets limit buf ch pos n ∧ pos + n ≤ limit ∧ hit = false) := by
  induction n generalizing pos with
  | zero =>
      have never : ¬ Meets limit buf ch pos 0 := by
        rintro ⟨i, few, -⟩
        omega
      simp [matchLoop, never, head, eq_comm]
  | succ n ih =>
      rw [matchLoop, meets_succ]
      rcases Nat.lt_or_ge pos limit with inside_frame | out
      · have looks : inside limit pos 1 = some () := if_pos inside_frame
        rw [looks, Option.bind_eq_bind, Option.bind_some]
        have shift : pos + 1 + n = pos + (n + 1) := by omega
        split_ifs with same
        · simp [same, inside_frame, eq_comm]
        · rw [ih inside_frame, shift]
          simp [same]
      · have faults : inside limit pos 1 = none := if_neg (by omega)
        have never : ¬ Meets limit buf ch (pos + 1) n := by
          rintro ⟨i, -, within, -⟩
          omega
        rw [faults]
        simp only [Option.bind_eq_bind, Option.bind_none, reduceCtorEq, false_iff]
        rintro (⟨⟨within, -⟩ | meets, -⟩ | ⟨-, within, -⟩)
        · omega
        · exact never meets
        · omega

theorem matchEntry_iff (head : pos ≤ limit) {s s' : Mem × Bool} :
    matchEntry limit ch pos n s = some s' ↔ MatchedEntry limit ch pos n s s' := by
  obtain ⟨buf, fit⟩ := s
  obtain ⟨buf', fit'⟩ := s'
  simp only [matchEntry, Option.bind_eq_bind, Option.bind_eq_some_iff, matchLoop_iff head,
    Option.some_inj, Prod.mk.injEq, MatchedEntry]
  constructor
  · rintro ⟨hit, ⟨meets, rfl⟩ | ⟨misses, whole, rfl⟩, rfl, rfl⟩
    · exact ⟨rfl, Or.inl ⟨meets, by simp⟩⟩
    · exact ⟨rfl, Or.inr ⟨misses, whole, by simp⟩⟩
  · rintro ⟨rfl, ⟨meets, rfl⟩ | ⟨misses, whole, rfl⟩⟩
    · exact ⟨true, Or.inl ⟨meets, rfl⟩, rfl, by simp⟩
    · exact ⟨false, Or.inr ⟨misses, whole, rfl⟩, rfl, by simp⟩

theorem fillLoop_iff (head : pos ≤ limit) {buf' : Mem} :
    fillLoop limit ch n pos buf = some buf' ↔
      pos + n ≤ limit ∧ buf' = buf.write pos (List.replicate n ch) := by
  induction n generalizing pos buf with
  | zero => simp [fillLoop, head, eq_comm]
  | succ n ih =>
      rw [fillLoop]
      rcases Nat.lt_or_ge pos limit with inside_frame | out
      · have looks : inside limit pos 1 = some () := if_pos inside_frame
        have shift : pos + 1 + n = pos + (n + 1) := by omega
        have one : Function.update buf pos ch = buf.write pos [ch] := by
          funext i
          rcases Nat.lt_trichotomy i pos with before | rfl | after
          · rw [Mem.write_before _ _ before, Function.update_of_ne (by omega)]
          · simp [Mem.write]
          · rw [Mem.write_after _ (by simp; omega), Function.update_of_ne (by omega)]
        have written : (buf.write pos [ch]).write (pos + 1) (List.replicate n ch) =
            buf.write pos (ch :: List.replicate n ch) :=
          Mem.write_append buf pos [ch] (List.replicate n ch)
        rw [looks, Option.bind_eq_bind, Option.bind_some, ih inside_frame, shift, one, written,
          List.replicate_succ]
      · have faults : inside limit pos 1 = none := if_neg (by omega)
        rw [faults]
        simp only [Option.bind_eq_bind, Option.bind_none, reduceCtorEq, false_iff]
        omega

theorem fillEntry_iff (head : pos ≤ limit) {s s' : Mem × Unit} :
    fillEntry limit ch pos n s = some s' ↔ FilledEntry limit ch pos n s s' := by
  obtain ⟨buf', ⟨⟩⟩ := s'
  simp only [fillEntry, Option.bind_eq_bind, Option.bind_eq_some_iff, fillLoop_iff head,
    Option.some_inj, Prod.mk.injEq, FilledEntry, and_true]
  constructor
  · rintro ⟨_, filled, rfl⟩
    exact filled
  · intro filled
    exact ⟨buf', filled, rfl⟩

theorem length_collect (chList chs : List UInt8) :
    chList.length ≤ (collect chList chs).length := by
  induction chs generalizing chList with
  | nil => exact Nat.le_refl _
  | cons ch chs ih =>
      rw [collect, List.foldl_cons]
      split_ifs
      · exact ih chList
      · have longer := ih (chList ++ [ch])
        rw [List.length_append] at longer
        exact Nat.le_trans (Nat.le_add_right _ _) longer

theorem read_succ : buf.read pos (n + 1) = buf pos :: buf.read (pos + 1) n := by
  rw [Nat.add_comm, Mem.read_add]
  rfl

theorem collectLoop_iff (head : pos ≤ limit) {chList chList' : List UInt8} :
    collectLoop limit buf n pos chList = some chList' ↔
      pos + n ≤ limit ∧ chList' = collect chList (buf.read pos n) ∧
        (chList' = chList ∨ chList'.length ≤ chListSize) := by
  induction n generalizing pos chList with
  | zero =>
      simp only [collectLoop, Option.some_inj, Nat.add_zero, head, true_and, Mem.read_zero,
        collect, List.foldl_nil]
      constructor
      · rintro rfl
        exact ⟨rfl, Or.inl rfl⟩
      · rintro ⟨rfl, -⟩
        rfl
  | succ n ih =>
      have shift : pos + 1 + n = pos + (n + 1) := by omega
      rw [collectLoop, read_succ]
      rcases Nat.lt_or_ge pos limit with inside_frame | out
      · have looks : inside limit pos 1 = some () := if_pos inside_frame
        rw [looks, Option.bind_eq_bind, Option.bind_some]
        split_ifs with member
        · have step : collect chList (buf pos :: buf.read (pos + 1) n) =
              collect chList (buf.read (pos + 1) n) := by
            rw [collect, List.foldl_cons, if_pos member]
            rfl
          rw [ih inside_frame, shift, step]
        · have step : collect chList (buf pos :: buf.read (pos + 1) n) =
              collect (chList ++ [buf pos]) (buf.read (pos + 1) n) := by
            rw [collect, List.foldl_cons, if_neg member]
            rfl
          have longer := length_collect (chList ++ [buf pos]) (buf.read (pos + 1) n)
          rw [List.length_append, List.length_singleton] at longer
          rw [step]
          rcases Nat.lt_or_ge chList.length chListSize with room | full
          · have stores : inside chListSize chList.length 1 = some () := if_pos room
            rw [stores, Option.bind_some, ih inside_frame, shift]
            constructor
            · rintro ⟨whole, rfl, same | few⟩
              · rw [same]
                exact ⟨whole, rfl, Or.inr (by rw [List.length_append]; exact room)⟩
              · exact ⟨whole, rfl, Or.inr few⟩
            · rintro ⟨whole, rfl, same | few⟩
              · rw [same] at longer
                omega
              · exact ⟨whole, rfl, Or.inr few⟩
          · have faults : inside chListSize chList.length 1 = none := if_neg (by omega)
            rw [faults, Option.bind_none]
            simp only [reduceCtorEq, false_iff]
            rintro ⟨-, rfl, same | few⟩
            · rw [same] at longer
              omega
            · omega
      · have faults : inside limit pos 1 = none := if_neg (by omega)
        rw [faults]
        simp only [Option.bind_eq_bind, Option.bind_none, reduceCtorEq, false_iff]
        omega

theorem collectEntry_iff (head : pos ≤ limit) {s s' : Mem × List UInt8} :
    collectEntry limit pos n s = some s' ↔ CollectedEntry limit pos n s s' := by
  obtain ⟨buf', chList'⟩ := s'
  simp only [collectEntry, Option.bind_eq_bind, Option.bind_eq_some_iff, collectLoop_iff head,
    Option.some_inj, Prod.mk.injEq, CollectedEntry]
  constructor
  · rintro ⟨_, ⟨whole, same, few⟩, rfl, rfl⟩
    exact ⟨whole, rfl, same, few⟩
  · rintro ⟨whole, rfl, same, few⟩
    exact ⟨chList', ⟨whole, same, few⟩, rfl, rfl⟩

end Visits

/-! ## What is done with an attribute -/

section Contents

variable {α : Type} {limit : Nat} {target : UInt8}

/-- The beginning of an element that `wf_p2p_get_ie` takes for one of Wi-Fi Direct. -/
structure DirectIe (buf : Mem) (limit ie : Nat) : Prop where
  id : buf ie = vendorSpecificId
  oui : buf.read (ie + 2) 4 = Frame.Vendor.p2pOui.toList
  six : ie + 6 ≤ limit

/-- The lookup ends: it finds nothing, or an attribute whose content is used. -/
inductive WithContent (limit : Nat) (target : UInt8)
    (used : Nat → Nat → Mem × α → Mem × α → Prop) (ie ielen : Nat) (s : Mem × α) :
    Mem × α → Prop where
  | without {found : Option Nat}
      (finds : Finds Mem.readLe16 s.1 limit ie ielen target 6 found)
      (nothing : ∀ attr ∈ found, attrLen Mem.readLe16 s.1 ie attr = 0) :
      WithContent limit target used ie ielen s s
  | content {attr : Nat} {s' : Mem × α}
      (finds : Finds Mem.readLe16 s.1 limit ie ielen target 6 (some attr))
      (filled : attrLen Mem.readLe16 s.1 ie attr ≠ 0)
      (uses : used (ie + attr + 3) (contentLen (attrLen Mem.readLe16 s.1 ie attr)) s s') :
      WithContent limit target used ie ielen s s'

variable {use : Nat → UInt32 → Mem × α → Option (Mem × α)}
  {used : Nat → Nat → Mem × α → Mem × α → Prop} {ie ielen : Nat} {s s' : Mem × α}

theorem withContent_iff (element : DirectIe s.1 limit ie)
    (spec : ∀ {pattr contentlen : Nat} {s s' : Mem × α}, contentlen < 2 ^ 32 →
      (use pattr (UInt32.ofNat contentlen) s = some s' ↔ used pattr contentlen s s')) :
    withContent limit target use ie ielen s = some s' ↔
      WithContent limit target used ie ielen s s' := by
  have walk (found : Option Nat) :
      p2pGetAttr s.1 limit ie ielen target = some found ↔
        Finds Mem.readLe16 s.1 limit ie ielen target 6 found :=
    getAttr_iff element.id element.oui element.six (by decide)
  have uses (found : Option Nat) :
      ((getContent Mem.readLe16 s.1 limit ie found false true (some 0)).bind fun cont =>
        match cont.place with
        | none => some s
        | some pattr => use pattr (UInt32.ofNat (cont.length.getD 0)) s) =
      match found with
      | none => some s
      | some attr =>
          if attrLen Mem.readLe16 s.1 ie attr = 0 then some s
          else use (ie + attr + 3)
            (UInt32.ofNat (contentLen (attrLen Mem.readLe16 s.1 ie attr))) s := by
    cases found with
    | none => rfl
    | some attr =>
        simp only [getContent]
        split_ifs <;> rfl
  have small (len : UInt16) : contentLen len < 2 ^ 32 := UInt32.toNat_lt _
  simp only [withContent, wfP2pGetAttrContent, Option.bind_eq_bind, Option.bind_assoc, if_true,
    uses]
  rw [Option.bind_eq_some_iff]
  constructor
  · rintro ⟨found, gets, ends⟩
    rw [walk] at gets
    cases found with
    | none =>
        cases ends
        exact .without gets (by simp)
    | some attr =>
        simp only at ends
        split_ifs at ends with empty
        · cases ends
          exact .without gets (by rintro p ⟨⟩; exact empty)
        · exact .content gets empty ((spec (small _)).mp ends)
  · rintro (⟨finds, nothing⟩ | ⟨finds, filled, uses⟩)
    · rename_i found
      refine ⟨found, (walk found).mpr finds, ?_⟩
      cases found with
      | none => rfl
      | some attr =>
          simp only
          rw [if_pos (nothing attr rfl)]
    · refine ⟨_, (walk _).mpr finds, ?_⟩
      simp only
      rw [if_neg filled, spec (small _)]
      exact uses

end Contents

/-! ## What is done with the elements -/

section Elements

variable {α : Type} {limit frameBody : Nat} {len : UInt32}

/-- Where the elements of a frame end, as far as the length of its body counts. -/
def bodyEnd (frameBody : Nat) (len : UInt32) : Nat :=
  frameBody + publicActionIeOffset + (signed (len - UInt32.ofNat publicActionIeOffset)).toNat

/-- The element that the next lookup gives. -/
def nextAt (buf : Mem) (ends inIe : Nat) : Option Nat :=
  (firstTaken (behind buf inIe) Frame.Vendor.p2pOui (ends - inIe) 0).map (inIe + ·)

def foundOf (buf : Mem) : Option Nat → FoundIe
  | none => ⟨none, [], some 0⟩
  | some ie => foundAt buf false true (some 0) ie

theorem nextAt_direct {buf : Mem} {ends inIe ie : Nat} (room : inIe < ends → ends ≤ limit)
    (next : nextAt buf ends inIe = some ie) :
    inIe ≤ ie ∧ ie + 6 ≤ ends ∧ DirectIe buf limit ie := by
  obtain ⟨cnt, taken, rfl⟩ := Option.map_eq_some_iff.mp next
  have six := firstTaken_room taken
  have hit := List.find?_some taken
  rw [takenAt, Bool.and_eq_true, ← ouiAt_eq, ouiAt, Bool.and_eq_true, beq_iff_eq, beq_iff_eq,
    wfMemcmp_eq_zero (by simp)] at hit
  have inner := room (by omega)
  exact ⟨by omega, by omega, hit.1.1, hit.1.2, by omega⟩

theorem nextAt_past {buf : Mem} {ends inIe : Nat} (past : ends ≤ inIe) :
    nextAt buf ends inIe = none := by
  rw [nextAt, firstTaken_out (by omega)]
  rfl

theorem signed_pos {len : UInt32} (pos : 0 < signed len) : signed len = len.toNat := by
  unfold signed at pos ⊢
  rw [BitVec.toInt_eq_toNat_cond] at pos ⊢
  split_ifs at pos ⊢ with small
  · rfl
  · have bound := len.toBitVec.isLt
    omega

theorem signed_sub {len : UInt32} {k : Nat} (pos : 0 < signed len)
    (near : k ≤ len.toNat + 257) : signed (len - UInt32.ofNat k) = (len.toNat : Int) - k := by
  have same := signed_pos pos
  have small : len.toNat < 2 ^ 31 := by
    have less : signed len < 2 ^ 31 := by
      have bound := @BitVec.toInt_lt 32 len.toBitVec
      exact bound
    omega
  have step : (UInt32.ofNat k).toNat = k := UInt32.toNat_ofNat_of_lt' (by
    change k < 2 ^ 32
    omega)
  have value : (len - UInt32.ofNat k).toBitVec.toNat = (2 ^ 32 - k + len.toNat) % 2 ^ 32 := by
    change (len - UInt32.ofNat k).toNat = _
    rw [UInt32.toNat_sub, step]
  rw [signed, BitVec.toInt_eq_toNat_cond, value]
  split_ifs with half <;> omega

/-- The first lookup, and one behind an element that was found. -/
theorem nextIe_eq {buf : Mem} {inIe : Nat}
    (room : frameBody + publicActionIeOffset < bodyEnd frameBody len →
      bodyEnd frameBody len ≤ limit)
    (start : frameBody + publicActionIeOffset ≤ inIe)
    (near : inIe = frameBody + publicActionIeOffset ∨
      frameBody + publicActionIeOffset < bodyEnd frameBody len ∧
        inIe ≤ bodyEnd frameBody len + 257) :
    nextIe limit frameBody len buf inIe =
      some (foundOf buf (nextAt buf (bodyEnd frameBody len) inIe)) := by
  have left : (signed (len - UInt32.ofNat publicActionIeOffset -
      UInt32.ofNat (inIe - (frameBody + publicActionIeOffset)))).toNat =
        bodyEnd frameBody len - inIe := by
    rcases near with rfl | ⟨filled, near⟩
    · rw [Nat.sub_self, bodyEnd]
      change (signed (_ - 0)).toNat = _
      rw [UInt32.sub_zero]
      omega
    · unfold bodyEnd at filled near ⊢
      have pos : 0 < signed (len - UInt32.ofNat publicActionIeOffset) := by omega
      have same := signed_pos pos
      rw [signed_sub pos (by omega)]
      omega
  rw [nextIe, wfP2pGetIe]
  rcases Nat.lt_or_ge inIe (bodyEnd frameBody len) with inner | past
  · have inside_frame := room (by omega)
    rw [getIe_eq (by omega), left, nextAt]
    cases firstTaken (behind buf inIe) Frame.Vendor.p2pOui (bodyEnd frameBody len - inIe) 0 <;>
      simp [foundOf]
  · rw [nextAt_past past, getIe, if_pos (by omega)]
    rfl

/-- Each element that a lookup gives is worked on, in the frame as it stands then. -/
inductive Walks (ends : Nat) (does : Nat → Nat → Mem × α → Mem × α → Prop) (leave : α → Bool) :
    Nat → Mem × α → Mem × α → Prop where
  | gone {inIe : Nat} {s : Mem × α} (last : nextAt s.1 ends inIe = none) :
      Walks ends does leave inIe s s
  | left {inIe ie : Nat} {s s' : Mem × α} (next : nextAt s.1 ends inIe = some ie)
      (here : does ie (ieSize s.1 ie + 2) s s') (leaves : leave s'.2 = true) :
      Walks ends does leave inIe s s'
  | on {inIe ie : Nat} {s s₁ s' : Mem × α} (next : nextAt s.1 ends inIe = some ie)
      (here : does ie (ieSize s.1 ie + 2) s s₁) (stays : leave s₁.2 = false)
      (rest : Walks ends does leave (ie + (ieSize s.1 ie + 2)) s₁ s') :
      Walks ends does leave inIe s s'

variable {each : Nat → Nat → Mem × α → Option (Mem × α)}
  {does : Nat → Nat → Mem × α → Mem × α → Prop} {leave : α → Bool}

theorem elementsLoop_none {fuel : Nat} {s : Mem × α} :
    elementsLoop limit frameBody len each leave (fuel + 1) (foundOf s.1 none) s = some s := rfl

theorem elementsLoop_some {fuel ie : Nat} {s : Mem × α} :
    elementsLoop limit frameBody len each leave (fuel + 1) (foundOf s.1 (some ie)) s =
      (each ie (ieSize s.1 ie + 2) s).bind fun s₁ =>
        if leave s₁.2 then some s₁
        else (nextIe limit frameBody len s₁.1 (ie + (ieSize s.1 ie + 2))).bind fun found =>
          elementsLoop limit frameBody len each leave fuel found s₁ := rfl

theorem elementsLoop_iff
    (room : frameBody + publicActionIeOffset < bodyEnd frameBody len →
      bodyEnd frameBody len ≤ limit)
    (spec : frameBody + publicActionIeOffset < bodyEnd frameBody len →
      ∀ {ie ielen : Nat} {s s' : Mem × α}, DirectIe s.1 limit ie →
        (each ie ielen s = some s' ↔ does ie ielen s s'))
    {fuel inIe : Nat} {s s' : Mem × α} (start : frameBody + publicActionIeOffset ≤ inIe)
    (enough : bodyEnd frameBody len ≤ inIe + fuel) :
    elementsLoop limit frameBody len each leave (fuel + 1)
        (foundOf s.1 (nextAt s.1 (bodyEnd frameBody len) inIe)) s = some s' ↔
      Walks (bodyEnd frameBody len) does leave inIe s s' := by
  induction fuel generalizing inIe s with
  | zero =>
      have last : nextAt s.1 (bodyEnd frameBody len) inIe = none := nextAt_past enough
      rw [last, elementsLoop_none, Option.some_inj]
      constructor
      · rintro rfl
        exact .gone last
      · rintro (last | ⟨next, -, -⟩ | ⟨next, -, -, -⟩)
        · rfl
        · rw [last] at next
          cases next
        · rw [last] at next
          cases next
  | succ fuel ih =>
      cases next : nextAt s.1 (bodyEnd frameBody len) inIe with
      | none =>
          rw [elementsLoop_none, Option.some_inj]
          constructor
          · rintro rfl
            exact .gone next
          · rintro (last | ⟨other, -, -⟩ | ⟨other, -, -, -⟩)
            · rfl
            · rw [next] at other
              cases other
            · rw [next] at other
              cases other
      | some ie =>
          obtain ⟨behind_start, six, direct⟩ := nextAt_direct (fun _ => room (by omega)) next
          have filled : frameBody + publicActionIeOffset < bodyEnd frameBody len := by omega
          have byte := Frame.ieSize_lt s.1 ie
          have again (s₁ : Mem × α) :
              nextIe limit frameBody len s₁.1 (ie + (ieSize s.1 ie + 2)) =
                some (foundOf s₁.1 (nextAt s₁.1 (bodyEnd frameBody len)
                  (ie + (ieSize s.1 ie + 2)))) :=
            nextIe_eq room (by omega) (Or.inr (by omega))
          simp only [elementsLoop_some, again, Option.bind_some, Option.bind_eq_some_iff,
            spec filled direct]
          constructor
          · rintro ⟨s₁, here, ends⟩
            split_ifs at ends with leaves
            · cases ends
              exact .left next here leaves
            · rw [ih (by omega) (by omega)] at ends
              exact .on next here (by simpa using leaves) ends
          · rintro (last | ⟨other, here, leaves⟩ | ⟨other, here, stays, rest⟩)
            · rw [next] at last
              cases last
            · rw [next] at other
              cases other
              exact ⟨_, here, by rw [if_pos leaves]⟩
            · rw [next] at other
              cases other
              refine ⟨_, here, ?_⟩
              rw [if_neg (by simp [stays]), ih (by omega) (by omega)]
              exact rest

theorem inElements_iff
    (room : frameBody + publicActionIeOffset < bodyEnd frameBody len →
      bodyEnd frameBody len ≤ limit)
    (spec : frameBody + publicActionIeOffset < bodyEnd frameBody len →
      ∀ {ie ielen : Nat} {s s' : Mem × α}, DirectIe s.1 limit ie →
        (each ie ielen s = some s' ↔ does ie ielen s s'))
    {flag : UInt8} {s s' : Mem × α} :
    inElements limit frameBody len each leave flag s = some s' ↔
      if flag = 0 then s' = s
      else Walks (bodyEnd frameBody len) does leave (frameBody + publicActionIeOffset) s s' := by
  have first : nextIe limit frameBody len s.1 (frameBody + publicActionIeOffset) =
      some (foundOf s.1 (nextAt s.1 (bodyEnd frameBody len) (frameBody + publicActionIeOffset))) :=
    nextIe_eq room (Nat.le_refl _) (Or.inl rfl)
  rw [inElements, first, Option.bind_eq_bind, Option.bind_some]
  split_ifs
  · rw [Option.some_inj, eq_comm]
  · have enough : bodyEnd frameBody len ≤ frameBody + publicActionIeOffset + limit := by
      rcases Nat.lt_or_ge (frameBody + publicActionIeOffset) (bodyEnd frameBody len) with
        filled | empty
      · have inner := room filled
        omega
      · omega
    exact elementsLoop_iff room spec (Nat.le_refl _) enough

/-- Without `flag` nothing can go wrong. -/
theorem inElements_isSome
    (room : frameBody + publicActionIeOffset < bodyEnd frameBody len →
      bodyEnd frameBody len ≤ limit)
    (spec : frameBody + publicActionIeOffset < bodyEnd frameBody len →
      ∀ {ie ielen : Nat} {s s' : Mem × α}, DirectIe s.1 limit ie →
        (each ie ielen s = some s' ↔ does ie ielen s s'))
    {flag : UInt8} {s : Mem × α} :
    (inElements limit frameBody len each leave flag s).isSome ↔ (flag ≠ 0 →
      ∃ s', Walks (bodyEnd frameBody len) does leave (frameBody + publicActionIeOffset) s s') := by
  rw [Option.isSome_iff_exists]
  simp only [inElements_iff room spec]
  split_ifs with off <;> simp [off]

end Elements

/-! ## What the functions do -/

section Does

variable (limit : Nat) (ch : UInt8)

def MatchedList (p2pIe p2pIelen : Nat) (s s' : Mem × Bool) : Prop :=
  WithContent limit p2pAttrChList (ListEntries limit (MatchedEntry limit ch)) p2pIe p2pIelen s s'

def FilledList (p2pIe p2pIelen : Nat) (s s' : Mem × Unit) : Prop :=
  WithContent limit p2pAttrChList (ListEntries limit (FilledEntry limit ch)) p2pIe p2pIelen s s'

def CollectedList (p2pIe p2pIelen : Nat) (s s' : Mem × List UInt8) : Prop :=
  WithContent limit p2pAttrChList (ListEntries limit (CollectedEntry limit)) p2pIe p2pIelen s s'

def Logged (pattr contentlen : Nat) : Prop := pattr + contentlen % 65536 ≤ limit

/-- A list and an operating channel are logged before they are written to. -/
def AdjustedElement (p2pIe p2pIelen : Nat) (s s' : Mem × Unit) : Prop :=
  ∃ s₁, WithContent limit p2pAttrChList (fun pattr contentlen s s' =>
      Logged limit pattr contentlen ∧
        ListEntries limit (FilledEntry limit ch) pattr contentlen s s') p2pIe p2pIelen s s₁ ∧
    WithContent limit p2pAttrOperatingCh (fun pattr contentlen s s' =>
      Logged limit pattr contentlen ∧ pattr + 5 ≤ limit ∧
        s'.1 = Function.update s.1 (pattr + 4) ch) p2pIe p2pIelen s₁ s'

def MatchedOpCh (p2pIe p2pIelen : Nat) (s s' : Mem × Bool) : Prop :=
  WithContent limit p2pAttrOperatingCh (fun pattr _ s s' =>
    pattr + 5 ≤ limit ∧ s' = (s.1, s.2 || s.1 (pattr + 4) == ch)) p2pIe p2pIelen s s'

end Does

section Functions

variable {limit frameBody : Nat} {len : UInt32} {buf : Mem} {ch : UInt8}

theorem logArray_iff {α : Type} {pattr contentlen : Nat} {rest : Option α} {a : α}
    (word : contentlen < 2 ^ 32) :
    ((logArray limit pattr (UInt32.ofNat contentlen)).bind fun _ => rest) = some a ↔
      Logged limit pattr contentlen ∧ rest = some a := by
  rw [logArray, UInt32.toNat_ofNat_of_lt' word, Logged]
  rcases Nat.lt_or_ge limit (pattr + contentlen % 65536) with out | fits
  · have faults : inside limit pattr (contentlen % 65536) = none := if_neg (by omega)
    rw [faults]
    constructor
    · rintro ⟨⟩
    · rintro ⟨fits, -⟩
      omega
  · have looks : inside limit pattr (contentlen % 65536) = some () := if_pos fits
    simp [looks, fits]

theorem fillOpCh_iff {pattr : Nat} {s s' : Mem × Unit} :
    fillOpCh limit ch pattr s = some s' ↔
      pattr + 5 ≤ limit ∧ s'.1 = Function.update s.1 (pattr + 4) ch := by
  obtain ⟨buf', ⟨⟩⟩ := s'
  rw [fillOpCh]
  rcases Nat.lt_or_ge limit (pattr + 5) with out | fits
  · have faults : inside limit (pattr + 4) 1 = none := if_neg (by omega)
    simp only [faults, Option.bind_eq_bind, Option.bind_none, reduceCtorEq, false_iff]
    omega
  · have looks : inside limit (pattr + 4) 1 = some () := if_pos (by omega)
    simp [looks, fits, eq_comm]

theorem matchOpCh_iff {pattr : Nat} {s s' : Mem × Bool} :
    matchOpCh limit ch pattr s = some s' ↔
      pattr + 5 ≤ limit ∧ s' = (s.1, s.2 || s.1 (pattr + 4) == ch) := by
  rw [matchOpCh]
  rcases Nat.lt_or_ge limit (pattr + 5) with out | fits
  · have faults : inside limit (pattr + 4) 1 = none := if_neg (by omega)
    simp only [faults, Option.bind_eq_bind, Option.bind_none, reduceCtorEq, false_iff]
    omega
  · have looks : inside limit (pattr + 4) 1 = some () := if_pos (by omega)
    simp [looks, fits, eq_comm]

theorem finds_from {target : UInt8} {ie ielen start attr : Nat}
    (finds : Finds Mem.readLe16 buf limit ie ielen target start (some attr)) : start ≤ attr := by
  generalize result : some attr = found at finds
  induction finds with
  | out => cases result
  | cut => cases result
  | here =>
      cases result
      exact Nat.le_refl _
  | on _ _ _ _ _ _ ih =>
      have later := ih result
      omega

/-- What is in front of a list stays. -/
theorem filled_before {temp left i : Nat} {s s' : Mem × Unit} (before : i < temp)
    (fits : Entries limit (FilledEntry limit ch) temp left s s') : s'.1 i = s.1 i := by
  induction fits with
  | done => rfl
  | entry head whole visits rest ih =>
      rw [ih (by omega), visits.2, Mem.write_before _ _ (by omega)]

theorem filledList_direct {p2pIe p2pIelen : Nat} {s s' : Mem × Unit} {used : Nat → Nat → Prop}
    (element : DirectIe s.1 limit p2pIe)
    (filled : WithContent limit p2pAttrChList (fun pattr contentlen s s' =>
      used pattr contentlen ∧ ListEntries limit (FilledEntry limit ch) pattr contentlen s s')
      p2pIe p2pIelen s s') : DirectIe s'.1 limit p2pIe := by
  have kept {i : Nat} (front : i < p2pIe + 6) : s'.1 i = s.1 i := by
    cases filled with
    | without => rfl
    | content finds _ uses =>
        have six := finds_from finds
        exact filled_before (by omega) uses.2.2
  refine ⟨?_, ?_, element.six⟩
  · rw [kept (by omega)]
    exact element.id
  · rw [← element.oui, Mem.read_eq_iff]
    intro i few
    exact kept (by omega)

theorem adjustElement_iff (small : limit + 1024 ≤ 2 ^ 32) {p2pIe p2pIelen : Nat}
    {s s' : Mem × Unit} (element : DirectIe s.1 limit p2pIe) :
    adjustElement limit ch p2pIe p2pIelen s = some s' ↔
      AdjustedElement limit ch p2pIe p2pIelen s s' := by
  rw [adjustElement, AdjustedElement, Option.bind_eq_bind, Option.bind_eq_some_iff]
  have list (s₁ : Mem × Unit) := @withContent_iff _ limit p2pAttrChList
    (fun pattr contentlen s => do
      logArray limit pattr contentlen
      listEntries limit (fillEntry limit ch) pattr contentlen s)
    (fun pattr contentlen s s' => Logged limit pattr contentlen ∧
        ListEntries limit (FilledEntry limit ch) pattr contentlen s s') p2pIe p2pIelen s s₁ element
    (by
      intro pattr contentlen s s' word
      rw [← listEntries_iff small (fun head => fillEntry_iff head) word, ← logArray_iff word]
      rfl)
  have channel (s₁ : Mem × Unit) (element : DirectIe s₁.1 limit p2pIe) :=
    @withContent_iff _ limit p2pAttrOperatingCh
    (fun pattr contentlen s => do
      logArray limit pattr contentlen
      fillOpCh limit ch pattr s)
    (fun pattr contentlen s s' => Logged limit pattr contentlen ∧ pattr + 5 ≤ limit ∧
        s'.1 = Function.update s.1 (pattr + 4) ch) p2pIe p2pIelen s₁ s' element
    (by
      intro pattr contentlen s s' word
      rw [← fillOpCh_iff, ← logArray_iff word]
      rfl)
  constructor
  · rintro ⟨s₁, first, second⟩
    rw [list] at first
    rw [channel s₁ (filledList_direct element first)] at second
    exact ⟨s₁, first, second⟩
  · rintro ⟨s₁, first, second⟩
    refine ⟨s₁, (list s₁).mpr first, ?_⟩
    rw [channel s₁ (filledList_direct element first)]
    exact second

theorem matchedList_iff (small : limit + 1024 ≤ 2 ^ 32) {p2pIe p2pIelen : Nat}
    {s s' : Mem × Bool} (element : DirectIe s.1 limit p2pIe) :
    withContent limit p2pAttrChList (listEntries limit (matchEntry limit ch)) p2pIe p2pIelen s =
      some s' ↔ MatchedList limit ch p2pIe p2pIelen s s' :=
  withContent_iff element fun word =>
    listEntries_iff small (fun head => matchEntry_iff head) word

theorem filledList_iff (small : limit + 1024 ≤ 2 ^ 32) {p2pIe p2pIelen : Nat}
    {s s' : Mem × Unit} (element : DirectIe s.1 limit p2pIe) :
    withContent limit p2pAttrChList (listEntries limit (fillEntry limit ch)) p2pIe p2pIelen s =
      some s' ↔ FilledList limit ch p2pIe p2pIelen s s' :=
  withContent_iff element fun word =>
    listEntries_iff small (fun head => fillEntry_iff head) word

theorem collectedList_iff (small : limit + 1024 ≤ 2 ^ 32) {p2pIe p2pIelen : Nat}
    {s s' : Mem × List UInt8} (element : DirectIe s.1 limit p2pIe) :
    withContent limit p2pAttrChList (listEntries limit (collectEntry limit)) p2pIe p2pIelen s =
      some s' ↔ CollectedList limit p2pIe p2pIelen s s' :=
  withContent_iff element fun word =>
    listEntries_iff small (fun head => collectEntry_iff head) word

theorem matchedOpCh_iff {p2pIe p2pIelen : Nat} {s s' : Mem × Bool}
    (element : DirectIe s.1 limit p2pIe) :
    withContent limit p2pAttrOperatingCh (fun pattr _ => matchOpCh limit ch pattr) p2pIe p2pIelen
      s = some s' ↔ MatchedOpCh limit ch p2pIe p2pIelen s s' :=
  withContent_iff element fun _ => matchOpCh_iff

/-- A frame as long as its length says, where a length of 2 GiB counts as none. -/
theorem body_room (whole : limit = frameBody + len.toNat) (head : frameBody < 2 ^ 30)
    (filled : frameBody + publicActionIeOffset < bodyEnd frameBody len) :
    bodyEnd frameBody len ≤ limit ∧ limit + 1024 ≤ 2 ^ 32 := by
  unfold bodyEnd at filled ⊢
  have pos : 0 < signed (len - UInt32.ofNat publicActionIeOffset) := by omega
  have same := signed_pos pos
  have less : signed (len - UInt32.ofNat publicActionIeOffset) < 2 ^ 31 :=
    @BitVec.toInt_lt 32 (len - UInt32.ofNat publicActionIeOffset).toBitVec
  have eight : (UInt32.ofNat publicActionIeOffset).toNat = 8 := rfl
  have long : publicActionIeOffset = 8 := rfl
  rw [UInt32.toNat_sub, eight] at same
  have bound := len.toNat_lt
  omega

section Whole

variable (whole : limit = frameBody + len.toNat) (head : frameBody < 2 ^ 30)
variable {flag : UInt8} (on : flag ≠ 0)
include whole head on

theorem p2pCheckChListWithBuddy_iff {fit : Bool} :
    p2pCheckChListWithBuddy limit frameBody len buf ch flag = some fit ↔
      ∃ s', Walks (bodyEnd frameBody len) (MatchedList limit ch) (fun _ => false)
        (frameBody + publicActionIeOffset) (buf, false) s' ∧ s'.2 = fit := by
  rw [p2pCheckChListWithBuddy, Option.map_eq_some_iff]
  simp only [inElements_iff (fun filled => (body_room whole head filled).1)
    (fun filled => matchedList_iff (body_room whole head filled).2),
    if_neg on]

theorem p2pAdjustChannel_iff {buf' : Mem} :
    p2pAdjustChannel limit frameBody len buf ch flag = some buf' ↔
      ∃ s', Walks (bodyEnd frameBody len) (AdjustedElement limit ch) (fun _ => false)
        (frameBody + publicActionIeOffset) (buf, ()) s' ∧ s'.1 = buf' := by
  rw [p2pAdjustChannel, Option.map_eq_some_iff]
  simp only [inElements_iff (fun filled => (body_room whole head filled).1)
    (fun filled => adjustElement_iff (body_room whole head filled).2),
    if_neg on]

theorem p2pChangeP2pieChList_iff {buf' : Mem} :
    p2pChangeP2pieChList limit frameBody len buf ch flag = some buf' ↔
      ∃ s', Walks (bodyEnd frameBody len) (FilledList limit ch) (fun _ => false)
        (frameBody + publicActionIeOffset) (buf, ()) s' ∧ s'.1 = buf' := by
  rw [p2pChangeP2pieChList, Option.map_eq_some_iff]
  simp only [inElements_iff (fun filled => (body_room whole head filled).1)
    (fun filled => filledList_iff (body_room whole head filled).2),
    if_neg on]

theorem p2pCheckP2pieOpChWithBuddy_iff {fit : Bool} :
    p2pCheckP2pieOpChWithBuddy limit frameBody len buf ch flag = some fit ↔
      ∃ s', Walks (bodyEnd frameBody len) (MatchedOpCh limit ch) id
        (frameBody + publicActionIeOffset) (buf, false) s' ∧ s'.2 = fit := by
  rw [p2pCheckP2pieOpChWithBuddy, Option.map_eq_some_iff]
  simp only [inElements_iff (fun filled => (body_room whole head filled).1)
    (fun _ => matchedOpCh_iff), if_neg on]

end Whole

theorem length_channelText (ch : UInt8) : (channelText ch).length ≤ 2 := by
  unfold channelText
  split_ifs <;> simp

theorem length_chListText (chList : List UInt8) :
    (chListText chList).length ≤ 3 * chList.length := by
  have joined : ∀ texts : List (List UInt8), (∀ text ∈ texts, text.length ≤ 2) →
      ([44].intercalate texts).length ≤ 3 * texts.length := by
    intro texts short
    induction texts with
    | nil => simp
    | cons text texts ih =>
        have here := short text List.mem_cons_self
        have rest := ih fun text among => short text (List.mem_cons_of_mem _ among)
        cases texts with
        | nil =>
            simp only [List.intercalate_singleton, List.length_cons, List.length_nil]
            omega
        | cons second texts =>
            rw [List.intercalate_cons_cons]
            simp only [List.length_append, List.length_cons, List.length_nil] at rest ⊢
            omega
  have all := joined (chList.map channelText) (by
    intro text among
    obtain ⟨ch, -, rfl⟩ := List.mem_map.mp among
    exact length_channelText ch)
  rw [List.length_map] at all
  exact all

/-- There are never more channels than places. -/
theorem collected_length {temp left : Nat} {s s' : Mem × List UInt8}
    (fits : Entries limit (CollectedEntry limit) temp left s s')
    (few : s.2.length ≤ chListSize) : s'.2.length ≤ chListSize := by
  induction fits with
  | done => exact few
  | entry head whole visits rest ih =>
      apply ih
      rcases visits.2.2.2 with same | few'
      · rw [same]
        exact few
      · exact few'

/-- The text has room where the channels have. -/
theorem p2pDumpAttrChList_iff (small : limit + 1024 ≤ 2 ^ 32) {p2pIe p2pIelen : Nat}
    (element : DirectIe buf limit p2pIe) {text : List UInt8} :
    p2pDumpAttrChList limit buf p2pIe p2pIelen 128 = some text ↔
      ∃ s', CollectedList limit p2pIe p2pIelen (buf, []) s' ∧ chListText s'.2 = text := by
  rw [p2pDumpAttrChList, Option.bind_eq_bind, Option.bind_eq_some_iff]
  have list (s' : Mem × List UInt8) := @collectedList_iff limit small p2pIe p2pIelen (buf, []) s'
    element
  have room {s' : Mem × List UInt8} (collected : CollectedList limit p2pIe p2pIelen (buf, []) s') :
      inside 128 0 (chListText s'.2).length = some () := by
    have few : s'.2.length ≤ chListSize := by
      cases collected with
      | without => exact Nat.zero_le _
      | content _ _ uses => exact collected_length uses.2 (Nat.zero_le _)
    have short := length_chListText s'.2
    unfold chListSize at few
    exact if_pos (by omega)
  constructor
  · rintro ⟨s', collects, ends⟩
    rw [list] at collects
    rw [room collects] at ends
    exact ⟨s', collects, Option.some_inj.mp ends⟩
  · rintro ⟨s', collects, rfl⟩
    exact ⟨s', (list s').mpr collects, by rw [room collects]; rfl⟩

end Functions

end Smartchip.P2p.Channels
