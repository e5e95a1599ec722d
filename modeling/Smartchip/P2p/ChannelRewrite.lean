import Mathlib.Data.List.Find
import Smartchip.P2p.ChannelList

/-!
# Channel lists of well-formed frames

Which channels the lookups come to in a frame that is well-formed, and what has become of the frame
when all of them have been written.
-/

namespace Smartchip.P2p.Channels

open Smartchip.Foundation Smartchip.Frame.Vendor
open Smartchip.Frame (ieSize)

/-! ## Well-formed frames -/

/-- The places of the channels, where entries fill what is left of a list. -/
inductive ChannelsAt (buf : Mem) : Nat → Nat → List Nat → Prop where
  | nil {temp : Nat} : ChannelsAt buf temp 0 []
  | entry {temp left : Nat} {places : List Nat} (whole : 2 + (buf (temp + 1)).toNat ≤ left)
      (rest : ChannelsAt buf (temp + (2 + (buf (temp + 1)).toNat))
        (left - (2 + (buf (temp + 1)).toNat)) places) :
      ChannelsAt buf temp left (List.range' (temp + 2) (buf (temp + 1)).toNat ++ places)

/-- The places of the channels of the list at `attr`, which follow its country string. -/
def ListAt (buf : Mem) (ie attr : Nat) (places : List Nat) : Prop :=
  ChannelsAt buf (ie + attr + 6) (attrSize Mem.readLe16 buf ie attr - 3) places

structure AttrFormed (buf : Mem) (ie attr : Nat) : Prop where
  list : buf (ie + attr) = p2pAttrChList →
    3 ≤ attrSize Mem.readLe16 buf ie attr ∧ ∃ places, ListAt buf ie attr places
  channel : buf (ie + attr) = p2pAttrOperatingCh → 5 ≤ attrSize Mem.readLe16 buf ie attr

/-- The attributes of a P2P element. -/
def attrsOf (buf : Mem) (ie : Nat) : List Nat :=
  records 3 (attrSize Mem.readLe16 buf ie) (ieSize buf ie + 2) 6

structure DirectFormed (buf : Mem) (ie : Nat) : Prop where
  tiles : Tiles 3 (attrSize Mem.readLe16 buf ie) (ieSize buf ie + 2) 6
  attrs : ∀ attr ∈ attrsOf buf ie, AttrFormed buf ie attr

/-- The P2P elements from a place on. -/
def directIes (buf : Mem) (ends start : Nat) : List Nat :=
  (records 2 (ieSize buf) ends start).filter ((ouiTest Frame.Vendor.p2pOui).wanted buf)

/-- Elements fill the frame, and attributes each P2P element. -/
structure BodyFormed (buf : Mem) (ends start : Nat) : Prop where
  tiles : Tiles 2 (ieSize buf) ends start
  direct : ∀ ie ∈ directIes buf ends start, DirectFormed buf ie

/-! ## Places of channels -/

section Places

variable (buf : Mem) (ie : Nat)

/-- A channel of some channel list of the element. -/
def Listed (place : Nat) : Prop :=
  ∃ attr ∈ attrsOf buf ie, buf (ie + attr) = p2pAttrChList ∧
    ∃ places, ListAt buf ie attr places ∧ place ∈ places

/-- The channel of some operating channel of the element. -/
def Operating (place : Nat) : Prop :=
  ∃ attr ∈ attrsOf buf ie, buf (ie + attr) = p2pAttrOperatingCh ∧ place = ie + attr + 7

/-- A channel of the first channel list. -/
def FirstListed (place : Nat) : Prop :=
  ∃ attr ∈ firstAttr Mem.readLe16 buf ie (ieSize buf ie + 2) p2pAttrChList,
    ∃ places, ListAt buf ie attr places ∧ place ∈ places

def FirstOperating (place : Nat) : Prop :=
  ∃ attr ∈ firstAttr Mem.readLe16 buf ie (ieSize buf ie + 2) p2pAttrOperatingCh,
    place = ie + attr + 7

/-- The elements that the lookups come to one after another. -/
inductive Reached (buf : Mem) (ends : Nat) : Nat → Nat → Prop where
  | here {inIe ie : Nat} (next : nextAt buf ends inIe = some ie) : Reached buf ends inIe ie
  | later {inIe first ie : Nat} (next : nextAt buf ends inIe = some first)
      (rest : Reached buf ends (first + (ieSize buf first + 2)) ie) : Reached buf ends inIe ie

/-- The channel is at these places, and nothing else has changed. -/
def Painted (buf buf' : Mem) (ch : UInt8) (places : Nat → Prop) : Prop :=
  (∀ i, places i → buf' i = ch) ∧ ∀ i, ¬ places i → buf' i = buf i

/-- The buffers are the same from a place on. -/
def SameFrom (start : Nat) (buf other : Mem) : Prop := ∀ i, start ≤ i → other i = buf i

end Places

/-! ## Lists -/

section Lists

variable {limit : Nat} {buf other : Mem} {ch : UInt8} {temp left : Nat} {places : List Nat}

theorem channelsAt_bounds (list : ChannelsAt buf temp left places) {place : Nat}
    (among : place ∈ places) : temp + 2 ≤ place ∧ place < temp + left := by
  induction list with
  | nil => cases among
  | entry whole rest ih =>
      rcases List.mem_append.mp among with here | later
      · rw [List.mem_range'_1] at here
        omega
      · have bounds := ih later
        omega

theorem channelsAt_unique {places' : List Nat} (list : ChannelsAt buf temp left places)
    (list' : ChannelsAt buf temp left places') : places' = places := by
  induction list generalizing places' with
  | nil =>
      generalize nothing : 0 = left at list'
      cases list' with
      | nil => rfl
      | entry whole => omega
  | entry whole rest ih =>
      cases list' with
      | nil => omega
      | entry _ rest' => rw [ih rest']

/-- All channels of a list inside of the frame are written, in a frame with the same list. -/
theorem filled_channels (list : ChannelsAt buf temp left places) (inner : temp + left ≤ limit)
    (same : SameFrom temp buf other) :
    ∃ other', Entries limit (FilledEntry limit ch) temp left (other, ()) (other', ()) ∧
      Painted other other' ch (· ∈ places) := by
  induction list generalizing other with
  | nil => exact ⟨other, .done, by simp [Painted]⟩
  | @entry temp left places whole rest ih =>
      have count : other (temp + 1) = buf (temp + 1) := same _ (by omega)
      have after {i : Nat} (behind : temp + (2 + (buf (temp + 1)).toNat) ≤ i) :
          other.write (temp + 2) (List.replicate (buf (temp + 1)).toNat ch) i = other i :=
        Mem.write_after _ (by rw [List.length_replicate]; omega)
      have rest_same : SameFrom (temp + (2 + (buf (temp + 1)).toNat)) buf
          (other.write (temp + 2) (List.replicate (buf (temp + 1)).toNat ch)) := by
        intro i behind
        rw [after behind]
        exact same i (by omega)
      obtain ⟨other', fits, painted, kept⟩ := ih (by omega) rest_same
      have filled : FilledEntry limit ch (temp + 2) (buf (temp + 1)).toNat (other, ())
          (other.write (temp + 2) (List.replicate (buf (temp + 1)).toNat ch), ()) :=
        ⟨by omega, rfl⟩
      refine ⟨other', ?_, ?_, ?_⟩
      · rw [← count] at whole filled fits
        exact .entry (by omega) whole filled fits
      · intro i among
        rcases Decidable.em (i ∈ places) with later | not_later
        · exact painted i later
        · have here := (List.mem_append.mp among).resolve_right not_later
          rw [List.mem_range'_1] at here
          rw [kept i not_later]
          obtain ⟨k, rfl⟩ := Nat.exists_eq_add_of_le here.1
          have few : k < (List.replicate (buf (temp + 1)).toNat ch).length := by
            rw [List.length_replicate]
            omega
          have written := Mem.write_inside other (temp + 2) few
          rw [List.getElem?_replicate, if_pos (by omega)] at written
          exact Option.some_inj.mp written
      · intro i not_among
        simp only [List.mem_append, not_or, List.mem_range'_1] at not_among
        rw [kept i not_among.2]
        rcases Nat.lt_or_ge i (temp + 2) with before | from_here
        · exact Mem.write_before _ _ before
        · exact after (by omega)

/-- A channel of a list inside of the frame is met. -/
theorem matched_channels (list : ChannelsAt buf temp left places) (inner : temp + left ≤ limit)
    (fit : Bool) :
    ∃ fit', Entries limit (MatchedEntry limit ch) temp left (buf, fit) (buf, fit') ∧
      (fit' = true ↔ fit = true ∨ ∃ place ∈ places, buf place = ch) := by
  induction list generalizing fit with
  | nil => exact ⟨fit, .done, by simp⟩
  | @entry temp left places whole rest ih =>
      have meets_iff : Meets limit buf ch (temp + 2) (buf (temp + 1)).toNat ↔
          ∃ place ∈ List.range' (temp + 2) (buf (temp + 1)).toNat, buf place = ch := by
        constructor
        · rintro ⟨i, few, -, equal⟩
          exact ⟨temp + 2 + i, by rw [List.mem_range'_1]; omega, equal⟩
        · rintro ⟨place, here, equal⟩
          rw [List.mem_range'_1] at here
          obtain ⟨i, rfl⟩ := Nat.exists_eq_add_of_le here.1
          exact ⟨i, by omega, by omega, equal⟩
      have split : (∃ place ∈ List.range' (temp + 2) (buf (temp + 1)).toNat ++ places,
          buf place = ch) ↔ Meets limit buf ch (temp + 2) (buf (temp + 1)).toNat ∨
            ∃ place ∈ places, buf place = ch := by
        rw [meets_iff]
        simp only [List.mem_append, or_and_right, exists_or]
      rw [split]
      rcases Classical.em (Meets limit buf ch (temp + 2) (buf (temp + 1)).toNat) with
        meets | misses
      · obtain ⟨fit', fits, iff⟩ := ih (by omega) true
        have matched : MatchedEntry limit ch (temp + 2) (buf (temp + 1)).toNat (buf, fit)
            (buf, true) := ⟨rfl, Or.inl ⟨meets, rfl⟩⟩
        refine ⟨fit', .entry (by omega) whole matched fits, ?_⟩
        simp [iff, meets]
      · obtain ⟨fit', fits, iff⟩ := ih (by omega) fit
        have matched : MatchedEntry limit ch (temp + 2) (buf (temp + 1)).toNat (buf, fit)
            (buf, fit) := ⟨rfl, Or.inr ⟨misses, by omega, rfl⟩⟩
        refine ⟨fit', .entry (by omega) whole matched fits, ?_⟩
        simp [iff, misses]

end Lists

/-! ## One element -/

section Element

variable {α : Type} {limit : Nat} {buf other : Mem} {ie : Nat} {target ch : UInt8}

/-- What a lookup has found is formed, unless it is too short for a P2P element. -/
def FoundFormed (buf : Mem) (ie : Nat) : Prop := 4 ≤ ieSize buf ie → DirectFormed buf ie

/-- The headers of the attributes are as they were. -/
def HeadsSame (buf other : Mem) (ie : Nat) : Prop :=
  ∀ attr ∈ attrsOf buf ie, ∀ k < 3, other (ie + attr + k) = buf (ie + attr + k)

theorem SameFrom.heads (same : SameFrom ie buf other) : HeadsSame buf other ie := by
  intro attr _ k _
  exact same _ (by omega)

theorem ielen_small : ieSize buf ie + 2 < 65536 := by
  have byte := Frame.ieSize_lt buf ie
  omega

theorem attrSize_heads (heads : HeadsSame buf other ie) {attr : Nat}
    (among : attr ∈ attrsOf buf ie) :
    attrSize Mem.readLe16 other ie attr = attrSize Mem.readLe16 buf ie attr := by
  have low := heads attr among 1 (by omega)
  have high := heads attr among 2 (by omega)
  rw [attrSize, attrSize, Mem.readLe16, Mem.readLe16, low, high]

/-- The lookup comes to the first attribute of a formed element. -/
theorem finds_formed (formed : FoundFormed buf ie) (heads : HeadsSame buf other ie)
    (room : ie + (ieSize buf ie + 2) ≤ limit) :
    Finds Mem.readLe16 other limit ie (ieSize buf ie + 2) target 6
      (firstAttr Mem.readLe16 buf ie (ieSize buf ie + 2) target) := by
  rcases Nat.lt_or_ge (ieSize buf ie) 4 with short | long
  · have outside : ¬ CompleteAt 3 (attrSize Mem.readLe16 buf ie) (ieSize buf ie + 2) 6 := by
      unfold CompleteAt
      omega
    rw [firstAttr, records_of_incomplete outside]
    exact .out (by omega)
  · have sizes := (formed long).tiles.congr (by omega) fun attr among => attrSize_heads heads among
    have finds := @finds_of_tiles _ _ limit _ _ target _ sizes.1 room ielen_small
    rw [sizes.2] at finds
    have ids : (attrsOf buf ie).find? (fun attr => other (ie + attr) == target) =
        (attrsOf buf ie).find? (fun attr => buf (ie + attr) == target) :=
      List.find?_congr fun attr among => by
        have id : other (ie + attr) = buf (ie + attr) := heads attr among 0 (by omega)
        rw [id]
    rw [firstAttr]
    change _ = (records _ _ _ _).find? _ at ids
    rw [← ids]
    exact finds

theorem mem_firstAttr {attr : Nat}
    (first : attr ∈ firstAttr Mem.readLe16 buf ie (ieSize buf ie + 2) target) :
    attr ∈ attrsOf buf ie ∧ buf (ie + attr) = target ∧
      CompleteAt 3 (attrSize Mem.readLe16 buf ie) (ieSize buf ie + 2) attr ∧
      4 ≤ ieSize buf ie := by
  have among := List.mem_of_find?_eq_some first
  have wanted := List.find?_some first
  have bounds := mem_records (by omega) among
  refine ⟨among, by simpa using wanted, bounds.2, ?_⟩
  have complete := bounds.2
  unfold CompleteAt at complete
  omega

/-- What a lookup in a formed element is followed by. -/
theorem withContent_formed {used : Nat → Nat → Mem × α → Mem × α → Prop} {s s' : Mem × α}
    (formed : FoundFormed buf ie) (heads : HeadsSame buf s.1 ie)
    (room : ie + (ieSize buf ie + 2) ≤ limit)
    (without : firstAttr Mem.readLe16 buf ie (ieSize buf ie + 2) target = none → s' = s)
    (content : ∀ attr ∈ firstAttr Mem.readLe16 buf ie (ieSize buf ie + 2) target,
      used (ie + attr + 3) (attrSize Mem.readLe16 buf ie attr) s s') :
    WithContent limit target used ie (ieSize buf ie + 2) s s' := by
  have finds := @finds_formed limit _ _ _ target formed heads room
  cases first : firstAttr Mem.readLe16 buf ie (ieSize buf ie + 2) target with
  | none =>
      rw [first] at finds
      rw [without first]
      exact .without finds (by simp)
  | some attr =>
      rw [first] at finds
      obtain ⟨among, -, complete, -⟩ := mem_firstAttr first
      have size := attrSize_heads heads among
      have complete' : CompleteAt 3 (attrSize Mem.readLe16 s.1 ie) (ieSize buf ie + 2) attr := by
        unfold CompleteAt at complete ⊢
        rwa [size]
      refine .content finds (attrLen_ne_zero ielen_small complete') ?_
      rw [contentLen_attrLen ielen_small complete', size]
      exact content attr first

theorem listAt_bounds {attr place : Nat} {places : List Nat} (among : attr ∈ attrsOf buf ie)
    (list : ListAt buf ie attr places) (here : place ∈ places) :
    ie + attr + 8 ≤ place ∧
      place < ie + (attr + (3 + attrSize Mem.readLe16 buf ie attr)) ∧
      place < ie + (ieSize buf ie + 2) := by
  have bounds := channelsAt_bounds list here
  have complete := (mem_records (by omega) among).2
  unfold CompleteAt at complete
  omega

theorem firstListed_bounds {place : Nat} (listed : FirstListed buf ie place) :
    ie ≤ place ∧ place < ie + (ieSize buf ie + 2) := by
  obtain ⟨attr, first, places, list, here⟩ := listed
  have bounds := listAt_bounds (mem_firstAttr first).1 list here
  omega

theorem operating_bounds (formed : FoundFormed buf ie) {place : Nat}
    (operating : FirstOperating buf ie place) :
    ie ≤ place ∧ place < ie + (ieSize buf ie + 2) := by
  obtain ⟨attr, first, rfl⟩ := operating
  obtain ⟨among, id, complete, long⟩ := mem_firstAttr first
  have five := ((formed long).attrs attr among).channel id
  unfold CompleteAt at complete
  omega

theorem Painted.trans {buf' : Mem} {first second : Nat → Prop} (one : Painted buf other ch first)
    (two : Painted other buf' ch second) :
    Painted buf buf' ch fun place => first place ∨ second place := by
  constructor
  · intro i among
    rcases Classical.em (second i) with again | only
    · exact two.1 i again
    · rw [two.2 i only]
      exact one.1 i (among.resolve_right only)
  · intro i not_among
    rw [not_or] at not_among
    rw [two.2 i not_among.2, one.2 i not_among.1]

theorem Painted.none {places : Nat → Prop} (nowhere : ∀ place, ¬ places place) :
    Painted buf buf ch places :=
  ⟨fun i among => absurd among (nowhere i), fun _ _ => rfl⟩

theorem firstListed_none
    (none : firstAttr Mem.readLe16 buf ie (ieSize buf ie + 2) p2pAttrChList = none) (place : Nat) :
    ¬ FirstListed buf ie place := by
  rintro ⟨attr, first, -⟩
  rw [none] at first
  cases first

/-- The channels of the first list are written. -/
theorem fill_firstList (formed : FoundFormed buf ie) (same : SameFrom ie buf other)
    (room : ie + (ieSize buf ie + 2) ≤ limit) {attr : Nat}
    (first : attr ∈ firstAttr Mem.readLe16 buf ie (ieSize buf ie + 2) p2pAttrChList) :
    ∃ other', ListEntries limit (FilledEntry limit ch) (ie + attr + 3)
        (attrSize Mem.readLe16 buf ie attr) (other, ()) (other', ()) ∧
      Painted other other' ch (FirstListed buf ie) := by
  obtain ⟨among, id, complete, long⟩ := mem_firstAttr first
  obtain ⟨three, places, list⟩ := ((formed long).attrs attr among).list id
  unfold CompleteAt at complete
  obtain ⟨other', fits, painted⟩ := @filled_channels limit buf other ch _ _ _ list (by omega)
    (fun i behind => same i (by omega))
  refine ⟨other', ⟨three, fits⟩, ?_⟩
  have places_iff (place : Nat) : FirstListed buf ie place ↔ place ∈ places := by
    constructor
    · rintro ⟨attr', first', places', list', here⟩
      cases Option.some_inj.mp (first.symm.trans first')
      rwa [channelsAt_unique list list'] at here
    · intro here
      exact ⟨attr, first, places, list, here⟩
  simp only [Painted, places_iff]
  exact painted

theorem filledList_formed (formed : FoundFormed buf ie) (same : SameFrom ie buf other)
    (room : ie + (ieSize buf ie + 2) ≤ limit) :
    ∃ other', FilledList limit ch ie (ieSize buf ie + 2) (other, ()) (other', ()) ∧
      Painted other other' ch (FirstListed buf ie) := by
  cases first : firstAttr Mem.readLe16 buf ie (ieSize buf ie + 2) p2pAttrChList with
  | none =>
      refine ⟨other, ?_, .none (firstListed_none first)⟩
      exact withContent_formed formed same.heads room (fun _ => rfl) (by simp [first])
  | some attr =>
      obtain ⟨other', fits, painted⟩ := @fill_firstList limit _ _ _ ch formed same room _ first
      refine ⟨other', ?_, painted⟩
      refine withContent_formed formed same.heads room (by simp [first]) ?_
      intro attr' first'
      cases Option.some_inj.mp (first.symm.trans first')
      exact fits

/-- The channels of a list are no headers of attributes. -/
theorem painted_heads (same : SameFrom ie buf other) {other' : Mem}
    (painted : Painted other other' ch (FirstListed buf ie)) : HeadsSame buf other' ie := by
  intro attr among k few
  rw [painted.2 _ ?_]
  · exact same _ (by omega)
  · rintro ⟨first, is_first, places, list, here⟩
    obtain ⟨first_among, -⟩ := mem_firstAttr is_first
    have bounds := listAt_bounds first_among list here
    rcases records_apart (by omega) among first_among with rfl | before | after
    · omega
    · omega
    · omega

/-- The channels of the first list and the first operating channel are written. -/
theorem adjustedElement_formed (formed : FoundFormed buf ie) (same : SameFrom ie buf other)
    (room : ie + (ieSize buf ie + 2) ≤ limit) :
    ∃ other', AdjustedElement limit ch ie (ieSize buf ie + 2) (other, ()) (other', ()) ∧
      Painted other other' ch fun place => FirstListed buf ie place ∨ FirstOperating buf ie place := by
  have logged {attr : Nat} {target : UInt8}
      (first : attr ∈ firstAttr Mem.readLe16 buf ie (ieSize buf ie + 2) target) :
      Logged limit (ie + attr + 3) (attrSize Mem.readLe16 buf ie attr) := by
    have complete := (mem_firstAttr first).2.2.1
    have less := Nat.mod_le (attrSize Mem.readLe16 buf ie attr) 65536
    unfold CompleteAt at complete
    unfold Logged
    omega
  have lists : ∃ middle, WithContent limit p2pAttrChList (fun pattr contentlen s s' =>
      Logged limit pattr contentlen ∧
        ListEntries limit (FilledEntry limit ch) pattr contentlen s s') ie (ieSize buf ie + 2)
        (other, ()) (middle, ()) ∧ Painted other middle ch (FirstListed buf ie) := by
    cases first : firstAttr Mem.readLe16 buf ie (ieSize buf ie + 2) p2pAttrChList with
    | none =>
        refine ⟨other, ?_, .none (firstListed_none first)⟩
        exact withContent_formed formed same.heads room (fun _ => rfl) (by simp [first])
    | some attr =>
        obtain ⟨middle, fits, painted⟩ := @fill_firstList limit _ _ _ ch formed same room _ first
        refine ⟨middle, ?_, painted⟩
        refine withContent_formed formed same.heads room (by simp [first]) ?_
        intro attr' first'
        cases Option.some_inj.mp (first.symm.trans first')
        exact ⟨logged first, fits⟩
  obtain ⟨middle, listed, painted⟩ := lists
  have heads := painted_heads same painted
  cases first : firstAttr Mem.readLe16 buf ie (ieSize buf ie + 2) p2pAttrOperatingCh with
  | none =>
      have nowhere (place : Nat) : ¬ FirstOperating buf ie place := by
        rintro ⟨attr, is_first, -⟩
        rw [first] at is_first
        cases is_first
      refine ⟨middle, ⟨(middle, ()), listed, ?_⟩, painted.trans (.none nowhere)⟩
      exact withContent_formed formed heads room (fun _ => rfl) (by simp [first])
  | some attr =>
      obtain ⟨among, id, complete, long⟩ := mem_firstAttr first
      have five := ((formed long).attrs attr among).channel id
      unfold CompleteAt at complete
      have operating : Painted middle (Function.update middle (ie + attr + 7) ch) ch
          (FirstOperating buf ie) := by
        constructor
        · rintro i ⟨attr', first', rfl⟩
          cases Option.some_inj.mp (first.symm.trans first')
          exact Function.update_self _ _ _
        · intro i elsewhere
          refine Function.update_of_ne ?_ _ _
          rintro rfl
          exact elsewhere ⟨attr, first, rfl⟩
      refine ⟨Function.update middle (ie + attr + 7) ch, ⟨(middle, ()), listed, ?_⟩,
        painted.trans operating⟩
      refine withContent_formed formed heads room (by simp [first]) ?_
      intro attr' first'
      cases Option.some_inj.mp (first.symm.trans first')
      exact ⟨logged first, by omega, rfl⟩

/-- The channel is met when it is in the first list. -/
theorem matchedList_formed (formed : FoundFormed buf ie)
    (room : ie + (ieSize buf ie + 2) ≤ limit) (fit : Bool) :
    ∃ fit', MatchedList limit ch ie (ieSize buf ie + 2) (buf, fit) (buf, fit') ∧
      (fit' = true ↔ fit = true ∨ ∃ place, FirstListed buf ie place ∧ buf place = ch) := by
  have same : SameFrom ie buf buf := fun _ _ => rfl
  cases first : firstAttr Mem.readLe16 buf ie (ieSize buf ie + 2) p2pAttrChList with
  | none =>
      refine ⟨fit, ?_, by simp [firstListed_none first]⟩
      exact withContent_formed formed same.heads room (fun _ => rfl) (by simp [first])
  | some attr =>
      obtain ⟨among, id, complete, long⟩ := mem_firstAttr first
      obtain ⟨three, places, list⟩ := ((formed long).attrs attr among).list id
      unfold CompleteAt at complete
      obtain ⟨fit', fits, met⟩ := @matched_channels limit buf ch _ _ _ list (by omega) fit
      refine ⟨fit', ?_, ?_⟩
      · refine withContent_formed formed same.heads room (by simp [first]) ?_
        intro attr' first'
        cases Option.some_inj.mp (first.symm.trans first')
        exact ⟨three, fits⟩
      · rw [met]
        constructor
        · rintro (fit | ⟨place, here, equal⟩)
          · exact Or.inl fit
          · exact Or.inr ⟨place, ⟨attr, first, places, list, here⟩, equal⟩
        · rintro (fit | ⟨place, ⟨attr', first', places', list', here⟩, equal⟩)
          · exact Or.inl fit
          · cases Option.some_inj.mp (first.symm.trans first')
            rw [channelsAt_unique list list'] at here
            exact Or.inr ⟨place, here, equal⟩

end Element

/-! ## All elements -/

section Elements

variable {buf other : Mem} {ends inIe ie : Nat} {ch : UInt8}

theorem nextAt_congr (same : SameFrom inIe buf other) :
    nextAt other ends inIe = nextAt buf ends inIe := by
  have equal : behind other inIe = behind buf inIe := by
    funext i
    exact same _ (by omega)
  rw [nextAt, nextAt, equal]

/-- Where elements fill the frame a lookup only comes to one of them. -/
theorem firstTaken_mem {cnt q : Nat} (tiles : Tiles 2 (ieSize buf) ends (inIe + cnt))
    (taken : firstTaken (behind buf inIe) Frame.Vendor.p2pOui (ends - inIe) cnt = some q) :
    inIe + q ∈ records 2 (ieSize buf) ends (inIe + cnt) := by
  generalize place : inIe + cnt = start at tiles
  induction tiles generalizing cnt with
  | done =>
      rw [firstTaken_out (by omega)] at taken
      cases taken
  | @record start complete rest ih =>
      rw [records_of_complete (by omega) complete]
      cases here : takenAt (behind buf inIe) Frame.Vendor.p2pOui (ends - inIe) cnt with
      | true =>
          rw [firstTaken_hit here] at taken
          cases taken
          rw [place]
          exact List.mem_cons_self
      | false =>
          rw [firstTaken_miss here] at taken
          have size : ieSize (behind buf inIe) cnt = ieSize buf start := by
            rw [← place]
            rfl
          rw [size] at taken
          exact List.mem_cons_of_mem _ (ih taken (by omega))

/-- What a lookup finds in a well-formed frame, and what follows it. -/
theorem nextAt_formed (formed : BodyFormed buf ends inIe)
    (next : nextAt buf ends inIe = some ie) :
    inIe ≤ ie ∧ ie + (ieSize buf ie + 2) ≤ ends ∧ FoundFormed buf ie ∧
      ie ∈ records 2 (ieSize buf) ends inIe ∧
      BodyFormed buf ends (ie + (ieSize buf ie + 2)) := by
  obtain ⟨from_start, -, element⟩ := nextAt_direct (fun _ => Nat.le_refl ends) next
  obtain ⟨cnt, taken, rfl⟩ := Option.map_eq_some_iff.mp next
  have among := firstTaken_mem formed.tiles taken
  have complete := (mem_records (by omega) among).2
  unfold CompleteAt at complete
  refine ⟨from_start, by omega, ?_, among, ?_⟩
  · intro long
    refine formed.direct _ (List.mem_filter.mpr ⟨among, ?_⟩)
    unfold ieSize at long
    simp [ouiTest, Frame.byOui, element.id, element.oui, long]
  · have tiles := formed.tiles.behind (by omega) among
    rw [Nat.add_comm 2] at tiles
    refine ⟨tiles, ?_⟩
    intro later member
    obtain ⟨behind, wanted⟩ := List.mem_filter.mp member
    rw [Nat.add_comm _ 2] at behind
    exact formed.direct later (List.mem_filter.mpr ⟨records_behind (by omega) among behind, wanted⟩)

theorem not_reached (gone : nextAt buf ends inIe = none) (ie : Nat) :
    ¬ Reached buf ends inIe ie := by
  intro reached
  cases reached with
  | here found =>
      rw [gone] at found
      cases found
  | later found =>
      rw [gone] at found
      cases found

/-- What is so in some element that is reached is so in the next one or behind it. -/
theorem exists_reached_iff (next : nextAt buf ends inIe = some ie) {holds : Nat → Prop} :
    (∃ ie, Reached buf ends inIe ie ∧ holds ie) ↔
      holds ie ∨ ∃ later, Reached buf ends (ie + (ieSize buf ie + 2)) later ∧ holds later := by
  constructor
  · rintro ⟨reached_ie, reached, here⟩
    cases reached with
    | here found =>
        rw [next] at found
        cases found
        exact Or.inl here
    | later found later =>
        rw [next] at found
        cases found
        exact Or.inr ⟨reached_ie, later, here⟩
  · rintro (here | ⟨later, reached, here⟩)
    · exact ⟨ie, .here next, here⟩
    · exact ⟨later, .later next reached, here⟩

/-- An element that is reached and long enough is one of the P2P elements. -/
theorem reached_direct (formed : BodyFormed buf ends inIe) (reached : Reached buf ends inIe ie)
    (long : 4 ≤ ieSize buf ie) : ie ∈ directIes buf ends inIe := by
  induction reached with
  | here next =>
      obtain ⟨-, -, -, among, -⟩ := nextAt_formed formed next
      obtain ⟨-, -, element⟩ := nextAt_direct (fun _ => Nat.le_refl ends) next
      refine List.mem_filter.mpr ⟨among, ?_⟩
      unfold ieSize at long
      simp [ouiTest, Frame.byOui, element.id, element.oui, long]
  | later next _ ih =>
      obtain ⟨-, -, -, among, rest⟩ := nextAt_formed formed next
      obtain ⟨behind, wanted⟩ := List.mem_filter.mp (ih rest long)
      rw [Nat.add_comm _ 2] at behind
      exact List.mem_filter.mpr ⟨records_behind (by omega) among behind, wanted⟩

/-- What the elements that are reached are worked on for is done, and nothing else. -/
theorem walks_painted {does : Nat → Nat → Mem × Unit → Mem × Unit → Prop}
    {places : Nat → Nat → Prop}
    (element : ∀ {ie : Nat} {other : Mem}, FoundFormed buf ie → SameFrom ie buf other →
      ie + (ieSize buf ie + 2) ≤ ends → ∃ other',
        does ie (ieSize buf ie + 2) (other, ()) (other', ()) ∧
          Painted other other' ch (places ie))
    (bounds : ∀ {ie place : Nat}, FoundFormed buf ie → places ie place →
      ie ≤ place ∧ place < ie + (ieSize buf ie + 2))
    (formed : BodyFormed buf ends inIe) (same : SameFrom inIe buf other) :
    ∃ other', Walks ends does (fun _ => false) inIe (other, ()) (other', ()) ∧
      Painted other other' ch fun place => ∃ ie, Reached buf ends inIe ie ∧ places ie place := by
  induction left : ends - inIe using Nat.strongRecOn generalizing inIe other with
  | ind n ih =>
      have look := @nextAt_congr buf other ends inIe same
      cases next : nextAt buf ends inIe with
      | none =>
          rw [next] at look
          exact ⟨other, .gone look, .none fun place ⟨ie, reached, _⟩ => not_reached next ie reached⟩
      | some ie =>
          rw [next] at look
          obtain ⟨from_start, complete, found, -, rest⟩ := nextAt_formed formed next
          obtain ⟨middle, does_here, painted⟩ :=
            element found (fun i behind => same i (by omega)) complete
          have kept : SameFrom (ie + (ieSize buf ie + 2)) buf middle := by
            intro i behind
            rw [painted.2 i ?_]
            · exact same i (by omega)
            · intro here
              have inner := bounds found here
              omega
          obtain ⟨other', walks, painted'⟩ := ih (ends - (ie + (ieSize buf ie + 2)))
            (by omega) rest kept rfl
          have size : ieSize other ie = ieSize buf ie := by
            rw [ieSize, same _ (by omega), ieSize]
          refine ⟨other', ?_, ?_⟩
          · rw [← size] at does_here walks
            exact .on look does_here rfl walks
          · have both := painted.trans painted'
            simp only [Painted, exists_reached_iff next]
            exact both

/-- The channel is met when it is in the first list of an element that is reached. -/
theorem walks_matched {limit : Nat} (inner : ends ≤ limit) (formed : BodyFormed buf ends inIe)
    (fit : Bool) :
    ∃ fit', Walks ends (MatchedList limit ch) (fun _ => false) inIe (buf, fit) (buf, fit') ∧
      (fit' = true ↔ fit = true ∨ ∃ ie, Reached buf ends inIe ie ∧
        ∃ place, FirstListed buf ie place ∧ buf place = ch) := by
  induction left : ends - inIe using Nat.strongRecOn generalizing inIe fit with
  | ind n ih =>
      cases next : nextAt buf ends inIe with
      | none =>
          refine ⟨fit, .gone next, ?_⟩
          simp [not_reached next]
      | some ie =>
          obtain ⟨from_start, complete, found, -, rest⟩ := nextAt_formed formed next
          obtain ⟨fit₁, matched, met⟩ := @matchedList_formed limit buf ie ch found (by omega) fit
          obtain ⟨fit', walks, met'⟩ := ih (ends - (ie + (ieSize buf ie + 2))) (by omega) rest
            fit₁ rfl
          refine ⟨fit', .on next matched rfl walks, ?_⟩
          rw [met', met, exists_reached_iff next, or_assoc]

end Elements

/-! ## Whole frames -/

section Frames

variable (buf : Mem) (len : UInt32)

/-- The places of the channels in all channel lists of a frame. -/
def ListPlace (place : Nat) : Prop :=
  ∃ ie ∈ directIes buf len.toNat publicActionIeOffset, Listed buf ie place

/-- The places of all operating channels. -/
def OperatingPlace (place : Nat) : Prop :=
  ∃ ie ∈ directIes buf len.toNat publicActionIeOffset, Operating buf ie place

/-- An element that the lookups come to. -/
def ReachedIe (ie : Nat) : Prop := Reached buf (bodyEnd 0 len) publicActionIeOffset ie

def ReachedListPlace (place : Nat) : Prop := ∃ ie, ReachedIe buf len ie ∧ FirstListed buf ie place

def ReachedOperatingPlace (place : Nat) : Prop :=
  ∃ ie, ReachedIe buf len ie ∧ FirstOperating buf ie place

end Frames

section Frames

variable {buf : Mem} {len : UInt32} {ch flag : UInt8}

/-- A frame of 2 GiB is well-formed as far as it is looked at. -/
theorem bodyFormed_end (formed : BodyFormed buf len.toNat publicActionIeOffset) :
    BodyFormed buf (bodyEnd 0 len) publicActionIeOffset ∧
      (publicActionIeOffset < bodyEnd 0 len → bodyEnd 0 len = len.toNat) := by
  rcases Nat.lt_or_ge publicActionIeOffset (bodyEnd 0 len) with filled | empty
  · have same : bodyEnd 0 len = len.toNat := by
      unfold bodyEnd at filled ⊢
      have pos : 0 < signed (len - UInt32.ofNat publicActionIeOffset) := by omega
      have value := signed_pos pos
      have less : signed (len - UInt32.ofNat publicActionIeOffset) < 2 ^ 31 :=
        @BitVec.toInt_lt 32 (len - UInt32.ofNat publicActionIeOffset).toBitVec
      have eight : (UInt32.ofNat publicActionIeOffset).toNat = 8 := rfl
      have long : publicActionIeOffset = 8 := rfl
      rw [UInt32.toNat_sub, eight] at value
      have bound := len.toNat_lt
      omega
    rw [same]
    exact ⟨formed, fun _ => rfl⟩
  · have same : bodyEnd 0 len = publicActionIeOffset := by
      unfold bodyEnd at empty ⊢
      omega
    have outside : ¬ CompleteAt 2 (ieSize buf) publicActionIeOffset publicActionIeOffset := by
      unfold CompleteAt
      omega
    rw [same]
    refine ⟨⟨.done, ?_⟩, fun filled => absurd filled (Nat.lt_irrefl _)⟩
    rw [directIes, records_of_incomplete outside]
    simp

theorem reached_formed (formed : BodyFormed buf len.toNat publicActionIeOffset) {ie : Nat}
    (reached : ReachedIe buf len ie) (long : 4 ≤ ieSize buf ie) :
    ie ∈ directIes buf len.toNat publicActionIeOffset := by
  obtain ⟨formed', same⟩ := bodyFormed_end formed
  have among := reached_direct formed' reached long
  rcases Nat.lt_or_ge publicActionIeOffset (bodyEnd 0 len) with filled | empty
  · rwa [same filled] at among
  · have bounds := mem_records (by omega) (List.mem_filter.mp among).1
    have complete := bounds.2
    unfold CompleteAt at complete
    omega

theorem ReachedListPlace.place (formed : BodyFormed buf len.toNat publicActionIeOffset)
    {place : Nat} (reached : ReachedListPlace buf len place) : ListPlace buf len place := by
  obtain ⟨ie, reached, attr, first, places, list, here⟩ := reached
  obtain ⟨among, id, -, long⟩ := mem_firstAttr first
  exact ⟨ie, reached_formed formed reached long, attr, among, id, places, list, here⟩

theorem ReachedOperatingPlace.place (formed : BodyFormed buf len.toNat publicActionIeOffset)
    {place : Nat} (reached : ReachedOperatingPlace buf len place) :
    OperatingPlace buf len place := by
  obtain ⟨ie, reached, attr, first, rfl⟩ := reached
  obtain ⟨among, id, -, long⟩ := mem_firstAttr first
  exact ⟨ie, reached_formed formed reached long, attr, among, id, rfl⟩

/-- The lookups stay in front of the end of a well-formed frame. -/
theorem bodyEnd_le (formed : BodyFormed buf len.toNat publicActionIeOffset) :
    bodyEnd 0 len ≤ len.toNat := by
  have eight := formed.tiles.le
  rcases Nat.lt_or_ge publicActionIeOffset (bodyEnd 0 len) with filled | empty
  · rw [(bodyFormed_end formed).2 filled]
  · omega

section Formed

variable (formed : BodyFormed buf len.toNat publicActionIeOffset) (on : flag ≠ 0)
include formed on

theorem check_formed (ch : UInt8) :
    ∃ fit, p2pCheckChListWithBuddy len.toNat 0 len buf ch flag = some fit ∧
      (fit = true ↔ ∃ place, ReachedListPlace buf len place ∧ buf place = ch) := by
  obtain ⟨fit, walks, met⟩ := @walks_matched buf _ _ ch _ (bodyEnd_le formed)
    (bodyFormed_end formed).1 false
  refine ⟨fit, ?_, ?_⟩
  · rw [p2pCheckChListWithBuddy_iff (Nat.zero_add _).symm (by decide) on]
    exact ⟨_, walks, rfl⟩
  · rw [met]
    constructor
    · rintro (absent | ⟨ie, reached, place, listed, equal⟩)
      · cases absent
      · exact ⟨place, ⟨ie, reached, listed⟩, equal⟩
    · rintro ⟨place, ⟨ie, reached, listed⟩, equal⟩
      exact Or.inr ⟨ie, reached, place, listed, equal⟩

theorem change_formed (ch : UInt8) :
    ∃ buf', p2pChangeP2pieChList len.toNat 0 len buf ch flag = some buf' ∧
      Painted buf buf' ch (ReachedListPlace buf len) := by
  have inner := bodyEnd_le formed
  obtain ⟨buf', walks, painted⟩ := @walks_painted buf buf _ _ ch (FilledList len.toNat ch)
    (FirstListed buf)
    (fun found same room => filledList_formed found same (by omega))
    (fun _ listed => firstListed_bounds listed) (bodyFormed_end formed).1 (fun _ _ => rfl)
  refine ⟨buf', ?_, painted⟩
  rw [p2pChangeP2pieChList_iff (Nat.zero_add _).symm (by decide) on]
  exact ⟨_, walks, rfl⟩

theorem adjust_formed (ch : UInt8) :
    ∃ buf', p2pAdjustChannel len.toNat 0 len buf ch flag = some buf' ∧
      Painted buf buf' ch fun place =>
        ReachedListPlace buf len place ∨ ReachedOperatingPlace buf len place := by
  have inner := bodyEnd_le formed
  obtain ⟨buf', walks, painted⟩ := @walks_painted buf buf _ _ ch (AdjustedElement len.toNat ch)
    (fun ie place => FirstListed buf ie place ∨ FirstOperating buf ie place)
    (fun found same room => adjustedElement_formed found same (by omega))
    (by
      rintro ie place found (listed | operating)
      · exact firstListed_bounds listed
      · exact operating_bounds found operating)
    (bodyFormed_end formed).1 (fun _ _ => rfl)
  refine ⟨buf', ?_, ?_⟩
  · rw [p2pAdjustChannel_iff (Nat.zero_add _).symm (by decide) on]
    exact ⟨_, walks, rfl⟩
  · simpa only [Painted, ReachedListPlace, ReachedOperatingPlace, ReachedIe, and_or_left,
      exists_or] using painted

end Formed

/-- All places are written to whatever the channel is only when none is left out. -/
theorem painted_iff {rewrite : UInt8 → Option Mem} {reached all : Nat → Prop}
    (inner : ∀ place, reached place → all place)
    (rewrites : ∀ ch, ∃ buf', rewrite ch = some buf' ∧ Painted buf buf' ch reached) :
    (∀ ch, ∃ buf', rewrite ch = some buf' ∧ Painted buf buf' ch all) ↔
      ∀ place, all place → reached place := by
  constructor
  · intro right place here
    by_contra missed
    obtain ⟨buf', ends, kept⟩ := rewrites (buf place + 1)
    obtain ⟨buf'', ends', painted⟩ := right (buf place + 1)
    cases Option.some_inj.mp (ends.symm.trans ends')
    have changed := painted.1 place here
    rw [kept.2 place missed] at changed
    have other : buf place ≠ buf place + 1 := by
      intro equal
      have values := congrArg UInt8.toNat equal
      rw [UInt8.toNat_add] at values
      change _ = (_ + 1) % 256 at values
      omega
    exact other changed
  · intro complete ch
    obtain ⟨buf', ends, painted⟩ := rewrites ch
    have same (place : Nat) : all place ↔ reached place :=
      ⟨complete place, inner place⟩
    refine ⟨buf', ends, ?_⟩
    simp only [Painted, same]
    exact painted

/-- A function comes to the end of the elements that the lookups come to. -/
def Runs {α : Type} (buf : Mem) (len : UInt32) (does : Nat → Nat → Mem × α → Mem × α → Prop)
    (leave : α → Bool) (a : α) : Prop :=
  ∃ s', Walks (bodyEnd 0 len) does leave publicActionIeOffset (buf, a) s'

/-- When the functions end inside of the frame, and when they do all that they are for. -/
theorem channel_lists_iff (buf : Mem) (len : UInt32) (flag : UInt8) :
    (∀ ch, (p2pCheckChListWithBuddy len.toNat 0 len buf ch flag).isSome ↔
      (flag ≠ 0 → Runs buf len (MatchedList len.toNat ch) (fun _ => false) false)) ∧
    (∀ ch, (p2pAdjustChannel len.toNat 0 len buf ch flag).isSome ↔
      (flag ≠ 0 → Runs buf len (AdjustedElement len.toNat ch) (fun _ => false) ())) ∧
    (∀ ch, (p2pChangeP2pieChList len.toNat 0 len buf ch flag).isSome ↔
      (flag ≠ 0 → Runs buf len (FilledList len.toNat ch) (fun _ => false) ())) ∧
    (∀ ch, (p2pCheckP2pieOpChWithBuddy len.toNat 0 len buf ch flag).isSome ↔
      (flag ≠ 0 → Runs buf len (MatchedOpCh len.toNat ch) id false)) ∧
    (∀ ie, nextAt buf (bodyEnd 0 len) publicActionIeOffset = some ie →
      ((p2pDumpAttrChList len.toNat buf ie (ieSize buf ie + 2) 128).isSome ↔
        ∃ s', CollectedList len.toNat ie (ieSize buf ie + 2) (buf, []) s')) ∧
    (BodyFormed buf len.toNat publicActionIeOffset → flag ≠ 0 →
      ((∀ ch, ∃ fit, p2pCheckChListWithBuddy len.toNat 0 len buf ch flag = some fit ∧
          (fit = true ↔ ∃ place, ListPlace buf len place ∧ buf place = ch)) ↔
        ∀ place, ListPlace buf len place →
          ∃ met, ReachedListPlace buf len met ∧ buf met = buf place) ∧
      ((∀ ch, ∃ buf', p2pAdjustChannel len.toNat 0 len buf ch flag = some buf' ∧
          Painted buf buf' ch fun place => ListPlace buf len place ∨ OperatingPlace buf len place) ↔
        ∀ place, ListPlace buf len place ∨ OperatingPlace buf len place →
          ReachedListPlace buf len place ∨ ReachedOperatingPlace buf len place) ∧
      ((∀ ch, ∃ buf', p2pChangeP2pieChList len.toNat 0 len buf ch flag = some buf' ∧
          Painted buf buf' ch (ListPlace buf len)) ↔
        ∀ place, ListPlace buf len place → ReachedListPlace buf len place)) := by
  have start : (0 : Nat) + publicActionIeOffset = publicActionIeOffset := rfl
  have room (filled : 0 + publicActionIeOffset < bodyEnd 0 len) :=
    @body_room len.toNat 0 len (Nat.zero_add _).symm (by decide) filled
  refine ⟨?_, ?_, ?_, ?_, ?_, ?_⟩
  · intro ch
    rw [p2pCheckChListWithBuddy, Option.isSome_map,
      inElements_isSome (fun filled => (room filled).1) fun filled => matchedList_iff (room filled).2]
    rfl
  · intro ch
    rw [p2pAdjustChannel, Option.isSome_map,
      inElements_isSome (fun filled => (room filled).1) fun filled =>
        adjustElement_iff (room filled).2]
    rfl
  · intro ch
    rw [p2pChangeP2pieChList, Option.isSome_map,
      inElements_isSome (fun filled => (room filled).1) fun filled => filledList_iff (room filled).2]
    rfl
  · intro ch
    rw [p2pCheckP2pieOpChWithBuddy, Option.isSome_map,
      inElements_isSome (fun filled => (room filled).1) fun _ => matchedOpCh_iff]
    rfl
  · intro ie next
    have filled : 0 + publicActionIeOffset < bodyEnd 0 len := by
      have direct := nextAt_direct (fun _ => Nat.le_refl _) next
      omega
    obtain ⟨-, -, element⟩ := nextAt_direct (fun _ => (room filled).1) next
    rw [Option.isSome_iff_exists]
    simp only [p2pDumpAttrChList_iff (room filled).2 element]
    constructor
    · rintro ⟨text, s', collected, -⟩
      exact ⟨s', collected⟩
    · rintro ⟨s', collected⟩
      exact ⟨_, s', collected, rfl⟩
  · intro formed on
    refine ⟨?_, ?_, ?_⟩
    · constructor
      · intro right place here
        obtain ⟨fit, ends, met⟩ := check_formed formed on (buf place)
        obtain ⟨fit', ends', all⟩ := right (buf place)
        cases Option.some_inj.mp (ends.symm.trans ends')
        exact met.mp (all.mpr ⟨place, here, rfl⟩)
      · intro complete ch
        obtain ⟨fit, ends, met⟩ := check_formed formed on ch
        refine ⟨fit, ends, met.trans ?_⟩
        constructor
        · rintro ⟨place, reached, equal⟩
          exact ⟨place, reached.place formed, equal⟩
        · rintro ⟨place, here, rfl⟩
          exact complete place here
    · refine painted_iff ?_ (adjust_formed formed on)
      rintro place (listed | operating)
      · exact Or.inl (listed.place formed)
      · exact Or.inr (operating.place formed)
    · exact painted_iff (fun _ reached => reached.place formed) (change_formed formed on)

end Frames

/-- A confirmation with an operating channel and a channel list. -/
def confirmation : Mem := fun i =>
  (#[4, 9, 0x50, 0x6f, 0x9a, 0x09, 2, 1, 221, 21, 0x50, 0x6f, 0x9a, 0x09,
    0x11, 5, 0, 0x58, 0x58, 4, 81, 6, 0x0b, 6, 0, 0x58, 0x58, 4, 81, 1, 6] : Array UInt8).getD i 0

theorem confirmation_formed : BodyFormed confirmation 31 publicActionIeOffset := by
  have inner : CompleteAt 2 (ieSize confirmation) 31 8 := by decide
  have last : ¬ CompleteAt 2 (ieSize confirmation) 31 31 := by decide
  have element : records 2 (ieSize confirmation) 31 8 = [8] := by
    rw [records_of_complete (by omega) inner]
    exact congrArg _ (records_of_incomplete last)
  have channel : CompleteAt 3 (attrSize Mem.readLe16 confirmation 8) 23 6 := by decide
  have list : CompleteAt 3 (attrSize Mem.readLe16 confirmation 8) 23 14 := by decide
  have none : ¬ CompleteAt 3 (attrSize Mem.readLe16 confirmation 8) 23 23 := by decide
  have attrs : attrsOf confirmation 8 = [6, 14] := by
    change records 3 (attrSize Mem.readLe16 confirmation 8) 23 6 = [6, 14]
    rw [records_of_complete (by omega) channel]
    change 6 :: records 3 (attrSize Mem.readLe16 confirmation 8) 23 14 = [6, 14]
    rw [records_of_complete (by omega) list]
    exact congrArg _ (congrArg _ (records_of_incomplete none))
  refine ⟨.record inner .done, ?_⟩
  intro ie member
  change ie ∈ (records 2 (ieSize confirmation) 31 8).filter _ at member
  rw [element] at member
  obtain rfl := List.mem_singleton.mp (List.mem_filter.mp member).1
  refine ⟨.record channel (.record list .done), ?_⟩
  rw [attrs]
  intro attr among
  rcases List.mem_cons.mp among with rfl | among
  · exact ⟨fun id => absurd id (by decide), fun _ => by decide⟩
  · obtain rfl := List.mem_singleton.mp among
    exact ⟨fun _ => ⟨by decide, _, .entry (by decide) .nil⟩, fun id => absurd id (by decide)⟩

theorem channel_lists_confirmation :
    ((p2pDumpAttrChList 31 confirmation 8 23 128).isSome ↔
      ∃ s', CollectedList 31 8 23 (confirmation, []) s') ∧
    ((∀ ch, ∃ buf', p2pChangeP2pieChList 31 0 31 confirmation ch 1 = some buf' ∧
        Painted confirmation buf' ch (ListPlace confirmation 31)) ↔
      ∀ place, ListPlace confirmation 31 place → ReachedListPlace confirmation 31 place) := by
  have lists := channel_lists_iff confirmation 31 1
  have next : nextAt confirmation (bodyEnd 0 31) publicActionIeOffset = some 8 := by
    rw [nextAt, firstTaken_hit (by decide)]
    rfl
  exact ⟨lists.2.2.2.2.1 8 next, (lists.2.2.2.2.2 confirmation_formed (by decide)).2.2⟩

/-- A confirmation with a channel list that has no country string. -/
def emptyList : Mem := fun i =>
  (#[4, 9, 0x50, 0x6f, 0x9a, 0x09, 2, 1, 221, 7, 0x50, 0x6f, 0x9a, 0x09, 0x0b, 0, 0] :
    Array UInt8).getD i 0

theorem emptyList_leaves :
    (p2pCheckChListWithBuddy 17 0 17 emptyList 6 1).isSome = false ∧
    (p2pDumpAttrChList 17 emptyList 8 9 128).isSome = false := by
  decide +kernel

end Smartchip.P2p.Channels
