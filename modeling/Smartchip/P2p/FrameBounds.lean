import Smartchip.Ap.AssocBounds
import Smartchip.P2p.ChannelRewrite

/-!
# Accesses to P2P frames

What `wf_p2p_check_frames` with its handlers, and `wf_p2p_proc_assoc_req`, read and write of a
frame. An access has no value when it is not inside of the frame, or not inside of the attribute
that is looked at.
-/

namespace Smartchip.P2p.Channels

open Smartchip.Foundation Smartchip.Frame.Vendor
open Smartchip.Frame (ieSize vendorSpecificId)
open Smartchip.Ap.Bounds (p2pAttrCapability p2pAttrDeviceInfo deviceInfo InfoFits)

/-- `sizeof(struct wl_ieee80211_hdr_3addr)` -/
def hdrSize : Nat := 24

def p2pAttrStatus : UInt8 := 0x00

def p2pAttrGoIntent : UInt8 := 0x04

def p2pAttrConfTimeout : UInt8 := 0x05

def p2pAttrListenCh : UInt8 := 0x06

def p2pAttrGroupId : UInt8 := 0x0f

def p2pAttrInvitationFlags : UInt8 := 0x12

/-- What the handlers read of the two interfaces: whether the other one is connected, its channel,
`full_ch_in_p2p_handshake`, and whether the exchange awaits this frame. -/
structure Side where
  linked : Bool
  buddyCh : UInt8
  fullCh : Bool
  awaits : Bool

/-- An element and its length, as `check_param` has them; `none` for `NULL`. -/
abbrev P2pIe := Option (Nat × Nat)

section Attributes

variable (limit : Nat) (buf : Mem) (p2pIe : P2pIe) (target : UInt8) (ofs n : Nat)

/-- `n` bytes of the content at an offset. -/
def lookContent (pattr : Nat) (contentlen : UInt32) (s : Mem × Option Nat) :
    Option (Mem × Option Nat) := do
  inside contentlen.toNat ofs n
  inside limit (pattr + ofs) n
  some (s.1, some pattr)

/-- The content of an attribute, where there is one, of which `n` bytes are read. -/
def lookAttr : Option (Option Nat) :=
  match p2pIe with
  | none => some none
  | some (ie, ielen) =>
      (withContent limit target (lookContent limit ofs n) ie ielen (buf, none)).map Prod.snd

def readAttr : Option Unit := (lookAttr limit buf p2pIe target ofs n).map fun _ => ()

end Attributes

/-! ## The handlers -/

section Handlers

variable (side : Side) (len : UInt32) (isTx : Bool) (p2pIe : P2pIe) (buf : Mem)

def bodyLen : UInt32 := len - UInt32.ofNat hdrSize

/-- `GetAddr1Ptr` of a frame that is sent, `GetAddr2Ptr` of one that is received. -/
def peerMac : Option Unit := inside len.toNat (if isTx then 4 else 10) 6

def adjustTx : Option Mem :=
  if side.linked ∧ side.fullCh = false then
    p2pAdjustChannel len.toNat hdrSize (bodyLen len) buf side.buddyCh 1
  else some buf

/-- The list is looked through also where nothing is changed then. -/
def changeRx : Option Mem :=
  if side.linked then do
    let fit ← p2pCheckChListWithBuddy len.toNat hdrSize (bodyLen len) buf side.buddyCh 1
    if fit = false ∧ side.fullCh = false then
      p2pChangeP2pieChList len.toNat hdrSize (bodyLen len) buf 0 1
    else some buf
  else some buf

/-- What is done with a frame of a negotiation before it is read. -/
def rewriteFrame : Option Mem := if isTx then adjustTx side len buf else changeRx side len buf

/-- Of the other frames only those that are sent are rewritten. -/
def adjustFrame : Option Mem := if isTx then adjustTx side len buf else some buf

/-- `ch_list_buf` has 128 bytes. -/
def dumpChList : Option Unit :=
  match p2pIe with
  | none => some ()
  | some (ie, ielen) => (p2pDumpAttrChList len.toNat buf ie ielen 128).map fun _ => ()

def p2pCheckNegoReq : Option Mem := do
  let buf ← rewriteFrame side len isTx buf
  readAttr len.toNat buf p2pIe p2pAttrOperatingCh 4 1
  readAttr len.toNat buf p2pIe p2pAttrListenCh 4 1
  readAttr len.toNat buf p2pIe p2pAttrGoIntent 0 1
  readAttr len.toNat buf p2pIe p2pAttrCapability 0 2
  readAttr len.toNat buf p2pIe p2pAttrConfTimeout 0 2
  peerMac len isTx
  dumpChList len p2pIe buf
  some buf

def p2pCheckNegoRsp : Option Mem := do
  let buf ← rewriteFrame side len isTx buf
  readAttr len.toNat buf p2pIe p2pAttrOperatingCh 4 1
  readAttr len.toNat buf p2pIe p2pAttrGoIntent 0 1
  readAttr len.toNat buf p2pIe p2pAttrStatus 0 1
  onlyIf side.awaits (peerMac len isTx)
  dumpChList len p2pIe buf
  some buf

def p2pCheckNegoConfirm : Option Mem := do
  let buf ← adjustFrame side len isTx buf
  readAttr len.toNat buf p2pIe p2pAttrOperatingCh 4 1
  readAttr len.toNat buf p2pIe p2pAttrStatus 0 1
  onlyIf side.awaits (peerMac len isTx)
  dumpChList len p2pIe buf
  some buf

/-- Without an operating channel the channel list decides. -/
def invitOpFit (opCh : Option Nat) : Option Bool :=
  if opCh.isSome then
    p2pCheckP2pieOpChWithBuddy len.toNat hdrSize (bodyLen len) buf side.buddyCh 1
  else some true

/-- The end of an invitation that is received. The second call hands on `frame_body`, which is
still `NULL`: no byte can be read there. -/
def invitRx (opCh : Option Nat) : Option Mem :=
  if side.linked ∧ side.fullCh = false then do
    let opFit ← invitOpFit side len buf opCh
    if opFit = false then p2pChangeP2pieChList len.toNat hdrSize (bodyLen len) buf 0 1
    else do
      let fit ← p2pCheckChListWithBuddy len.toNat hdrSize (bodyLen len) buf side.buddyCh 1
      if fit = false then p2pChangeP2pieChList 0 0 (bodyLen len) buf 0 1 else some buf
  else some buf

def p2pCheckInvitReq : Option Mem := do
  let buf ← adjustFrame side len isTx buf
  readAttr len.toNat buf p2pIe p2pAttrInvitationFlags 0 1
  let opCh ← lookAttr len.toNat buf p2pIe p2pAttrOperatingCh 4 1
  peerMac len isTx
  dumpChList len p2pIe buf
  if isTx then some buf else invitRx side len buf opCh

/-- A status 7 that is sent is changed to 8. -/
def unknownGroup (status : Option Nat) : Mem :=
  match status with
  | none => buf
  | some cont => if isTx ∧ buf cont = 7 then Function.update buf cont 8 else buf

def p2pCheckInvitRsp : Option Mem := do
  let buf ← adjustFrame side len isTx buf
  let status ← lookAttr len.toNat buf p2pIe p2pAttrStatus 0 1
  let buf := unknownGroup isTx buf status
  readAttr len.toNat buf p2pIe p2pAttrOperatingCh 4 1
  onlyIf side.awaits (peerMac len isTx)
  dumpChList len p2pIe buf
  some buf

/-- A lookup whose content is not read. -/
def findAttr (target : UInt8) : Option Unit := readAttr len.toNat buf p2pIe target 0 0

/-- The frames of `OUI_Subtype`. -/
def handler (subtype : UInt8) : Option Mem :=
  match subtype with
  | 0 => p2pCheckNegoReq side len isTx p2pIe buf
  | 1 => p2pCheckNegoRsp side len isTx p2pIe buf
  | 2 => p2pCheckNegoConfirm side len isTx p2pIe buf
  | 3 => p2pCheckInvitReq side len isTx p2pIe buf
  | 4 => p2pCheckInvitRsp side len isTx p2pIe buf
  | 6 => (findAttr len p2pIe buf p2pAttrStatus).map fun _ => buf
  | 7 => (findAttr len p2pIe buf p2pAttrGroupId).map fun _ => buf
  | _ => some buf

/-- The element that the lookup gives. -/
def ieOf (found : FoundIe) : P2pIe := found.place.map fun ie => (ie, found.length.getD 0)

def wlanCategoryPublic : UInt8 := 4

def wlanActionPublicVendor : UInt8 := 9

def wlanCategoryP2p : UInt8 := 0x7f

/-- The part for public action frames. -/
def publicAction : Option (Mem × Int) := do
  let limit := len.toNat
  inside limit (hdrSize + 1) 1
  onlyIf (buf (hdrSize + 1) = wlanActionPublicVendor) (inside limit (hdrSize + 2) 4)
  if buf (hdrSize + 1) = wlanActionPublicVendor ∧
      buf.read (hdrSize + 2) 4 = Frame.Vendor.p2pOui.toList then do
    inside limit (hdrSize + 6) 2
    let found ← nextIe limit hdrSize (bodyLen len) buf (hdrSize + publicActionIeOffset)
    let buf' ← handler side len isTx (ieOf found) buf (buf (hdrSize + 6))
    some (buf', (buf (hdrSize + 6)).toNat)
  else some (buf, -1)

/-- The frame as it is then, and the type of the frame. -/
def wfP2pCheckFrames : Option (Mem × Int) := do
  inside len.toNat hdrSize 1
  if buf hdrSize = wlanCategoryPublic then publicAction side len isTx buf
  else if buf hdrSize = wlanCategoryP2p then do
    inside len.toNat (hdrSize + 5) 2
    some (buf, (buf (hdrSize + 5)).toNat)
  else some (buf, 0)

end Handlers

/-! ## Association requests -/

/-- The content is copied to `cap_attr`, or to a buffer of its own where there is memory for it. -/
def wfP2pProcAssocReq (limit : Nat) (buf : Mem) (groupOwner : Bool) (alloc : Nat → Bool)
    (p2pIe : P2pIe) (flag : UInt8) : Option Unit :=
  if flag ≠ 0 ∧ groupOwner = false then some ()
  else match p2pIe with
    | none => some ()
    | some (ie, ielen) => do
        let cap ← wfP2pGetAttrContent buf limit ie ielen p2pAttrCapability true true
        inside 2 0 cap.copied.length
        let info ← wfP2pGetAttrContent buf limit ie ielen p2pAttrDeviceInfo false true
        match info.place with
        | none => some ()
        | some pattr =>
            onlyIf (alloc (info.length.getD 0)) (do
              let _ ← wfP2pGetAttrContent buf limit ie ielen p2pAttrDeviceInfo true true
              deviceInfo (fun i => buf (pattr + i)) (info.length.getD 0))

/-! ## Frames that fit -/

section Fits

variable (side : Side) (len : UInt32) (isTx : Bool) (p2pIe : P2pIe)

/-- A walk over the elements of the frame. -/
def WalksFrame {α : Type} (does : Nat → Nat → Mem × α → Mem × α → Prop) (leave : α → Bool)
    (s s' : Mem × α) : Prop :=
  Walks (bodyEnd hdrSize (bodyLen len)) does leave (hdrSize + publicActionIeOffset) s s'

def Adjusted (buf buf' : Mem) : Prop :=
  if side.linked ∧ side.fullCh = false then
    ∃ s', WalksFrame len (AdjustedElement len.toNat side.buddyCh) (fun _ => false) (buf, ()) s' ∧
      s'.1 = buf'
  else buf' = buf

def Changed (buf buf' : Mem) : Prop :=
  if side.linked then
    ∃ s', WalksFrame len (MatchedList len.toNat side.buddyCh) (fun _ => false) (buf, false) s' ∧
      if s'.2 = false ∧ side.fullCh = false then
        ∃ t', WalksFrame len (FilledList len.toNat 0) (fun _ => false) (buf, ()) t' ∧ t'.1 = buf'
      else buf' = buf
  else buf' = buf

def RewrittenFrame (buf buf' : Mem) : Prop :=
  if isTx then Adjusted side len buf buf' else Changed side len buf buf'

def AdjustedFrame (buf buf' : Mem) : Prop :=
  if isTx then Adjusted side len buf buf' else buf' = buf

/-- The bytes that are read are in the attribute and in the frame. -/
def LookedContent (limit ofs n pattr contentlen : Nat) (s s' : Mem × Option Nat) : Prop :=
  ofs + n ≤ contentlen ∧ pattr + ofs + n ≤ limit ∧ s' = (s.1, some pattr)

/-- The lookup ends with this place, of whose content what is read can be read. -/
def Looked (buf : Mem) (target : UInt8) (ofs n : Nat) (found : Option Nat) : Prop :=
  match p2pIe with
  | none => found = none
  | some (ie, ielen) =>
      ∃ s', WithContent len.toNat target (LookedContent len.toNat ofs n) ie ielen (buf, none) s' ∧
        s'.2 = found

def Reads (buf : Mem) (target : UInt8) (ofs n : Nat) : Prop :=
  ∃ found, Looked len p2pIe buf target ofs n found

def Dumps (buf : Mem) : Prop :=
  ∀ ie ielen, p2pIe = some (ie, ielen) → ∃ s', CollectedList len.toNat ie ielen (buf, []) s'

/-- The attributes that a handler reads, with the bytes of each. -/
def ReadsAll (buf : Mem) (reads : List (UInt8 × Nat × Nat)) : Prop :=
  ∀ r ∈ reads, Reads len p2pIe buf r.1 r.2.1 r.2.2

def negoReqReads : List (UInt8 × Nat × Nat) :=
  [(p2pAttrOperatingCh, 4, 1), (p2pAttrListenCh, 4, 1), (p2pAttrGoIntent, 0, 1),
    (p2pAttrCapability, 0, 2), (p2pAttrConfTimeout, 0, 2)]

def negoRspReads : List (UInt8 × Nat × Nat) :=
  [(p2pAttrOperatingCh, 4, 1), (p2pAttrGoIntent, 0, 1), (p2pAttrStatus, 0, 1)]

def negoConfirmReads : List (UInt8 × Nat × Nat) :=
  [(p2pAttrOperatingCh, 4, 1), (p2pAttrStatus, 0, 1)]

/-- A frame of a negotiation, which is read as it has been rewritten. -/
def NegoFits (rewritten : Mem → Mem → Prop) (reads : List (UInt8 × Nat × Nat)) (buf : Mem) :
    Prop :=
  ∃ buf', rewritten buf buf' ∧ ReadsAll len p2pIe buf' reads ∧ Dumps len p2pIe buf'

def InvitOpFits (buf : Mem) (opCh : Option Nat) (opFit : Bool) : Prop :=
  if opCh.isSome then
    ∃ s', WalksFrame len (MatchedOpCh len.toNat side.buddyCh) id (buf, false) s' ∧ s'.2 = opFit
  else opFit = true

/-- What follows an invitation that is received; a walk without a frame only ends where the frame
has no room for an element. -/
def InvitRxFits (buf : Mem) (opCh : Option Nat) : Prop :=
  side.linked = true ∧ side.fullCh = false →
    ∃ opFit, InvitOpFits side len buf opCh opFit ∧
      if opFit = false then
        ∃ t', WalksFrame len (FilledList len.toNat 0) (fun _ => false) (buf, ()) t'
      else
        ∃ s', WalksFrame len (MatchedList len.toNat side.buddyCh) (fun _ => false) (buf, false) s' ∧
          (s'.2 = false → signed (bodyLen len - UInt32.ofNat publicActionIeOffset) ≤ 5)

def InvitReqFits (buf : Mem) : Prop :=
  ∃ buf', AdjustedFrame side len isTx buf buf' ∧
    Reads len p2pIe buf' p2pAttrInvitationFlags 0 1 ∧
    ∃ opCh, Looked len p2pIe buf' p2pAttrOperatingCh 4 1 opCh ∧ Dumps len p2pIe buf' ∧
      (isTx = false → InvitRxFits side len buf' opCh)

def InvitRspFits (buf : Mem) : Prop :=
  ∃ buf', AdjustedFrame side len isTx buf buf' ∧
    ∃ status, Looked len p2pIe buf' p2pAttrStatus 0 1 status ∧
      Reads len p2pIe (unknownGroup isTx buf' status) p2pAttrOperatingCh 4 1 ∧
      Dumps len p2pIe (unknownGroup isTx buf' status)

def HandlerFits (buf : Mem) (subtype : UInt8) : Prop :=
  match subtype with
  | 0 => NegoFits len p2pIe (RewrittenFrame side len isTx) negoReqReads buf
  | 1 => NegoFits len p2pIe (RewrittenFrame side len isTx) negoRspReads buf
  | 2 => NegoFits len p2pIe (AdjustedFrame side len isTx) negoConfirmReads buf
  | 3 => InvitReqFits side len isTx p2pIe buf
  | 4 => InvitRspFits side len isTx p2pIe buf
  | 6 => Reads len p2pIe buf p2pAttrStatus 0 0
  | 7 => Reads len p2pIe buf p2pAttrGroupId 0 0
  | _ => True

/-- The P2P element that the handlers are given. -/
def firstIe (buf : Mem) : P2pIe :=
  (nextAt buf (bodyEnd hdrSize (bodyLen len)) (hdrSize + publicActionIeOffset)).map fun ie =>
    (ie, ieSize buf ie + 2)

/-- The fixed fields of a public action frame are there, and what its handler needs. -/
structure ActionFits (buf : Mem) : Prop where
  action : 26 ≤ len.toNat
  oui : buf 25 = wlanActionPublicVendor → 30 ≤ len.toNat
  handler : buf 25 = wlanActionPublicVendor → buf.read 26 4 = Frame.Vendor.p2pOui.toList →
    32 ≤ len.toNat ∧ HandlerFits side len isTx (firstIe len buf) buf (buf 30)

structure FrameFits (buf : Mem) : Prop where
  category : 25 ≤ len.toNat
  action : buf 24 = wlanCategoryPublic → ActionFits side len isTx buf
  p2p : buf 24 = wlanCategoryP2p → 31 ≤ len.toNat

end Fits

/-! ## What is rewritten stays behind the beginning of an element -/

section Front

variable {limit ie ielen : Nat} {buf buf' : Mem} {ch : UInt8}

theorem DirectIe.of_front (element : DirectIe buf limit ie)
    (front : ∀ i, i < ie + 6 → buf' i = buf i) : DirectIe buf' limit ie := by
  refine ⟨?_, ?_, element.six⟩
  · rw [front _ (by omega)]
    exact element.id
  · rw [← element.oui, Mem.read_eq_iff]
    intro i few
    exact front _ (by omega)

theorem filledList_front {s s' : Mem × Unit} {used : Nat → Nat → Prop} {i : Nat}
    (before : i < ie + 6)
    (filled : WithContent limit p2pAttrChList (fun pattr contentlen s s' =>
      used pattr contentlen ∧ ListEntries limit (FilledEntry limit ch) pattr contentlen s s')
      ie ielen s s') : s'.1 i = s.1 i := by
  cases filled with
  | without => rfl
  | content finds _ uses =>
      have six := finds_from finds
      exact filled_before (by omega) uses.2.2

theorem filled_front {s s' : Mem × Unit} {i : Nat} (before : i < ie + 6)
    (filled : FilledList limit ch ie ielen s s') : s'.1 i = s.1 i := by
  cases filled with
  | without => rfl
  | content finds _ uses =>
      have six := finds_from finds
      exact filled_before (by omega) uses.2

theorem adjusted_front {s s' : Mem × Unit} {i : Nat} (before : i < ie + 6)
    (adjusted : AdjustedElement limit ch ie ielen s s') : s'.1 i = s.1 i := by
  obtain ⟨s₁, listed, operating⟩ := adjusted
  rw [← filledList_front before listed]
  cases operating with
  | without => rfl
  | content finds _ uses =>
      have six := finds_from finds
      rw [uses.2.2, Function.update_of_ne (by omega)]

/-- Nothing in front of the attributes of the first element changes. -/
theorem walks_front {does : Nat → Nat → Mem × Unit → Mem × Unit → Prop} {leave : Unit → Bool}
    {ends inIe i : Nat} {s s' : Mem × Unit}
    (front : ∀ {ie ielen i : Nat} {s s' : Mem × Unit}, i < ie + 6 → does ie ielen s s' →
      s'.1 i = s.1 i)
    (before : ∀ ie, nextAt s.1 ends inIe = some ie → i < ie + 6)
    (walks : Walks ends does leave inIe s s') : s'.1 i = s.1 i := by
  induction walks with
  | gone => rfl
  | left next here => exact front (before _ next) here
  | on next here stays rest ih =>
      rw [ih ?_, front (before _ next) here]
      intro later next'
      have from_start := (nextAt_direct (fun _ => Nat.le_refl _) next').1
      have first := before _ next
      omega

end Front

/-! ## When the steps are made -/

section Steps

variable {side : Side} {len : UInt32} {isTx : Bool} {p2pIe : P2pIe} {buf : Mem}

/-- What the handlers are given is an element of a frame that is looked at. -/
structure Given (len : UInt32) (p2pIe : P2pIe) (buf : Mem) : Prop where
  direct : ∀ {ie ielen : Nat}, p2pIe = some (ie, ielen) → DirectIe buf len.toNat ie
  small : p2pIe ≠ none → len.toNat + 1024 ≤ 2 ^ 32

theorem lookContent_iff {limit ofs n pattr contentlen : Nat} {s s' : Mem × Option Nat}
    (word : contentlen < 2 ^ 32) :
    lookContent limit ofs n pattr (UInt32.ofNat contentlen) s = some s' ↔
      LookedContent limit ofs n pattr contentlen s s' := by
  rw [lookContent, UInt32.toNat_ofNat_of_lt' word, LookedContent]
  unfold inside
  split_ifs <;> simp_all [eq_comm]

theorem lookAttr_iff (given : Given len p2pIe buf) {target : UInt8} {ofs n : Nat}
    {found : Option Nat} :
    lookAttr len.toNat buf p2pIe target ofs n = some found ↔
      Looked len p2pIe buf target ofs n found := by
  cases p2pIe with
  | none => simp [lookAttr, Looked, eq_comm]
  | some p =>
      obtain ⟨ie, ielen⟩ := p
      have looks (s' : Mem × Option Nat) :=
        @withContent_iff _ len.toNat target (lookContent len.toNat ofs n)
          (LookedContent len.toNat ofs n) ie ielen (buf, none) s' (given.direct rfl)
          lookContent_iff
      simp only [lookAttr, Option.map_eq_some_iff, looks, Looked]

theorem readAttr_isSome (given : Given len p2pIe buf) {target : UInt8} {ofs n : Nat} :
    (readAttr len.toNat buf p2pIe target ofs n).isSome ↔ Reads len p2pIe buf target ofs n := by
  rw [readAttr, Option.isSome_map, Option.isSome_iff_exists, Reads]
  simp only [lookAttr_iff given]

theorem dumpChList_isSome (given : Given len p2pIe buf) :
    (dumpChList len p2pIe buf).isSome ↔ Dumps len p2pIe buf := by
  cases p2pIe with
  | none => simp [dumpChList, Dumps]
  | some p =>
      obtain ⟨ie, ielen⟩ := p
      rw [dumpChList, Option.isSome_map, Option.isSome_iff_exists]
      simp only [p2pDumpAttrChList_iff (given.small (by simp)) (given.direct rfl), Dumps,
        Option.some_inj, Prod.mk.injEq]
      constructor
      · rintro ⟨text, s', collected, -⟩ _ _ ⟨rfl, rfl⟩
        exact ⟨s', collected⟩
      · intro dumps
        obtain ⟨s', collected⟩ := dumps ie ielen ⟨rfl, rfl⟩
        exact ⟨_, s', collected, rfl⟩

theorem peerMac_eq (fixed : 32 ≤ len.toNat) : peerMac len isTx = some () := by
  cases isTx <;> exact if_pos (by simp; omega)

section Rewriting

variable (head : hdrSize ≤ len.toNat)
include head

theorem bodyLen_toNat : len.toNat = hdrSize + (bodyLen len).toNat := by
  have eq : (UInt32.ofNat hdrSize).toNat = hdrSize := rfl
  rw [bodyLen, UInt32.toNat_sub_of_le _ _ (by rw [UInt32.le_iff_toNat_le, eq]; exact head), eq]
  omega

theorem adjustTx_iff {buf' : Mem} :
    adjustTx side len buf = some buf' ↔ Adjusted side len buf buf' := by
  unfold adjustTx Adjusted
  split_ifs with adjusts
  · rw [p2pAdjustChannel_iff (bodyLen_toNat head) (by decide) (by decide)]
    rfl
  · rw [Option.some_inj, eq_comm]

theorem check_iff {fit : Bool} :
    p2pCheckChListWithBuddy len.toNat hdrSize (bodyLen len) buf side.buddyCh 1 = some fit ↔
      ∃ s', WalksFrame len (MatchedList len.toNat side.buddyCh) (fun _ => false) (buf, false) s' ∧
        s'.2 = fit := by
  rw [p2pCheckChListWithBuddy_iff (bodyLen_toNat head) (by decide) (by decide)]
  rfl

theorem change_iff {buf' : Mem} :
    p2pChangeP2pieChList len.toNat hdrSize (bodyLen len) buf 0 1 = some buf' ↔
      ∃ t', WalksFrame len (FilledList len.toNat 0) (fun _ => false) (buf, ()) t' ∧ t'.1 = buf' := by
  rw [p2pChangeP2pieChList_iff (bodyLen_toNat head) (by decide) (by decide)]
  rfl

theorem changeRx_iff {buf' : Mem} :
    changeRx side len buf = some buf' ↔ Changed side len buf buf' := by
  unfold changeRx Changed
  split_ifs with linked
  · rw [Option.bind_eq_bind, Option.bind_eq_some_iff]
    simp only [check_iff head]
    constructor
    · rintro ⟨fit, ⟨s', walks, rfl⟩, changes⟩
      refine ⟨s', walks, ?_⟩
      split_ifs at changes ⊢
      · exact (change_iff head).mp changes
      · exact (Option.some_inj.mp changes).symm
    · rintro ⟨s', walks, changes⟩
      refine ⟨s'.2, ⟨s', walks, rfl⟩, ?_⟩
      split_ifs at changes ⊢
      · exact (change_iff head).mpr changes
      · rw [changes]
  · rw [Option.some_inj, eq_comm]

end Rewriting

/-! ## The handlers -/

theorem firstIe_given (head : hdrSize ≤ len.toNat) : Given len (firstIe len buf) buf := by
  have filled {ie ielen : Nat} (first : firstIe len buf = some (ie, ielen)) :
      nextAt buf (bodyEnd hdrSize (bodyLen len)) (hdrSize + publicActionIeOffset) = some ie ∧
        hdrSize + publicActionIeOffset < bodyEnd hdrSize (bodyLen len) := by
    obtain ⟨ie', next, same⟩ := Option.map_eq_some_iff.mp first
    cases same
    have direct := nextAt_direct (fun _ => Nat.le_refl _) next
    exact ⟨next, by omega⟩
  constructor
  · intro ie ielen first
    obtain ⟨next, more⟩ := filled first
    have room := body_room (bodyLen_toNat head) (by decide) more
    exact (nextAt_direct (fun _ => room.1) next).2.2
  · intro some
    obtain ⟨⟨ie, ielen⟩, first⟩ := Option.ne_none_iff_exists'.mp some
    exact (body_room (bodyLen_toNat head) (by decide) (filled first).2).2

/-- The element is still there when its front has not changed. -/
theorem Given.of_front {buf' : Mem} (given : Given len p2pIe buf)
    (front : ∀ ie ielen, p2pIe = some (ie, ielen) → ∀ i, i < ie + 6 → buf' i = buf i) :
    Given len p2pIe buf' :=
  ⟨fun first => (given.direct first).of_front (front _ _ first), given.small⟩

theorem first_front {does : Nat → Nat → Mem × Unit → Mem × Unit → Prop} {leave : Unit → Bool}
    {s' : Mem × Unit} (given : Given len (firstIe len buf) buf)
    (front : ∀ {ie ielen i : Nat} {s s' : Mem × Unit}, i < ie + 6 → does ie ielen s s' →
      s'.1 i = s.1 i)
    (walks : WalksFrame len does leave (buf, ()) s') : Given len (firstIe len buf) s'.1 := by
  refine given.of_front ?_
  intro ie ielen first i before
  obtain ⟨ie', next, same⟩ := Option.map_eq_some_iff.mp first
  cases same
  refine walks_front front ?_ walks
  intro other next'
  cases Option.some_inj.mp (next.symm.trans next')
  exact before

theorem Adjusted.given {buf' : Mem} (given : Given len (firstIe len buf) buf)
    (adjusted : Adjusted side len buf buf') : Given len (firstIe len buf) buf' := by
  unfold Adjusted at adjusted
  split_ifs at adjusted
  · obtain ⟨s', walks, rfl⟩ := adjusted
    exact first_front given adjusted_front walks
  · rw [adjusted]
    exact given

theorem Changed.given {buf' : Mem} (given : Given len (firstIe len buf) buf)
    (changed : Changed side len buf buf') : Given len (firstIe len buf) buf' := by
  unfold Changed at changed
  split_ifs at changed
  · obtain ⟨s', -, changes⟩ := changed
    split_ifs at changes
    · obtain ⟨t', walks, rfl⟩ := changes
      exact first_front given filled_front walks
    · rw [changes]
      exact given
  · rw [changed]
    exact given

/-- A step whose result the next steps are about. -/
theorem bind_isSome_exists {α β : Type} {first : Option α} {second : α → Option β}
    {made : α → Prop} {needs : α → Prop} (makes : ∀ a, first = some a ↔ made a)
    (also : ∀ a, made a → ((second a).isSome ↔ needs a)) :
    (first >>= second).isSome ↔ ∃ a, made a ∧ needs a := by
  cases first with
  | none =>
      have nothing (a : α) : ¬ made a := by
        rw [← makes a]
        simp
      simp [nothing]
  | some a =>
      have only (b : α) : made b ↔ a = b := by
        rw [← makes b, Option.some_inj]
      rw [Option.bind_eq_bind, Option.bind_some, also a ((only a).mpr rfl)]
      simp [only]

section Handlers

variable (fixed : 32 ≤ len.toNat)
include fixed

theorem head_of_fixed : hdrSize ≤ len.toNat := by
  have size : hdrSize = 24 := rfl
  omega

theorem rewriteFrame_iff {buf' : Mem} :
    rewriteFrame side len isTx buf = some buf' ↔ RewrittenFrame side len isTx buf buf' := by
  cases isTx
  · exact changeRx_iff (head_of_fixed fixed)
  · exact adjustTx_iff (head_of_fixed fixed)

theorem adjustFrame_iff {buf' : Mem} :
    adjustFrame side len isTx buf = some buf' ↔ AdjustedFrame side len isTx buf buf' := by
  cases isTx
  · simp [adjustFrame, AdjustedFrame, eq_comm]
  · exact adjustTx_iff (head_of_fixed fixed)

theorem RewrittenFrame.given {buf' : Mem} (rewritten : RewrittenFrame side len isTx buf buf') :
    Given len (firstIe len buf) buf' := by
  have given := @firstIe_given len buf (head_of_fixed fixed)
  cases isTx
  · exact Changed.given given rewritten
  · exact Adjusted.given given rewritten

theorem AdjustedFrame.given {buf' : Mem} (adjusted : AdjustedFrame side len isTx buf buf') :
    Given len (firstIe len buf) buf' := by
  have given := @firstIe_given len buf (head_of_fixed fixed)
  cases isTx
  · change buf' = buf at adjusted
    rw [adjusted]
    exact given
  · exact Adjusted.given given adjusted

theorem negoReq_isSome :
    (p2pCheckNegoReq side len isTx (firstIe len buf) buf).isSome ↔
      NegoFits len (firstIe len buf) (RewrittenFrame side len isTx) negoReqReads buf := by
  refine bind_isSome_exists (fun buf' => rewriteFrame_iff fixed) fun buf' rewritten => ?_
  have given := rewritten.given fixed
  simp only [Option.bind_eq_bind, then_isSome, readAttr_isSome given, dumpChList_isSome given,
    peerMac_eq fixed, Option.isSome_some, ReadsAll, negoReqReads, List.forall_mem_cons,
    List.not_mem_nil, false_imp_iff, implies_true, and_true, true_and, and_assoc]

theorem negoRsp_isSome :
    (p2pCheckNegoRsp side len isTx (firstIe len buf) buf).isSome ↔
      NegoFits len (firstIe len buf) (RewrittenFrame side len isTx) negoRspReads buf := by
  refine bind_isSome_exists (fun buf' => rewriteFrame_iff fixed) fun buf' rewritten => ?_
  have given := rewritten.given fixed
  simp only [Option.bind_eq_bind, then_isSome, readAttr_isSome given, dumpChList_isSome given,
    onlyIf_isSome, peerMac_eq fixed, Option.isSome_some, ReadsAll, negoRspReads,
    List.forall_mem_cons, List.not_mem_nil, false_imp_iff, implies_true, and_true, true_and,
    and_assoc]

theorem negoConfirm_isSome :
    (p2pCheckNegoConfirm side len isTx (firstIe len buf) buf).isSome ↔
      NegoFits len (firstIe len buf) (AdjustedFrame side len isTx) negoConfirmReads buf := by
  refine bind_isSome_exists (fun buf' => adjustFrame_iff fixed) fun buf' adjusted => ?_
  have given := adjusted.given fixed
  simp only [Option.bind_eq_bind, then_isSome, readAttr_isSome given, dumpChList_isSome given,
    onlyIf_isSome, peerMac_eq fixed, Option.isSome_some, ReadsAll, negoConfirmReads,
    List.forall_mem_cons, List.not_mem_nil, false_imp_iff, implies_true, and_true, true_and,
    and_assoc]

omit fixed in
/-- Without a frame there is nothing to read an element from. -/
theorem getIe_null {inIe : Nat} {left : Int} :
    wfP2pGetIe buf 0 inIe left false true =
      if left ≤ 5 then some ⟨none, [], some 0⟩ else none := by
  rcases Int.lt_or_le 5 left with long | short
  · have more : 0 + 1 + 4 < left.toNat := by omega
    have faults : inside 0 (inIe + 0) 1 = none := if_neg (by omega)
    have filled : ¬ left ≤ 0 := by omega
    have above : ¬ left ≤ 5 := by omega
    rw [wfP2pGetIe, getIe, if_neg filled, if_neg above, getIeLoop, if_pos more, faults]
    rfl
  · rw [wfP2pGetIe, getIe, if_pos short]
    rcases Int.lt_or_le 0 left with some_left | empty
    · have few : ¬ 0 + 1 + 4 < left.toNat := by omega
      have filled : ¬ left ≤ 0 := by omega
      rw [if_neg filled, getIeLoop, if_neg few]
      rfl
    · rw [if_pos empty]
      rfl

omit fixed in
theorem change_null_isSome :
    (p2pChangeP2pieChList 0 0 (bodyLen len) buf 0 1).isSome ↔
      signed (bodyLen len - UInt32.ofNat publicActionIeOffset) ≤ 5 := by
  have inLen : signed (bodyLen len - UInt32.ofNat publicActionIeOffset -
      UInt32.ofNat (0 + publicActionIeOffset - (0 + publicActionIeOffset))) =
        signed (bodyLen len - UInt32.ofNat publicActionIeOffset) := by
    rw [Nat.sub_self]
    change signed (_ - 0) = _
    rw [UInt32.sub_zero]
  rw [p2pChangeP2pieChList, Option.isSome_map, inElements, nextIe, inLen, getIe_null]
  generalize signed (bodyLen len - UInt32.ofNat publicActionIeOffset) = left
  rcases Int.lt_or_le 5 left with long | short
  · simp [Int.not_le.mpr long]
  · simp [short, elementsLoop]

theorem invitOpFit_iff {opCh : Option Nat} {opFit : Bool} :
    invitOpFit side len buf opCh = some opFit ↔ InvitOpFits side len buf opCh opFit := by
  unfold invitOpFit InvitOpFits
  split_ifs
  · rw [p2pCheckP2pieOpChWithBuddy_iff (bodyLen_toNat (head_of_fixed fixed)) (by decide)
      (by decide)]
    rfl
  · rw [Option.some_inj, eq_comm]

theorem invitRx_isSome {opCh : Option Nat} :
    (invitRx side len buf opCh).isSome ↔ InvitRxFits side len buf opCh := by
  have head := head_of_fixed fixed
  unfold invitRx InvitRxFits
  split_ifs with received
  · rw [forall_prop_of_true received]
    refine bind_isSome_exists (fun opFit => invitOpFit_iff fixed) fun opFit _ => ?_
    cases opFit with
    | false =>
        rw [if_pos rfl, if_pos rfl, Option.isSome_iff_exists]
        simp only [change_iff head]
        constructor
        · rintro ⟨buf', t', walks, -⟩
          exact ⟨t', walks⟩
        · rintro ⟨t', walks⟩
          exact ⟨_, t', walks, rfl⟩
    | true =>
        have null (fit : Bool) :
            (if fit = false then p2pChangeP2pieChList 0 0 (bodyLen len) buf 0 1
              else some buf).isSome ↔
            (fit = false → signed (bodyLen len - UInt32.ofNat publicActionIeOffset) ≤ 5) := by
          cases fit with
          | false => simp [change_null_isSome]
          | true => simp
        rw [if_neg (by simp), if_neg (by simp),
          bind_isSome_exists (fun fit => check_iff head) fun fit _ => null fit]
        constructor
        · rintro ⟨fit, ⟨s', walks, rfl⟩, fits⟩
          exact ⟨s', walks, fits⟩
        · rintro ⟨s', walks, fits⟩
          exact ⟨_, ⟨s', walks, rfl⟩, fits⟩
  · simp [received]

theorem invitReq_isSome :
    (p2pCheckInvitReq side len isTx (firstIe len buf) buf).isSome ↔
      InvitReqFits side len isTx (firstIe len buf) buf := by
  refine bind_isSome_exists (fun buf' => adjustFrame_iff fixed) fun buf' adjusted => ?_
  have given := adjusted.given fixed
  rw [Option.bind_eq_bind, then_isSome, readAttr_isSome given]
  refine and_congr_right fun _ => ?_
  refine bind_isSome_exists (fun opCh => lookAttr_iff given) fun opCh _ => ?_
  simp only [then_isSome, dumpChList_isSome given, peerMac_eq fixed, Option.isSome_some,
    true_and]
  refine and_congr_right fun _ => ?_
  cases isTx with
  | true => simp
  | false => simp [invitRx_isSome fixed]

omit fixed in
/-- The status is behind the beginning of the element. -/
theorem unknownGroup_given {status : Option Nat} (given : Given len p2pIe buf)
    (looked : Looked len p2pIe buf p2pAttrStatus 0 1 status) :
    Given len p2pIe (unknownGroup isTx buf status) := by
  refine given.of_front ?_
  rintro ie ielen rfl i before
  obtain ⟨s', with_content, found⟩ := looked
  cases status with
  | none => rfl
  | some cont =>
      cases with_content with
      | without => cases found
      | content finds _ uses =>
          have six := finds_from finds
          rw [uses.2.2] at found
          cases found
          simp only [unknownGroup]
          split_ifs
          · exact Function.update_of_ne (by omega) _ _
          · rfl

theorem invitRsp_isSome :
    (p2pCheckInvitRsp side len isTx (firstIe len buf) buf).isSome ↔
      InvitRspFits side len isTx (firstIe len buf) buf := by
  refine bind_isSome_exists (fun buf' => adjustFrame_iff fixed) fun buf' adjusted => ?_
  have given := adjusted.given fixed
  refine bind_isSome_exists (fun status => lookAttr_iff given) fun status looked => ?_
  have given' := @unknownGroup_given len isTx _ _ _ given looked
  simp only [Option.bind_eq_bind, then_isSome, readAttr_isSome given', dumpChList_isSome given',
    onlyIf_isSome, peerMac_eq fixed, Option.isSome_some, implies_true, and_true, true_and]

theorem handler_isSome {subtype : UInt8} :
    (handler side len isTx (firstIe len buf) buf subtype).isSome ↔
      HandlerFits side len isTx (firstIe len buf) buf subtype := by
  have given := @firstIe_given len buf (head_of_fixed fixed)
  unfold handler HandlerFits
  split
  · exact negoReq_isSome fixed
  · exact negoRsp_isSome fixed
  · exact negoConfirm_isSome fixed
  · exact invitReq_isSome fixed
  · exact invitRsp_isSome fixed
  · rw [Option.isSome_map]
    exact readAttr_isSome given
  · rw [Option.isSome_map]
    exact readAttr_isSome given
  · simp

end Handlers

/-- The first lookup gives the first element. -/
theorem ieOf_nextIe (head : hdrSize ≤ len.toNat) :
    ∃ found, nextIe len.toNat hdrSize (bodyLen len) buf (hdrSize + publicActionIeOffset) =
      some found ∧ ieOf found = firstIe len buf := by
  refine ⟨_, nextIe_eq (fun filled => (body_room (bodyLen_toNat head) (by decide) filled).1)
    (Nat.le_refl _) (Or.inl rfl), ?_⟩
  rw [firstIe]
  cases nextAt buf (bodyEnd hdrSize (bodyLen len)) (hdrSize + publicActionIeOffset) <;> rfl

theorem publicAction_isSome : (publicAction side len isTx buf).isSome ↔
    ActionFits side len isTx buf := by
  have fits_iff : ActionFits side len isTx buf ↔ 26 ≤ len.toNat ∧
      (buf 25 = wlanActionPublicVendor → 30 ≤ len.toNat) ∧
      (buf 25 = wlanActionPublicVendor ∧ buf.read 26 4 = Frame.Vendor.p2pOui.toList →
        32 ≤ len.toNat ∧ HandlerFits side len isTx (firstIe len buf) buf (buf 30)) := by
    constructor
    · intro fits
      exact ⟨fits.action, fits.oui, fun ⟨vendor, oui⟩ => fits.handler vendor oui⟩
    · rintro ⟨action, oui, handler⟩
      exact ⟨action, oui, fun vendor same => handler ⟨vendor, same⟩⟩
  rw [fits_iff, publicAction]
  simp only [Option.bind_eq_bind, then_isSome, onlyIf_isSome, inside_isSome]
  refine and_congr Iff.rfl (and_congr Iff.rfl ?_)
  change (if buf 25 = wlanActionPublicVendor ∧ buf.read 26 4 = Frame.Vendor.p2pOui.toList then _
    else _ : Option (Mem × Int)).isSome ↔ _
  split_ifs with vendor
  · rw [forall_prop_of_true vendor, then_isSome, inside_isSome]
    refine and_congr_right fun fixed => ?_
    have fixed : 32 ≤ len.toNat := fixed
    obtain ⟨found, next, given⟩ := @ieOf_nextIe len buf (head_of_fixed fixed)
    rw [next, Option.bind_some, given]
    exact bind_some_isSome.trans (handler_isSome fixed)
  · simp [vendor]

theorem wfP2pCheckFrames_isSome :
    (wfP2pCheckFrames side len isTx buf).isSome ↔ FrameFits side len isTx buf := by
  have fits_iff : FrameFits side len isTx buf ↔ 25 ≤ len.toNat ∧
      (buf 24 = wlanCategoryPublic → ActionFits side len isTx buf) ∧
      (buf 24 = wlanCategoryP2p → 31 ≤ len.toNat) := by
    constructor
    · intro fits
      exact ⟨fits.category, fits.action, fits.p2p⟩
    · rintro ⟨category, action, p2p⟩
      exact ⟨category, action, p2p⟩
  have categories : wlanCategoryPublic ≠ wlanCategoryP2p := by decide
  rw [fits_iff, wfP2pCheckFrames, Option.bind_eq_bind, then_isSome, inside_isSome]
  refine and_congr Iff.rfl ?_
  change (if buf 24 = wlanCategoryPublic then publicAction side len isTx buf else _).isSome ↔ _
  split_ifs with is_public is_p2p
  · simp [is_public, categories, publicAction_isSome]
  · have direct : buf 24 = wlanCategoryP2p := is_p2p
    simp only [then_isSome, inside_isSome, Option.isSome_some, and_true]
    constructor
    · intro fields
      exact ⟨fun other => absurd other is_public, fun _ => fields⟩
    · rintro ⟨-, fields⟩
      exact fields direct
  · have other : ¬ buf 24 = wlanCategoryP2p := is_p2p
    simp [is_public, other]

end Steps

/-! ## Association requests -/

section Assoc

variable {limit ie ielen : Nat} {buf : Mem}

/-- The search ends, and what it finds fits; an attribute of length 0 is taken for none. -/
def AttrFits (limit : Nat) (buf : Mem) (ie ielen : Nat) (target : UInt8)
    (fits : Nat → Nat → Prop) : Prop :=
  ∃ found, Finds Mem.readLe16 buf limit ie ielen target 6 found ∧
    ∀ attr ∈ found, attrLen Mem.readLe16 buf ie attr ≠ 0 →
      fits (ie + attr + 3) (contentLen (attrLen Mem.readLe16 buf ie attr))

/-- The bits of the capability go to two bytes, and the content of the device information is copied
where there is memory for it. -/
structure AssocFits (limit : Nat) (buf : Mem) (alloc : Nat → Bool) (ie ielen : Nat) : Prop where
  capability : AttrFits limit buf ie ielen p2pAttrCapability fun pattr content =>
    pattr + content ≤ limit ∧ content ≤ 2
  deviceInfo : AttrFits limit buf ie ielen p2pAttrDeviceInfo fun pattr content =>
    alloc content = true →
      pattr + content ≤ limit ∧ InfoFits (fun i => buf (pattr + i)) content

theorem attrFits_iff (element : DirectIe buf limit ie) {target : UInt8}
    {fits : Nat → Nat → Prop} :
    AttrFits limit buf ie ielen target fits ↔
      ∃ found, p2pGetAttr buf limit ie ielen target = some found ∧
        ∀ attr ∈ found, attrLen Mem.readLe16 buf ie attr ≠ 0 →
          fits (ie + attr + 3) (contentLen (attrLen Mem.readLe16 buf ie attr)) := by
  have walk (found : Option Nat) :
      p2pGetAttr buf limit ie ielen target = some found ↔
        Finds Mem.readLe16 buf limit ie ielen target 6 found :=
    getAttr_iff element.id element.oui element.six (by decide)
  simp only [AttrFits, walk]

theorem getContent_empty {attr : Nat} {copy store : Bool} {zero : Option Nat}
    (empty : attrLen Mem.readLe16 buf ie attr = 0) :
    getContent Mem.readLe16 buf limit ie (some attr) copy store zero = some ⟨none, [], zero⟩ :=
  if_pos empty

theorem getContent_filled {attr : Nat} {copy store : Bool} {zero : Option Nat}
    (filled : attrLen Mem.readLe16 buf ie attr ≠ 0) :
    getContent Mem.readLe16 buf limit ie (some attr) copy store zero =
      (onlyIf copy (inside limit (ie + attr + 3)
        (contentLen (attrLen Mem.readLe16 buf ie attr)))).bind fun _ =>
          some ⟨some (ie + attr + 3),
            if copy then
              buf.read (ie + attr + 3) (contentLen (attrLen Mem.readLe16 buf ie attr))
            else [],
            if store then some (contentLen (attrLen Mem.readLe16 buf ie attr)) else zero⟩ :=
  if_neg filled

/-- What is copied has to be in the frame, and what is done next with it to be possible. -/
theorem capability_isSome (element : DirectIe buf limit ie) {rest : Option Unit} :
    ((wfP2pGetAttrContent buf limit ie ielen p2pAttrCapability true true).bind fun cap =>
      (inside 2 0 cap.copied.length).bind fun _ => rest).isSome ↔
      (AttrFits limit buf ie ielen p2pAttrCapability fun pattr content =>
        pattr + content ≤ limit ∧ content ≤ 2) ∧ rest.isSome := by
  rw [attrFits_iff element, wfP2pGetAttrContent]
  cases p2pGetAttr buf limit ie ielen p2pAttrCapability with
  | none => simp
  | some found =>
      cases found with
      | none => simp [getContent]
      | some attr =>
          rcases Decidable.em (attrLen Mem.readLe16 buf ie attr = 0) with empty | filled
          · simp [getContent_empty empty, empty]
          · simp [getContent_filled filled, filled, Option.bind_assoc, and_assoc]

theorem deviceInfo_call_isSome (element : DirectIe buf limit ie) {alloc : Nat → Bool} :
    ((wfP2pGetAttrContent buf limit ie ielen p2pAttrDeviceInfo false true).bind fun info =>
      match info.place with
      | none => some ()
      | some pattr =>
          onlyIf (alloc (info.length.getD 0) = true)
            ((wfP2pGetAttrContent buf limit ie ielen p2pAttrDeviceInfo true true).bind fun _ =>
              deviceInfo (fun i => buf (pattr + i)) (info.length.getD 0))).isSome ↔
      AttrFits limit buf ie ielen p2pAttrDeviceInfo fun pattr content => alloc content = true →
        pattr + content ≤ limit ∧ InfoFits (fun i => buf (pattr + i)) content := by
  rw [attrFits_iff element, wfP2pGetAttrContent, wfP2pGetAttrContent]
  cases p2pGetAttr buf limit ie ielen p2pAttrDeviceInfo with
  | none => simp
  | some found =>
      cases found with
      | none => simp [getContent]
      | some attr =>
          rcases Decidable.em (attrLen Mem.readLe16 buf ie attr = 0) with empty | filled
          · simp [getContent_empty empty, empty]
          · have copies : onlyIf (false = true) (inside limit (ie + attr + 3)
                (contentLen (attrLen Mem.readLe16 buf ie attr))) = some () := rfl
            simp only [Option.bind_eq_bind, Option.bind_some, getContent_filled filled, copies]
            simp [filled, Ap.Bounds.deviceInfo_isSome, Option.bind_assoc]

theorem wfP2pProcAssocReq_isSome (element : DirectIe buf limit ie) {groupOwner : Bool}
    {alloc : Nat → Bool} {flag : UInt8} :
    (wfP2pProcAssocReq limit buf groupOwner alloc (some (ie, ielen)) flag).isSome ↔
      (flag = 0 ∨ groupOwner = true → AssocFits limit buf alloc ie ielen) := by
  have fits_iff : AssocFits limit buf alloc ie ielen ↔
      (AttrFits limit buf ie ielen p2pAttrCapability fun pattr content =>
        pattr + content ≤ limit ∧ content ≤ 2) ∧
      AttrFits limit buf ie ielen p2pAttrDeviceInfo fun pattr content => alloc content = true →
        pattr + content ≤ limit ∧ InfoFits (fun i => buf (pattr + i)) content :=
    ⟨fun fits => ⟨fits.capability, fits.deviceInfo⟩, fun ⟨capability, info⟩ => ⟨capability, info⟩⟩
  rw [wfP2pProcAssocReq]
  split_ifs with refused
  · have idle : ¬ (flag = 0 ∨ groupOwner = true) := by simp [refused]
    simp [idle]
  · have busy : flag = 0 ∨ groupOwner = true := by
      rcases Decidable.em (flag = 0) with off | on
      · exact Or.inl off
      · right
        simpa [on] using refused
    rw [forall_prop_of_true busy, fits_iff, ← deviceInfo_call_isSome element,
      ← capability_isSome element]
    rfl

end Assoc

/-- Which action frames and which association requests are handled inside of their bounds; the
element of a request has been found to be one of Wi-Fi Direct. -/
theorem frame_bounds_iff (buf : Mem) (len : UInt32) :
    (∀ side isTx, (wfP2pCheckFrames side len isTx buf).isSome ↔ FrameFits side len isTx buf) ∧
    (∀ groupOwner alloc flag,
      (wfP2pProcAssocReq len.toNat buf groupOwner alloc none flag).isSome) ∧
    ∀ groupOwner alloc flag ie ielen, DirectIe buf len.toNat ie →
      ((wfP2pProcAssocReq len.toNat buf groupOwner alloc (some (ie, ielen)) flag).isSome ↔
        (flag = 0 ∨ groupOwner = true → AssocFits len.toNat buf alloc ie ielen)) := by
  refine ⟨?_, ?_, ?_⟩
  · intro side isTx
    exact wfP2pCheckFrames_isSome
  · intro groupOwner alloc flag
    unfold wfP2pProcAssocReq
    split_ifs <;> rfl
  · intro groupOwner alloc flag ie ielen element
    exact wfP2pProcAssocReq_isSome element

theorem frame_bounds_confirmation :
    (wfP2pProcAssocReq 31 confirmation true (fun _ => true) (some (8, 23)) 1).isSome ↔
      ((1 : UInt8) = 0 ∨ true = true → AssocFits 31 confirmation (fun _ => true) 8 23) :=
  (frame_bounds_iff confirmation 31).2.2 true (fun _ => true) 1 8 23
    ⟨by decide, by decide, by decide⟩

/-- A received confirmation whose operating channel is empty. -/
def emptyChannel : Mem := fun i =>
  (#[0xd0, 0, 0, 0, 0, 0, 0, 0, 0, 0, 0, 0, 0, 0, 0, 0, 0, 0, 0, 0, 0, 0, 0, 0,
    4, 9, 0x50, 0x6f, 0x9a, 0x09, 2, 1, 221, 7, 0x50, 0x6f, 0x9a, 0x09, 0x11, 0, 0] :
    Array UInt8).getD i 0

/-- A received invitation that has an element, but none of Wi-Fi Direct. -/
def plainInvitation : Mem := fun i =>
  (#[0xd0, 0, 0, 0, 0, 0, 0, 0, 0, 0, 0, 0, 0, 0, 0, 0, 0, 0, 0, 0, 0, 0, 0, 0,
    4, 9, 0x50, 0x6f, 0x9a, 0x09, 3, 1, 0, 4, 0x74, 0x65, 0x73, 0x74] : Array UInt8).getD i 0

theorem emptyChannel_read :
    (wfP2pCheckFrames ⟨false, 0, false, false⟩ 41 false emptyChannel).isSome = false ∧
    (wfP2pCheckFrames ⟨true, 6, false, false⟩ 38 false plainInvitation).isSome = false := by
  decide +kernel

end Smartchip.P2p.Channels
