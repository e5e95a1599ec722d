import Mathlib.Data.List.Count
import Mathlib.Data.List.Nodup
import Smartchip.Foundation.Run
import Smartchip.Wdn.Table

/-!
# The peers of an IBSS

`nic/adhoc.c`, and `adhoc_conn_maintain_msg` of `nic/mlme.c`.  `asoc_sta_count` is kept by
hand beside the table of WDNs, and the indications go by its values 2 and 1.
-/

namespace Smartchip.Adhoc

open Smartchip.Foundation Smartchip.Frame Smartchip.Wdn

def adhocBcAddr : MacAddr := Vector.replicate 6 0xff

/-- The fields of the current network that a join and a beacon read. -/
structure WfWlanNetwork where
  macAddr : MacAddr
  rate : Vector UInt8 16
  channel : UInt8

structure Rates (n : Nat) where
  rate : Vector UInt8 n
  len : Nat

/-- The fields of `wdn_net_info_st` that a beacon sets; a new WDN has them zero. -/
structure BcnInfo where
  capInfo : UInt16
  bcnInterval : UInt16
  datarate : Rates 8
  extDatarate : Rates 4
  channel : UInt8

def BcnInfo.zero : BcnInfo := ⟨0, 0, ⟨Vector.replicate 8 0, 0⟩, ⟨Vector.replicate 4 0, 0⟩, 0⟩

/-- A message of `wf_adhoc_bcn_msg_send`: a beacon with its fixed fields that fits the
buffer. -/
structure BcnMsg where
  value : Mem
  len : Nat
  fixed : 36 ≤ len
  fits : len ≤ 36 + 768

def BcnMsg.sa (msg : BcnMsg) : MacAddr := Vector.ofFn fun i => msg.value (10 + i)

/-! ## A beacon's elements -/

def rateKnown : List UInt8 → UInt8 → Bool
  | [], _ => false
  | r :: rest, data => if r = 0 then false else if data = r then true else rateKnown rest data

def retrieveRate {n : Nat} (known : List UInt8) (rates : Rates n) (data : UInt8) : Rates n :=
  if rateKnown known data then
    if room : rates.len < n then ⟨rates.rate.set rates.len data, rates.len + 1⟩ else rates
  else rates

/-- The array is cleared for every element, its length is not. -/
def retrieveRates {n : Nat} (known : List UInt8) (rates : Rates n) (data : List UInt8) :
    Option (Rates n) :=
  if n < data.length then none
  else
    let got := data.foldl (retrieveRate known) ⟨Vector.replicate n 0, rates.len⟩
    if got.len = 0 then none else some got

def bcnElement (network : WfWlanNetwork) (value : Mem) (pie : Nat) (info : BcnInfo) :
    Option BcnInfo :=
  let data := value.read (pie + 2) (value (pie + 1)).toNat
  if value pie = 1 then
    (retrieveRates network.rate.toList info.datarate data).map fun rates =>
      { info with datarate := rates }
  else if value pie = 50 then
    (retrieveRates network.rate.toList info.extDatarate data).map fun rates =>
      { info with extDatarate := rates }
  else if value pie = 3 then
    some (if value (pie + 2) = network.channel then { info with channel := value (pie + 2) }
      else info)
  else some info

/-- Every element moves `ofs` on, so `var_len` is fuel enough. -/
def bcnElements (network : WfWlanNetwork) (value : Mem) (varLen : Nat) :
    Nat → Nat → BcnInfo → Option BcnInfo
  | 0, _, info => some info
  | fuel + 1, ofs, info =>
      if ofs < varLen then
        match bcnElement network value (36 + ofs) info with
        | none => none
        | some info' =>
            bcnElements network value varLen fuel (ofs + 2 + (value (36 + ofs + 1)).toNat) info'
      else some info

theorem bcnElements_fuel (network : WfWlanNetwork) (value : Mem) (varLen : Nat) {fuel more : Nat}
    {ofs : Nat} {info : BcnInfo} (enough : varLen ≤ ofs + fuel) (most : varLen ≤ ofs + more) :
    bcnElements network value varLen fuel ofs info =
      bcnElements network value varLen more ofs info := by
  induction fuel generalizing more ofs info with
  | zero =>
      have past : ¬ ofs < varLen := by omega
      cases more <;> simp [bcnElements, past]
  | succ fuel ih =>
      cases more with
      | zero =>
          have past : ¬ ofs < varLen := by omega
          simp [bcnElements, past]
      | succ more =>
          simp only [bcnElements]
          split
          · cases bcnElement network value (36 + ofs) info with
            | none => rfl
            | some info' => exact ih (by omega) (by omega)
          · rfl

def wfAdhocPrcBcn (network : WfWlanNetwork) (msg : BcnMsg) (info : BcnInfo) : Option BcnInfo :=
  let info' := { info with
    capInfo := msg.value.readLe16 34
    bcnInterval := msg.value.readLe16 32
    datarate := { info.datarate with len := 0 }
    extDatarate := { info.extDatarate with len := 0 } }
  let varLen := if msg.value.readLe16 0 &&& 0xfc = 0x80 then msg.len - 36 else 0
  bcnElements network msg.value varLen varLen 0 info'

/-! ## The interface -/

/-- What one call makes of the number of peers, and what it indicates. -/
structure Change where
  before : Nat
  after : Nat
  connect : Bool
  unlink : Bool
  deriving DecidableEq

/-- The nodes' fields are those of the nodes of the interface in the IBSS. -/
structure AdhocState (Ndev : Type) where
  tables : WdnTables Ndev
  mode : Nat → WorkMode
  rxPktStat : Nat → UInt32
  rxPktStatLast : Nat → UInt32
  bcn : Nat → BcnInfo
  asocStaCount : UInt8
  changes : List Change

inductive AdhocEvent (Ndev : Type) (ndev : Ndev) where
  | join (reason : Int) (network : WfWlanNetwork)
  | beacon (network : WfWlanNetwork) (msg : BcnMsg)
  | keepalive (expired : Bool)
  | flush
  | received (n : Nat)
  | otherAdd (dev : Ndev) (apart : dev ≠ ndev) (mac : MacAddr)
  | otherRemove (dev : Ndev) (apart : dev ≠ ndev) (pmac : Option MacAddr)

variable {Ndev : Type} (ndev : Ndev)

namespace AdhocState

def wdn (s : AdhocState Ndev) : WdnList := s.tables.wdn ndev

def find (s : AdhocState Ndev) (mac : MacAddr) : Option Nat :=
  wfWdnFindInfo (s.wdn ndev) (some mac)

def macs (s : AdhocState Ndev) : List MacAddr :=
  (s.wdn ndev).head.map fun n => ((s.wdn ndev).nodes n).mac

def peers (s : AdhocState Ndev) : Nat :=
  (s.macs ndev).countP fun mac => !isBcastAddr mac.toList

def adhocWdns (s : AdhocState Ndev) : Nat :=
  (s.wdn ndev).head.countP fun n => s.mode n = .adhoc

def counted (s : AdhocState Ndev) : AdhocState Ndev :=
  { s with asocStaCount := s.asocStaCount + 1 }

/-- The call that began in state `old` has ended. -/
def told (old s : AdhocState Ndev) (connect unlink : Bool) : AdhocState Ndev :=
  { s with changes := s.changes ++ [⟨old.peers ndev, s.peers ndev, connect, unlink⟩] }

end AdhocState

open AdhocState

section Calls

variable [DecidableEq Ndev]

/-- `wf_wdn_add`, with the memory of a new node cleared. -/
def wdnAdd (s : AdhocState Ndev) (mac : MacAddr) : Option Nat × AdhocState Ndev :=
  match s.find ndev mac, wfWdnAdd s.tables ndev mac with
  | none, (some n, tables) => (some n, { s with
      tables := tables
      mode := Function.update s.mode n .other
      rxPktStat := Function.update s.rxPktStat n 0
      rxPktStatLast := Function.update s.rxPktStatLast n 0
      bcn := Function.update s.bcn n .zero })
  | _, (found, _) => (found, s)

def wdnRemove (s : AdhocState Ndev) (mac : MacAddr) : AdhocState Ndev :=
  { s with tables := (wfWdnRemove s.tables ndev (some mac)).2 }

def setMode (s : AdhocState Ndev) (n : Nat) : AdhocState Ndev :=
  { s with mode := Function.update s.mode n .adhoc }

def wfAdhocNewBoradcastWdn (s : AdhocState Ndev) : AdhocState Ndev :=
  match wdnAdd ndev s adhocBcAddr with
  | (none, s') => s'
  | (some n, s') => setMode s'.counted n

def wfAdhocWdnInfoUpdate (s : AdhocState Ndev) (n : Nat) : AdhocState Ndev :=
  { setMode s n with
    rxPktStat := Function.update s.rxPktStat n 0
    rxPktStatLast := Function.update s.rxPktStatLast n 0 }

/-- `wf_wdn_data_update` sets the mode of the interface, which is the ad-hoc one again. -/
def wfAdhocIbssJoin (s : AdhocState Ndev) (reason : Int) (network : WfWlanNetwork) :
    AdhocState Ndev :=
  let s' := wfAdhocNewBoradcastWdn ndev s
  if reason = 0 then
    match wdnAdd ndev s' network.macAddr with
    | (none, s'') => told ndev s s'' false false
    | (some n, s'') => told ndev s (setMode (wfAdhocWdnInfoUpdate s''.counted n) n) true false
  else told ndev s s' false false

def adhocConnMaintainMsg (s : AdhocState Ndev) (network : WfWlanNetwork) (msg : BcnMsg) :
    AdhocState Ndev :=
  match s.find ndev msg.sa with
  | some _ => s
  | none =>
      match wdnAdd ndev s msg.sa with
      | (none, s') => s'
      | (some n, s') =>
          let s' := wfAdhocWdnInfoUpdate s'.counted n
          let s'' := match wfAdhocPrcBcn network msg (s'.bcn n) with
            | some info => { s' with bcn := Function.update s'.bcn n info }
            | none => wdnRemove ndev s' msg.sa
          told ndev s s'' (s''.asocStaCount = 2) false

/-- One node of the loop of `wf_adhoc_keepalive_thrd`. -/
def keepaliveNode (s : AdhocState Ndev) (n : Nat) : AdhocState Ndev :=
  if s.rxPktStatLast n ≠ s.rxPktStat n then
    { s with rxPktStatLast := Function.update s.rxPktStatLast n (s.rxPktStat n) }
  else if isBcastAddr ((s.wdn ndev).nodes n).mac.toList then s
  else
    let s' := wdnRemove ndev { s with asocStaCount := s.asocStaCount - 1 }
      ((s.wdn ndev).nodes n).mac
    told ndev s s' false (s'.asocStaCount = 1)

def wfAdhocKeepaliveThrd (s : AdhocState Ndev) (expired : Bool) : AdhocState Ndev :=
  if expired then (s.wdn ndev).head.foldl (keepaliveNode ndev) s else s

/-- One node of the loop of `wf_adhoc_flush_wdn`. -/
def flushNode (s : AdhocState Ndev) (n : Nat) : AdhocState Ndev :=
  if s.mode n = .adhoc then told ndev s (wdnRemove ndev s ((s.wdn ndev).nodes n).mac) false false
  else s

def wfAdhocFlushWdn (s : AdhocState Ndev) : AdhocState Ndev :=
  { (s.wdn ndev).head.foldl (flushNode ndev) s with asocStaCount := 0 }

/-- Beside the functions of the IBSS, frames come in, and the other interfaces add and remove
WDNs whose ids are of the same bitmap. -/
def adhocStep (s : AdhocState Ndev) : AdhocEvent Ndev ndev → Option (AdhocState Ndev)
  | .join reason network => some (wfAdhocIbssJoin ndev s reason network)
  | .beacon network msg => some (adhocConnMaintainMsg ndev s network msg)
  | .keepalive expired => some (wfAdhocKeepaliveThrd ndev s expired)
  | .flush => some (wfAdhocFlushWdn ndev s)
  | .received n =>
      some { s with rxPktStat := Function.update s.rxPktStat n (s.rxPktStat n + 1) }
  | .otherAdd dev _ mac => some { s with tables := (wfWdnAdd s.tables dev mac).2 }
  | .otherRemove dev _ pmac => some { s with tables := (wfWdnRemove s.tables dev pmac).2 }

end Calls

/-- Behind `wf_wdn_init` and `wf_adhoc_init`. -/
def adhocStart : AdhocState Ndev where
  tables := wdnStart
  mode := fun _ => .other
  rxPktStat := fun _ => 0
  rxPktStatLast := fun _ => 0
  bcn := fun _ => .zero
  asocStaCount := 0
  changes := []

/-! ## What is to hold -/

/-- The first peer is told of with `connect`, and the loss of the last one with `unlink`. -/
structure Change.Exact (c : Change) : Prop where
  connect : c.connect = true ↔ c.before = 0 ∧ c.after = 1
  unlink : c.unlink = true ↔ c.before = 1 ∧ c.after = 0

structure PeersExact (s : AdhocState Ndev) : Prop where
  count : s.asocStaCount.toNat = s.adhocWdns ndev
  changes : ∀ c ∈ s.changes, c.Exact

/-- `wf_wdn_add` has a node and an id for one more WDN. -/
def AdhocState.Room (s : AdhocState Ndev) : Prop :=
  (s.wdn ndev).free ≠ [] ∧ newWdnId s.tables.wdnIdBitmap ≠ none

/--
An interface joins when the broadcast WDN is not there, and no peer has the broadcast
address.  The beacon of a new sender is accepted, and the broadcast WDN is there by then.  No
peer is left when the WDNs are flushed.
-/
def AdhocAllowed (s : AdhocState Ndev) : AdhocEvent Ndev ndev → Prop
  | .join reason network => s.find ndev adhocBcAddr = none ∧
      (reason = 0 → network.macAddr = adhocBcAddr → newWdnId s.tables.wdnIdBitmap = none)
  | .beacon network msg => s.find ndev msg.sa = none → s.Room ndev →
      (wfAdhocPrcBcn network msg .zero).isSome ∧
        (s.find ndev adhocBcAddr = none → msg.sa = adhocBcAddr)
  | .flush => s.peers ndev = 0
  | .keepalive _ | .received _ | .otherAdd .. | .otherRemove .. => True

/-! ## The table behind the peers -/

theorem and_eq_ff {a b : UInt8} : a &&& b = 0xff ↔ a = 0xff ∧ b = 0xff := by
  simp only [← UInt8.toBitVec_inj, UInt8.toBitVec_and]
  exact BitVec.and_eq_allOnes_iff

@[simp] theorem isBcastAddr_eq (mac : MacAddr) :
    isBcastAddr mac.toList = decide (mac = adhocBcAddr) := by
  rw [Bool.eq_iff_iff, decide_eq_true_eq]
  constructor
  · intro bcast
    simp only [isBcastAddr, beq_iff_eq, and_eq_ff] at bcast
    ext i inside
    have cases : i = 0 ∨ i = 1 ∨ i = 2 ∨ i = 3 ∨ i = 4 ∨ i = 5 := by omega
    rcases cases with rfl | rfl | rfl | rfl | rfl | rfl <;>
      simp_all [adhocBcAddr, List.getD_eq_getElem?_getD]
  · rintro rfl
    decide

section Table

variable {ndev} {s s' : AdhocState Ndev} {n k : Nat} {mac : MacAddr}

theorem find_eq_none : s.find ndev mac = none ↔ mac ∉ s.macs ndev := by
  simp [AdhocState.find, AdhocState.macs, wfWdnFindInfo]

theorem nodup_macs (ok : TableOk s.tables) : (s.macs ndev).Nodup := by
  have once : (s.wdn ndev).head.Nodup := (List.nodup_append.mp (ok.nodup ndev)).1
  exact List.Nodup.map_on (fun n hn m hm same => ok.macs ⟨hn, rfl⟩ ⟨hm, rfl⟩ same) once

@[simp] theorem length_macs : (s.macs ndev).length = (s.wdn ndev).head.length := by
  simp [AdhocState.macs]

variable (ndev) in
/-- All the WDNs but the broadcast one are peers. -/
theorem peers_add (ok : TableOk s.tables) :
    (s.wdn ndev).head.length =
      s.peers ndev + if s.find ndev adhocBcAddr = none then 0 else 1 := by
  have split : (s.macs ndev).length = s.peers ndev + (s.macs ndev).count adhocBcAddr := by
    simp only [AdhocState.peers, List.count]
    rw [List.length_eq_countP_add_countP fun mac : MacAddr => !isBcastAddr mac.toList]
    congr 1
    apply List.countP_congr
    simp
  rw [length_macs] at split
  have once : (s.macs ndev).count adhocBcAddr =
      if s.find ndev adhocBcAddr = none then 0 else 1 := by
    split_ifs with absent
    · exact List.count_eq_zero.mpr (find_eq_none.mp absent)
    · exact List.count_eq_one_of_mem (nodup_macs ok) (by simpa [find_eq_none] using absent)
  omega

/-- The new node `n` stands for `mac`. -/
structure Linked (ndev : Ndev) (s s' : AdhocState Ndev) (mac : MacAddr) (n : Nat) : Prop where
  ok : TableOk s'.tables
  head : (s'.wdn ndev).head = (s.wdn ndev).head ++ [n]
  macs : s'.macs ndev = s.macs ndev ++ [mac]
  named : ((s'.wdn ndev).nodes n).mac = mac
  mode : ∀ m ∈ (s.wdn ndev).head, s'.mode m = s.mode m
  zero : s'.bcn n = .zero
  count : s'.asocStaCount = s.asocStaCount
  changes : s'.changes = s.changes

structure Unlinked (ndev : Ndev) (s s' : AdhocState Ndev) (n : Nat) : Prop where
  ok : TableOk s'.tables
  head : (s'.wdn ndev).head = (s.wdn ndev).head.erase n
  macs : (s.macs ndev).Perm (((s.wdn ndev).nodes n).mac :: s'.macs ndev)

variable [DecidableEq Ndev] (ndev) in
theorem wdnAdd_cases (ok : TableOk s.tables) (mac : MacAddr) :
    (∃ n, s.find ndev mac = some n ∧ wdnAdd ndev s mac = (some n, s)) ∨
      (s.find ndev mac = none ∧ ¬ s.Room ndev ∧ wdnAdd ndev s mac = (none, s)) ∨
      ∃ n s', s.find ndev mac = none ∧ s.Room ndev ∧ wdnAdd ndev s mac = (some n, s') ∧
        Linked ndev s s' mac n := by
  unfold wdnAdd wfWdnAdd AdhocState.Room
  cases found : s.find ndev mac with
  | some n =>
      have known : wfWdnFindInfo (s.tables.wdn ndev) (some mac) = some n := found
      simp [known]
  | none =>
      have absent : wfWdnFindInfo (s.tables.wdn ndev) (some mac) = none := found
      cases free : (s.tables.wdn ndev).free with
      | nil => simp [absent, AdhocState.wdn, free]
      | cons n rest =>
          cases new : newWdnId s.tables.wdnIdBitmap with
          | none => simp [absent]
          | some pair =>
              obtain ⟨id, bitmap⟩ := pair
              have apart : ∀ m ∈ (s.wdn ndev).head, m ≠ n := by
                have once := ok.nodup ndev
                rw [free, List.nodup_append] at once
                intro m member
                exact once.2.2 m member n (by simp)
              simp only [absent, AdhocState.wdn, free]
              refine .inr (.inr ⟨n, _, trivial, by simp, rfl, ?_⟩)
              constructor
              · exact linked_ok ok absent free new
              · simp [AdhocState.wdn, linked]
              · have kept : ∀ m ∈ (s.tables.wdn ndev).head,
                    (Function.update (s.tables.wdn ndev).nodes n ⟨mac, id⟩ m).mac =
                      ((s.tables.wdn ndev).nodes m).mac := by
                  intro m member
                  simp [apart m member]
                simpa [AdhocState.macs, AdhocState.wdn, linked] using kept
              · simp [AdhocState.wdn, linked]
              · intro m member
                simp [apart m member]
              · simp
              · rfl
              · rfl

variable [DecidableEq Ndev] in
theorem wdnRemove_spec (ok : TableOk s.tables) (member : n ∈ (s.wdn ndev).head) :
    Unlinked ndev s (wdnRemove ndev s ((s.wdn ndev).nodes n).mac) n := by
  have found := ok.findsOnly ndev ((s.wdn ndev).nodes n).mac
  cases known : wfWdnFindInfo (s.tables.wdn ndev) (some ((s.wdn ndev).nodes n).mac) with
  | none =>
      rw [known] at found
      exact absurd rfl (found n member)
  | some m =>
      rw [known] at found
      have same : n = m := found.2.2 n member rfl
      subst same
      have left : wdnRemove ndev s ((s.wdn ndev).nodes n).mac =
          { s with tables := unlinked s.tables ndev n } := by
        simp [wdnRemove, wfWdnRemove, known]
      rw [left]
      constructor
      · exact unlinked_ok ok ⟨member, rfl⟩
      · simp [AdhocState.wdn, unlinked]
      · have order := (List.perm_cons_erase member).map fun n => ((s.wdn ndev).nodes n).mac
        simpa [AdhocState.macs, AdhocState.wdn, unlinked] using order

theorem Linked.peers (linked : Linked ndev s s' mac n) :
    s'.peers ndev = s.peers ndev + if mac = adhocBcAddr then 0 else 1 := by
  by_cases bcast : mac = adhocBcAddr <;> simp [AdhocState.peers, linked.macs, bcast]

theorem Unlinked.peers (left : Unlinked ndev s s' n) :
    s.peers ndev = s'.peers ndev +
      if ((s.wdn ndev).nodes n).mac = adhocBcAddr then 0 else 1 := by
  by_cases bcast : ((s.wdn ndev).nodes n).mac = adhocBcAddr <;>
    simp [AdhocState.peers, left.macs.countP_eq, bcast]

end Table

/-! ## The count and the table -/

/-- The count is `k` more than the WDNs that there are. -/
structure Drift (ndev : Ndev) (k : Nat) (s : AdhocState Ndev) : Prop where
  ok : TableOk s.tables
  mode : ∀ n ∈ (s.wdn ndev).head, s.mode n = .adhoc
  count : s.asocStaCount.toNat = (s.wdn ndev).head.length + k

structure Clean (ndev : Ndev) (s : AdhocState Ndev) : Prop extends Drift ndev 0 s where
  broadcast : s.find ndev adhocBcAddr = none → (s.wdn ndev).head = []
  changes : ∀ c ∈ s.changes, c.Exact

section Count

variable {ndev} {s s' : AdhocState Ndev} {n k : Nat} {mac : MacAddr}

theorem Drift.adhocWdns (drift : Drift ndev k s) :
    s.adhocWdns ndev = (s.wdn ndev).head.length := by
  simpa [AdhocState.adhocWdns, List.countP_eq_length] using drift.mode

theorem Drift.inexact (drift : Drift ndev (k + 1) s) : ¬ PeersExact ndev s := by
  intro exact
  have count := exact.count
  rw [drift.adhocWdns, drift.count] at count
  omega

theorem Drift.counted (drift : Drift ndev k s) (few : k ≤ 2) :
    (s.asocStaCount + 1).toNat = (s.wdn ndev).head.length + k + 1 := by
  have bounded := drift.ok.head_le ndev
  have count := drift.count
  unfold wdnNumMax at bounded
  simp only [AdhocState.wdn] at *
  rw [UInt8.toNat_add]
  simp
  omega

theorem Drift.setMode (drift : Drift ndev k s) (n : Nat) : Drift ndev k (setMode s n) := by
  refine ⟨drift.ok, ?_, drift.count⟩
  intro m member
  by_cases same : m = n
  · simp [Adhoc.setMode, same]
  · simpa [Adhoc.setMode, same] using drift.mode m member

/-- A WDN that was there is counted once more. -/
theorem Drift.known (drift : Drift ndev k s) (few : k ≤ 2) (n : Nat) :
    Drift ndev (k + 1) (Adhoc.setMode s.counted n) := by
  have counted : Drift ndev (k + 1) s.counted := ⟨drift.ok, drift.mode, drift.counted few⟩
  exact counted.setMode n

theorem Drift.linked (drift : Drift ndev k s) (few : k ≤ 2) (linked : Linked ndev s s' mac n) :
    Drift ndev k (Adhoc.setMode s'.counted n) := by
  refine ⟨linked.ok, ?_, ?_⟩
  · intro m member
    have among : m ∈ (s'.wdn ndev).head := member
    simp only [linked.head, List.mem_append, List.mem_singleton] at among
    by_cases same : m = n
    · simp [Adhoc.setMode, same]
    · have old := among.resolve_right same
      simp [Adhoc.setMode, AdhocState.counted, same, linked.mode m old, drift.mode m old]
  · have counted := drift.counted few
    have longer : ((Adhoc.setMode s'.counted n).wdn ndev).head.length =
        (s.wdn ndev).head.length + 1 := by
      rw [show ((Adhoc.setMode s'.counted n).wdn ndev).head = _ from linked.head]
      simp
    rw [longer, show (Adhoc.setMode s'.counted n).asocStaCount = s'.asocStaCount + 1 from rfl,
      linked.count]
    omega

/-- The count, the WDNs and their modes are all that the drift is about. -/
theorem Drift.congr (drift : Drift ndev k s) (tables : s'.tables = s.tables)
    (mode : s'.mode = s.mode) (count : s'.asocStaCount = s.asocStaCount) : Drift ndev k s' := by
  obtain ⟨ok, adhoc, number⟩ := drift
  constructor
  · rw [tables]
    exact ok
  · intro n member
    simp only [AdhocState.wdn, tables] at member
    rw [mode]
    exact adhoc n member
  · simpa [AdhocState.wdn, tables, count] using number

theorem Clean.exact (clean : Clean ndev s) : PeersExact ndev s := by
  refine ⟨?_, clean.changes⟩
  rw [clean.adhocWdns, clean.count]
  rfl

theorem Clean.no_peers (clean : Clean ndev s) (absent : s.find ndev adhocBcAddr = none) :
    s.peers ndev = 0 ∧ s.macs ndev = [] := by
  simp [AdhocState.peers, AdhocState.macs, clean.broadcast absent]

/-- The broadcast WDN is counted with the peers. -/
theorem Clean.peers (clean : Clean ndev s) :
    s.asocStaCount.toNat = if (s.wdn ndev).head = [] then 0 else s.peers ndev + 1 := by
  have all := peers_add ndev clean.ok
  rw [clean.count]
  by_cases absent : s.find ndev adhocBcAddr = none
  · simp [clean.broadcast absent]
  · have some : (s.wdn ndev).head ≠ [] := by
      intro none
      simp [find_eq_none, AdhocState.macs, none] at absent
    simp [some, all, absent]

theorem Clean.told {connect unlink : Bool} (clean : Clean ndev s) (drift : Drift ndev 0 s')
    (broadcast : s'.find ndev adhocBcAddr = none → (s'.wdn ndev).head = [])
    (same : s'.changes = s.changes)
    (exact : Change.Exact ⟨s.peers ndev, s'.peers ndev, connect, unlink⟩) :
    Clean ndev (told ndev s s' connect unlink) := by
  refine ⟨⟨drift.ok, drift.mode, drift.count⟩, broadcast, ?_⟩
  intro c member
  simp only [AdhocState.told, same, List.mem_append, List.mem_singleton] at member
  rcases member with old | rfl
  · exact clean.changes c old
  · exact exact

theorem Drift.told {old : AdhocState Ndev} {connect unlink : Bool} (drift : Drift ndev k s) :
    Drift ndev k (told ndev old s connect unlink) :=
  drift.congr rfl rfl rfl

theorem told_mem (old s : AdhocState Ndev) (connect unlink : Bool) :
    ⟨old.peers ndev, s.peers ndev, connect, unlink⟩ ∈
      (AdhocState.told ndev old s connect unlink).changes := by
  simp [AdhocState.told]

theorem exact_quiet (number : Nat) : Change.Exact ⟨number, number, false, false⟩ := by
  constructor <;> simp <;> omega

end Count

/-! ## Joining -/

section Join

variable [DecidableEq Ndev] {ndev} {s : AdhocState Ndev} {reason : Int} {network : WfWlanNetwork}

variable (ndev) in
theorem newBoradcastWdn_cases (ok : TableOk s.tables) :
    (∃ n, s.find ndev adhocBcAddr = some n ∧
        wfAdhocNewBoradcastWdn ndev s = setMode s.counted n) ∨
      (s.find ndev adhocBcAddr = none ∧ ¬ s.Room ndev ∧ wfAdhocNewBoradcastWdn ndev s = s) ∨
      ∃ n s', s.find ndev adhocBcAddr = none ∧ s.Room ndev ∧
        wfAdhocNewBoradcastWdn ndev s = setMode s'.counted n ∧
        Linked ndev s s' adhocBcAddr n := by
  rcases wdnAdd_cases ndev ok adhocBcAddr with ⟨n, known, add⟩ | ⟨absent, full, add⟩ |
    ⟨n, s', absent, room, add, linked⟩
  · exact .inl ⟨n, known, by simp [wfAdhocNewBoradcastWdn, add]⟩
  · exact .inr (.inl ⟨absent, full, by simp [wfAdhocNewBoradcastWdn, add]⟩)
  · exact .inr (.inr ⟨n, s', absent, room, by simp [wfAdhocNewBoradcastWdn, add], linked⟩)

/-- With the broadcast WDN counted twice, or the peer, the join ends with a wrong count. -/
theorem join_inexact {k : Nat} (drift : Drift ndev k (wfAdhocNewBoradcastWdn ndev s))
    (few : k ≤ 1)
    (twice : 0 < k ∨ reason = 0 ∧
      (wfAdhocNewBoradcastWdn ndev s).find ndev network.macAddr ≠ none) :
    ¬ PeersExact ndev (wfAdhocIbssJoin ndev s reason network) := by
  simp only [wfAdhocIbssJoin]
  by_cases search : reason = 0
  · simp only [search, if_true]
    rcases wdnAdd_cases ndev drift.ok network.macAddr with ⟨n, known, add⟩ | ⟨absent, full, add⟩ |
      ⟨n, s', absent, room, add, linked⟩
    · have more : Drift ndev (k + 1) (setMode (wfAdhocWdnInfoUpdate
          (wfAdhocNewBoradcastWdn ndev s).counted n) n) :=
        ((drift.known (by omega) n).setMode n).congr rfl rfl rfl
      simpa [add] using more.told.inexact
    · cases k with
      | zero => simp [absent] at twice
      | succ k => simpa [add] using drift.told.inexact
    · cases k with
      | zero => simp [absent] at twice
      | succ k =>
          have same : Drift ndev (k + 1)
              (setMode (wfAdhocWdnInfoUpdate s'.counted n) n) :=
            ((drift.linked (by omega) linked).setMode n).congr rfl rfl rfl
          simpa [add] using same.told.inexact
  · cases k with
    | zero => simp [search] at twice
    | succ k => simpa [search] using drift.told.inexact

theorem Clean.join (clean : Clean ndev s) (absent : s.find ndev adhocBcAddr = none)
    (single : reason = 0 → network.macAddr = adhocBcAddr →
      newWdnId s.tables.wdnIdBitmap = none) :
    Clean ndev (wfAdhocIbssJoin ndev s reason network) := by
  obtain ⟨none, empty⟩ := clean.no_peers absent
  simp only [wfAdhocIbssJoin]
  rcases newBoradcastWdn_cases ndev clean.ok with ⟨n, known, -⟩ | ⟨-, full, same⟩ |
    ⟨n, s', -, room, new, linked⟩
  · simp [absent] at known
  · rw [same]
    have quiet := clean.told clean.toDrift clean.broadcast rfl (exact_quiet (s.peers ndev))
    by_cases search : reason = 0
    · rcases wdnAdd_cases ndev clean.ok network.macAddr with ⟨n, known, -⟩ | ⟨-, -, add⟩ |
        ⟨n, s', -, room, -, -⟩
      · have here : s.find ndev network.macAddr = Option.none := by
          simp [find_eq_none, empty]
        simp [here] at known
      · simpa [search, add] using quiet
      · exact absurd room full
    · simpa [search] using quiet
  · rw [new]
    have drift := clean.linked (by omega) linked
    have macs : (setMode s'.counted n).macs ndev = [adhocBcAddr] := by
      rw [show (setMode s'.counted n).macs ndev = s'.macs ndev from rfl, linked.macs, empty]
      rfl
    have peers : (setMode s'.counted n).peers ndev = 0 := by
      rw [show (setMode s'.counted n).peers ndev = s'.peers ndev from rfl, linked.peers, none]
      rfl
    have there : (setMode s'.counted n).find ndev adhocBcAddr ≠ Option.none := by
      simp [find_eq_none, macs]
    by_cases search : reason = 0
    · simp only [search, if_true]
      rcases wdnAdd_cases ndev drift.ok network.macAddr with ⟨m, known, -⟩ | ⟨-, -, add⟩ |
        ⟨m, s'', peer, -, add, more⟩
      · have bcast : network.macAddr = adhocBcAddr := by
          by_contra other
          have here : (setMode s'.counted n).find ndev network.macAddr = Option.none := by
            simp [find_eq_none, macs, other]
          simp [here] at known
        exact absurd (single search bcast) room.2
      · rw [add]
        exact clean.told drift (fun gone => absurd gone there) linked.changes
          (by simpa [none, peers] using exact_quiet 0)
      · rw [add]
        have apart : network.macAddr ≠ adhocBcAddr := by
          simpa [find_eq_none, macs] using peer
        have joined : Drift ndev 0 (setMode (wfAdhocWdnInfoUpdate s''.counted m) m) :=
          ((drift.linked (by omega) more).setMode m).congr rfl rfl rfl
        apply clean.told joined
        · intro gone
          have listed : adhocBcAddr ∈ s''.macs ndev := by simp [more.macs, macs]
          exact absurd listed (find_eq_none.mp gone)
        · exact more.changes.trans linked.changes
        · have one : (setMode (wfAdhocWdnInfoUpdate s''.counted m) m).peers ndev = 1 := by
            rw [show (setMode (wfAdhocWdnInfoUpdate s''.counted m) m).peers ndev =
              s''.peers ndev from rfl, more.peers, peers]
            simp [apart]
          constructor <;> simp [none, one]
    · simp only [search, if_false]
      exact clean.told drift (fun gone => absurd gone there) linked.changes
        (by simpa [none, peers] using exact_quiet 0)

theorem Clean.join_refused (clean : Clean ndev s)
    (refused : ¬ (s.find ndev adhocBcAddr = none ∧ (reason = 0 →
      network.macAddr = adhocBcAddr → newWdnId s.tables.wdnIdBitmap = none))) :
    ¬ PeersExact ndev (wfAdhocIbssJoin ndev s reason network) := by
  rcases newBoradcastWdn_cases ndev clean.ok with ⟨n, known, again⟩ | ⟨absent, full, -⟩ |
    ⟨n, s', absent, room, new, linked⟩
  · have drift : Drift ndev 1 (wfAdhocNewBoradcastWdn ndev s) := by
      rw [again]
      exact clean.known (by omega) n
    exact join_inexact drift (by omega) (.inl (by omega))
  · have none := clean.broadcast absent
    have free : (s.wdn ndev).free ≠ [] := by
      intro used
      have all := (clean.ok.nodes ndev).length_eq
      simp only [AdhocState.wdn] at none used
      simp [none, used, wdnNumMax] at all
    simp only [AdhocState.Room, free, ne_eq, not_false_eq_true, true_and, not_not] at full
    exact absurd ⟨absent, fun _ _ => full⟩ refused
  · have drift : Drift ndev 0 (wfAdhocNewBoradcastWdn ndev s) := by
      rw [new]
      exact clean.linked (by omega) linked
    have search : reason = 0 ∧ network.macAddr = adhocBcAddr := by
      simp only [absent, true_and, Classical.not_imp] at refused
      exact ⟨refused.1, refused.2.1⟩
    refine join_inexact drift (by omega) (.inr ⟨search.1, ?_⟩)
    rw [new, search.2]
    intro gone
    have listed : adhocBcAddr ∈ s'.macs ndev := by simp [linked.macs]
    exact absurd listed (find_eq_none.mp gone)

end Join

/-! ## Beacons -/

section Beacon

variable [DecidableEq Ndev] {ndev} {s : AdhocState Ndev} {network : WfWlanNetwork} {msg : BcnMsg}

theorem Clean.beacon (clean : Clean ndev s)
    (accepted : s.find ndev msg.sa = none → s.Room ndev →
      (wfAdhocPrcBcn network msg .zero).isSome ∧
        (s.find ndev adhocBcAddr = none → msg.sa = adhocBcAddr)) :
    Clean ndev (adhocConnMaintainMsg ndev s network msg) := by
  unfold adhocConnMaintainMsg
  cases sender : s.find ndev msg.sa with
  | some n => exact clean
  | none =>
      rcases wdnAdd_cases ndev clean.ok msg.sa with ⟨n, known, -⟩ | ⟨-, -, add⟩ |
        ⟨n, s', -, room, add, linked⟩
      · simp [sender] at known
      · simpa [add] using clean
      · obtain ⟨parsed, broadcast⟩ := accepted sender room
        obtain ⟨info, parsed⟩ := Option.isSome_iff_exists.mp parsed
        have zero : (wfAdhocWdnInfoUpdate s'.counted n).bcn n = .zero := linked.zero
        simp only [add, zero, parsed]
        have drift : Drift ndev 0 { wfAdhocWdnInfoUpdate s'.counted n with
            bcn := Function.update (wfAdhocWdnInfoUpdate s'.counted n).bcn n info } :=
          (clean.linked (by omega) linked).congr rfl rfl rfl
        apply clean.told drift
        · intro gone
          have unlisted := find_eq_none.mp gone
          change adhocBcAddr ∉ s'.macs ndev at unlisted
          simp only [linked.macs, List.mem_append, List.mem_singleton, not_or] at unlisted
          exact absurd (broadcast (find_eq_none.mpr unlisted.1)).symm unlisted.2
        · exact linked.changes
        · have count := drift.count
          have longer : (s'.wdn ndev).head.length = (s.wdn ndev).head.length + 1 := by
            simp [linked.head]
          change (s'.asocStaCount + 1).toNat = (s'.wdn ndev).head.length + 0 at count
          have all := peers_add ndev clean.ok
          have peers := linked.peers
          change Change.Exact ⟨s.peers ndev, s'.peers ndev, decide (s'.asocStaCount + 1 = 2), false⟩
          rw [show decide (s'.asocStaCount + 1 = 2) =
            decide ((s'.asocStaCount + 1).toNat = 2) by simp [← UInt8.toNat_inj]]
          by_cases absent : s.find ndev adhocBcAddr = none
          · rw [broadcast absent] at peers
            have none := clean.no_peers absent
            simp [none.1, absent] at all peers
            constructor <;> simp [none.1, peers, count, longer, all]
          · have apart : msg.sa ≠ adhocBcAddr := by
              intro same
              exact absent (same ▸ sender)
            simp [absent, apart] at all peers
            constructor <;> simp [peers, count, longer, all]

/-- The WDN of a sender whose beacon is not accepted stays counted, and the first peer is told
of as the second WDN. -/
theorem Clean.beacon_refused (clean : Clean ndev s)
    (refused : ¬ (s.find ndev msg.sa = none → s.Room ndev →
      (wfAdhocPrcBcn network msg .zero).isSome ∧
        (s.find ndev adhocBcAddr = none → msg.sa = adhocBcAddr))) :
    ¬ PeersExact ndev (adhocConnMaintainMsg ndev s network msg) := by
  simp only [Classical.not_imp] at refused
  obtain ⟨sender, room, refused⟩ := refused
  unfold adhocConnMaintainMsg
  rcases wdnAdd_cases ndev clean.ok msg.sa with ⟨n, known, -⟩ | ⟨-, full, -⟩ |
    ⟨n, s', -, -, add, linked⟩
  · simp [sender] at known
  · exact absurd room full
  · have zero : (wfAdhocWdnInfoUpdate s'.counted n).bcn n = .zero := linked.zero
    have drift : Drift ndev 0 (wfAdhocWdnInfoUpdate s'.counted n) :=
      (clean.linked (by omega) linked).congr rfl rfl rfl
    simp only [sender, add, zero]
    cases parsed : wfAdhocPrcBcn network msg .zero with
    | none =>
        have member : n ∈ ((wfAdhocWdnInfoUpdate s'.counted n).wdn ndev).head := by
          change n ∈ (s'.wdn ndev).head
          simp [linked.head]
        have left := wdnRemove_spec drift.ok member
        rw [show (((wfAdhocWdnInfoUpdate s'.counted n).wdn ndev).nodes n).mac = msg.sa from
          linked.named] at left
        have more : Drift ndev 1
            (wdnRemove ndev (wfAdhocWdnInfoUpdate s'.counted n) msg.sa) := by
          constructor
          · exact left.ok
          · intro m held
            rw [left.head] at held
            exact drift.mode m (List.mem_of_mem_erase held)
          · rw [left.head, List.length_erase_of_mem member]
            have pos := List.length_pos_of_mem member
            have count := drift.count
            change (s'.asocStaCount + 1).toNat = _
            change (s'.asocStaCount + 1).toNat = _ at count
            omega
        exact more.told.inexact
    | some info =>
        have alone : s.find ndev adhocBcAddr = none ∧ msg.sa ≠ adhocBcAddr := by
          simpa [parsed] using refused
        have peers := linked.peers
        have none := clean.no_peers alone.1
        have empty := clean.broadcast alone.1
        have count := drift.count
        change (s'.asocStaCount + 1).toNat = (s'.wdn ndev).head.length + 0 at count
        simp [linked.head, empty] at count
        intro exact
        have silent := (exact.changes _ (told_mem _ _ _ _)).connect
        change decide (s'.asocStaCount + 1 = 2) = true ↔
          s.peers ndev = 0 ∧ s'.peers ndev = 1 at silent
        simp [none.1, peers, alone.2, ← UInt8.toNat_inj, count] at silent

end Beacon

/-! ## The loops over the WDNs -/

section Loops

variable [DecidableEq Ndev] {ndev} {s : AdhocState Ndev} {n : Nat}

theorem Clean.keepaliveNode (clean : Clean ndev s) (member : n ∈ (s.wdn ndev).head) :
    Clean ndev (keepaliveNode ndev s n) ∧
      ∀ m ∈ (s.wdn ndev).head, m ≠ n → m ∈ ((keepaliveNode ndev s n).wdn ndev).head := by
  unfold Adhoc.keepaliveNode
  split_ifs with alive bcast
  · exact ⟨⟨⟨clean.ok, clean.mode, clean.count⟩, clean.broadcast, clean.changes⟩,
      fun m held _ => held⟩
  · exact ⟨clean, fun m held _ => held⟩
  · simp only [isBcastAddr_eq, decide_eq_true_eq] at bcast
    dsimp only
    have left : Unlinked ndev { s with asocStaCount := s.asocStaCount - 1 }
        (wdnRemove ndev { s with asocStaCount := s.asocStaCount - 1 }
          ((s.wdn ndev).nodes n).mac) n := wdnRemove_spec clean.ok member
    generalize removed : wdnRemove ndev { s with asocStaCount := s.asocStaCount - 1 }
      ((s.wdn ndev).nodes n).mac = s' at left
    have mode : s'.mode = s.mode := removed ▸ rfl
    have less : s'.asocStaCount = s.asocStaCount - 1 := removed ▸ rfl
    have changes : s'.changes = s.changes := removed ▸ rfl
    have head : (s'.wdn ndev).head = (s.wdn ndev).head.erase n := left.head
    have long := List.length_pos_of_mem member
    have shorter := List.length_erase_of_mem member
    have bounded := clean.ok.head_le ndev
    unfold wdnNumMax at bounded
    change (s.wdn ndev).head.length ≤ 5 at bounded
    have count : s'.asocStaCount.toNat = (s'.wdn ndev).head.length := by
      have before := clean.count
      rw [less, UInt8.toNat_sub, head, shorter, before]
      simp
      omega
    have there : s.find ndev adhocBcAddr ≠ none := by
      intro gone
      simp [clean.broadcast gone] at member
    have stays : s'.find ndev adhocBcAddr ≠ none := by
      have listed : adhocBcAddr ∈ s.macs ndev := by
        simpa [find_eq_none] using there
      have after : adhocBcAddr ∈ ((s.wdn ndev).nodes n).mac :: s'.macs ndev :=
        left.macs.mem_iff.mp listed
      simp only [List.mem_cons, Ne.symm bcast, false_or] at after
      simpa [find_eq_none] using after
    refine ⟨clean.told ⟨left.ok, ?_, count⟩ (fun gone => absurd gone stays) changes ?_, ?_⟩
    · intro m held
      rw [head] at held
      rw [mode]
      exact clean.mode m (List.mem_of_mem_erase held)
    · have all := peers_add ndev left.ok
      have peers := left.peers
      change s.peers ndev = s'.peers ndev + (if ((s.wdn ndev).nodes n).mac = adhocBcAddr
        then 0 else 1) at peers
      simp only [bcast, if_false] at peers
      simp only [stays, if_false] at all
      constructor
      · simp [peers]
      · simp only [decide_eq_true_eq, ← UInt8.toNat_inj, count, all, peers]
        simp
    · intro m held apart
      change m ∈ (s'.wdn ndev).head
      rw [head]
      exact (List.mem_erase_of_ne apart).mpr held

theorem Clean.keepalive {nodes : List Nat} (clean : Clean ndev s) (once : nodes.Nodup)
    (members : ∀ n ∈ nodes, n ∈ (s.wdn ndev).head) :
    Clean ndev (nodes.foldl (Adhoc.keepaliveNode ndev) s) := by
  induction nodes generalizing s with
  | nil => exact clean
  | cons n nodes ih =>
      obtain ⟨kept, others⟩ := clean.keepaliveNode (members n (by simp))
      simp only [List.nodup_cons] at once
      apply ih kept once.2
      intro m held
      exact others m (members m (by simp [held])) (fun same => once.1 (same ▸ held))

/-- The WDNs leave one after another, and only when none is a peer is nothing to be told. -/
theorem flush_nodes {nodes : List Nat} (ok : TableOk s.tables)
    (mode : ∀ n ∈ (s.wdn ndev).head, s.mode n = .adhoc) (head : (s.wdn ndev).head = nodes) :
    TableOk (nodes.foldl (flushNode ndev) s).tables ∧
      ((nodes.foldl (flushNode ndev) s).wdn ndev).head = [] ∧
      ((∀ c ∈ (nodes.foldl (flushNode ndev) s).changes, c.Exact) ↔
        (∀ c ∈ s.changes, c.Exact) ∧ s.peers ndev = 0) := by
  induction nodes generalizing s with
  | nil => simp [ok, head, AdhocState.peers, AdhocState.macs]
  | cons n nodes ih =>
      have member : n ∈ (s.wdn ndev).head := by simp [head]
      have left := wdnRemove_spec ok member
      have flushed : flushNode ndev s n =
          told ndev s (wdnRemove ndev s ((s.wdn ndev).nodes n).mac) false false := by
        simp [flushNode, mode n member]
      rw [List.foldl_cons, flushed]
      generalize removed : wdnRemove ndev s ((s.wdn ndev).nodes n).mac = s' at left
      have rest : (s'.wdn ndev).head = nodes := by simp [left.head, head]
      have same : s'.changes = s.changes := removed ▸ rfl
      have modes : s'.mode = s.mode := removed ▸ rfl
      obtain ⟨ok', empty, changes⟩ := ih (s := told ndev s s' false false) left.ok
        (fun m held => by
          change s'.mode m = .adhoc
          rw [modes]
          exact mode m (List.mem_of_mem_erase (left.head ▸ held))) rest
      refine ⟨ok', empty, changes.trans ?_⟩
      have peers := left.peers
      change _ ∧ s'.peers ndev = 0 ↔ _
      simp only [AdhocState.told, same, List.mem_append, List.mem_singleton, or_imp, forall_and,
        forall_eq]
      constructor
      · rintro ⟨⟨old, exact⟩, none⟩
        have silent := exact.unlink
        simp [none] at silent
        split_ifs at peers <;> exact ⟨old, by omega⟩
      · rintro ⟨old, none⟩
        have after : s'.peers ndev = 0 := by omega
        rw [none, after]
        exact ⟨⟨old, exact_quiet 0⟩, rfl⟩

theorem Clean.flush (clean : Clean ndev s) (alone : s.peers ndev = 0) :
    Clean ndev (wfAdhocFlushWdn ndev s) := by
  obtain ⟨ok, empty, changes⟩ := flush_nodes clean.ok clean.mode rfl
  refine ⟨⟨ok, ?_, ?_⟩, fun _ => empty, changes.2 ⟨clean.changes, alone⟩⟩
  · intro n member
    exact absurd member (by simp [wfAdhocFlushWdn, AdhocState.wdn] at empty ⊢; simp [empty])
  · change 0 = _ + 0
    simp [show ((wfAdhocFlushWdn ndev s).wdn ndev).head = [] from empty]

theorem Clean.flush_refused (clean : Clean ndev s) (peers : s.peers ndev ≠ 0) :
    ¬ PeersExact ndev (wfAdhocFlushWdn ndev s) := by
  intro exact
  exact peers ((flush_nodes clean.ok clean.mode rfl).2.2.1 exact.changes).2

end Loops

/-! ## Runs -/

section Runs

variable [DecidableEq Ndev] {ndev} {s : AdhocState Ndev}

omit [DecidableEq Ndev] in
theorem Clean.other {tables : WdnTables Ndev} (clean : Clean ndev s) (ok : TableOk tables)
    (same : tables.wdn ndev = s.tables.wdn ndev) : Clean ndev { s with tables := tables } := by
  obtain ⟨⟨-, mode, count⟩, broadcast, changes⟩ := clean
  simp only [AdhocState.find, AdhocState.wdn] at *
  constructor
  · constructor <;> simpa [AdhocState.wdn, same]
  · simpa [AdhocState.find, AdhocState.wdn, same] using broadcast
  · exact changes

theorem wfWdnAdd_apart {s : WdnTables Ndev} {dev : Ndev} (apart : dev ≠ ndev) (mac : MacAddr) :
    (wfWdnAdd s dev mac).2.wdn ndev = s.wdn ndev := by
  rcases wfWdnAdd_cases s dev mac with same | ⟨n, rest, id, bitmap, -, -, -, new⟩
  · rw [same]
  · simp [new, linked, Ne.symm apart]

theorem wfWdnRemove_apart {s : WdnTables Ndev} {dev : Ndev} (apart : dev ≠ ndev)
    (pmac : Option MacAddr) : (wfWdnRemove s dev pmac).2.wdn ndev = s.wdn ndev := by
  unfold wfWdnRemove
  cases wfWdnFindInfo (s.wdn dev) pmac <;> simp [unlinked, Ne.symm apart]

theorem Clean.step {event : AdhocEvent Ndev ndev} (clean : Clean ndev s)
    (allowed : AdhocAllowed ndev s event) :
    ∃ next, adhocStep ndev s event = some next ∧ Clean ndev next := by
  cases event with
  | join reason network => exact ⟨_, rfl, clean.join allowed.1 allowed.2⟩
  | beacon network msg => exact ⟨_, rfl, clean.beacon allowed⟩
  | keepalive expired =>
      refine ⟨_, rfl, ?_⟩
      cases expired with
      | false => exact clean
      | true =>
          have once := (List.nodup_append.mp (clean.ok.nodup ndev)).1
          exact clean.keepalive once fun n member => member
  | flush => exact ⟨_, rfl, clean.flush allowed⟩
  | received n =>
      exact ⟨_, rfl, ⟨clean.ok, clean.mode, clean.count⟩, clean.broadcast, clean.changes⟩
  | otherAdd dev apart mac =>
      exact ⟨_, rfl, clean.other (wfWdnAdd_ok clean.ok dev mac) (wfWdnAdd_apart apart mac)⟩
  | otherRemove dev apart pmac =>
      exact ⟨_, rfl, clean.other (wfWdnRemove_ok clean.ok dev pmac)
        (wfWdnRemove_apart apart pmac)⟩

theorem Clean.refused {event : AdhocEvent Ndev ndev} {next : AdhocState Ndev}
    (clean : Clean ndev s) (refused : ¬ AdhocAllowed ndev s event)
    (steps : adhocStep ndev s event = some next) : ¬ PeersExact ndev next := by
  cases event with
  | join reason network =>
      cases steps
      exact clean.join_refused refused
  | beacon network msg =>
      cases steps
      exact clean.beacon_refused refused
  | flush =>
      cases steps
      exact clean.flush_refused refused
  | keepalive expired => exact absurd trivial refused
  | received n => exact absurd trivial refused
  | otherAdd dev apart mac => exact absurd trivial refused
  | otherRemove dev apart pmac => exact absurd trivial refused

omit [DecidableEq Ndev] in
theorem adhocStart_clean : Clean ndev (adhocStart : AdhocState Ndev) := by
  refine ⟨⟨wdnStart_ok, ?_, ?_⟩, ?_, ?_⟩ <;> simp [adhocStart, AdhocState.wdn, wdnStart]

/--
The count is the number of ad-hoc WDNs, and the first and the last peer are told of, throughout
exactly the runs in which an interface joins without a broadcast WDN, every new sender's beacon
is accepted, and the flushes leave the last peer to the keep-alive.
-/
theorem peers_exact_iff (events : List (AdhocEvent Ndev ndev)) :
    Throughout (adhocStep ndev) (PeersExact ndev) adhocStart events ↔
      EachStep (adhocStep ndev) (AdhocAllowed ndev) adhocStart events := by
  apply throughout_iff_of_clean (Clean ndev)
  · exact fun s clean => clean.exact
  · exact fun s event clean allowed => clean.step allowed
  · exact fun s event next clean refused steps => clean.refused refused steps
  · exact adhocStart_clean

end Runs

def someNetwork : WfWlanNetwork :=
  ⟨apAddr, #v[0x82, 0x84, 0, 0, 0, 0, 0, 0, 0, 0, 0, 0, 0, 0, 0, 0], 6⟩

/-- A beacon of 39 bytes with one rate, from the sender `last`. -/
def beaconOf (last rate : UInt8) : BcnMsg where
  value := Mem.write (fun _ => 0) 0 ([0x80, 0, 0, 0] ++ List.replicate 6 0xff ++
    [2, 0, 0, 0, 0, last] ++ List.replicate 20 0 ++ [1, 1, rate])
  len := 39
  fixed := by decide
  fits := by decide

def createIbss : AdhocEvent Unit () := .join 1 someNetwork

/-- The count, the number of ad-hoc WDNs, and the last call. -/
def tally (s : AdhocState Unit) : UInt8 × Nat × Option Change :=
  (s.asocStaCount, s.adhocWdns (), s.changes.getLast?)

theorem not_exact_of_tally {events : List (AdhocEvent Unit ())} (count : UInt8) (number : Nat)
    (change : Option Change)
    (ends : (run (adhocStep ()) adhocStart events).map tally = some (count, number, change))
    (apart : count.toNat ≠ number ∨ ∃ c, change = some c ∧ ¬ c.Exact) :
    ¬ Throughout (adhocStep ()) (PeersExact ()) adhocStart events := by
  intro throughout
  obtain ⟨final, exact, seen⟩ := throughout.observed ends
  simp only [tally, Prod.mk.injEq] at seen
  obtain ⟨rfl, rfl, rfl⟩ := seen
  rcases apart with apart | ⟨c, last, inexact⟩
  · exact apart exact.count
  · exact inexact (exact.changes c (List.mem_of_getLast? last))

/-- A beacon with a rate of no use leaves its sender counted, and is told of as a first peer;
so does a second join with the broadcast WDN, and a flush says nothing of the last peer. -/
theorem ibss_count_drifts :
    (run (adhocStep ()) adhocStart [createIbss, .beacon someNetwork (beaconOf 7 0x8b)]).map
        tally = some (2, 1, some ⟨0, 0, true, false⟩) ∧
      ¬ Throughout (adhocStep ()) (PeersExact ()) adhocStart
        [createIbss, .beacon someNetwork (beaconOf 7 0x8b)] ∧
      ¬ Throughout (adhocStep ()) (PeersExact ()) adhocStart [createIbss, createIbss] ∧
      ¬ Throughout (adhocStep ()) (PeersExact ()) adhocStart
        [createIbss, .beacon someNetwork (beaconOf 7 0x82), .flush] := by
  have rejected : (run (adhocStep ()) adhocStart
      [createIbss, .beacon someNetwork (beaconOf 7 0x8b)]).map
        tally = some (2, 1, some ⟨0, 0, true, false⟩) := by decide +kernel
  refine ⟨rejected, not_exact_of_tally _ _ _ rejected (.inl (by decide)), ?_, ?_⟩
  · exact not_exact_of_tally 2 1 (some ⟨0, 0, false, false⟩)
      (by decide +kernel) (.inl (by decide))
  · exact not_exact_of_tally 0 0 (some ⟨1, 0, false, false⟩)
      (by decide +kernel) (.inr ⟨_, rfl, fun exact => by simpa using exact.unlink⟩)

end Smartchip.Adhoc
