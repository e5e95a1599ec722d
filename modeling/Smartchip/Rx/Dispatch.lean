import Smartchip.Frame.Header

/-!
# From a received buffer to the interfaces

`hif_frame_dispath` (`os/linux/hif/hif_queue.c`) chooses the interfaces by the
header of the first packet of a buffer, and `rx_work` (`os/linux/rx_linux.c`)
processes all packets of the buffer on each of them.
-/

namespace Smartchip.Rx

open Smartchip.Foundation Smartchip.Frame

/-! ## The packets of a buffer -/

/-- `CONFIG_RICHV200` and `CONFIG_RICHV300`. -/
structure RxBuild where
  richv200 : Bool
  richv300 : Bool

/-- `width` bits of a descriptor word, from bit `low` on. -/
def rxdBits (mem : Mem) (word low width : Nat) : Nat :=
  ((mem.readLe16 word).toNat + 65536 * (mem.readLe16 (word + 2)).toNat) / 2 ^ low %
    2 ^ width

def rxdescSize : Nat := 24

def wfRxdescChksum (mem : Mem) (prxDesc : Nat) : Bool :=
  (List.range 11).foldl (fun sum i => sum ^^^ mem.readLe16 (prxDesc + 2 * i)) 0 ==
    mem.readLe16 (prxDesc + 22)

/-- The length, and whether the descriptor is valid; `remain` is narrowed to
16 bits by the call. -/
def wfRxGetPktLenAndCheckValid (build : RxBuild) (mem : Mem) (buf remain : Nat) :
    Nat × Bool :=
  if build.richv300 && !wfRxdescChksum mem buf then (0, false)
  else if build.richv200 then
    let drvinfoSize := rxdBits mem buf 14 4
    let rxdLen := rxdBits mem (buf + 4) 0 14
    let pktLen := rxdescSize + drvinfoSize * 8 + rxdLen
    (pktLen, decide (rxdLen ≠ 0 ∧ drvinfoSize = 4 ∧ rxdBits mem buf 2 8 = 0 ∧
      rxdBits mem buf 19 1 = 0 ∧ pktLen ≤ remain % 65536 ∧
      rxdBits mem (buf + 8) 15 1 = 0))
  else
    let rxdLen := rxdBits mem buf 0 14
    let pktLen := rxdescSize + 4 * 8 + rxdLen
    (pktLen, decide (rxdLen ≠ 0 ∧ rxdBits mem buf 14 1 = 0 ∧
      pktLen ≤ remain % 65536 ∧ rxdBits mem (buf + 8) 28 1 = 0))

def wfRnd8 (x : Nat) : Nat := (x / 8 + if x % 8 = 0 then 0 else 1) * 8

structure RxMpdu where
  pbuf : Nat
  pktLen : Nat
  deriving DecidableEq

/-- The loop of `rx_work`: the packets given to `mpdu_process`. -/
def rxLoop (build : RxBuild) (mem : Mem) : Nat → Nat → Nat → List RxMpdu
  | 0, _, _ => []
  | fuel + 1, pbuf, remainLen =>
      let packet := wfRxGetPktLenAndCheckValid build mem pbuf remainLen
      if packet.2 = false then []
      else
        let onceLen := wfRnd8 packet.1
        ⟨pbuf, packet.1⟩ ::
          if remainLen ≤ onceLen then []
          else rxLoop build mem fuel (pbuf + onceLen) (remainLen - onceLen)

/-- A turn of the loop takes at least a descriptor, so `len` turns are enough. -/
def rxMpdus (build : RxBuild) (mem : Mem) (len : Nat) : List RxMpdu :=
  rxLoop build mem (len + 1) 0 len

/-- The address 1 of a packet, behind the descriptor and the driver information. -/
def receiverOf (mem : Mem) (pbuf : Nat) : List UInt8 :=
  getAddr1 mem (pbuf + rxdescSize + 32)

/-! ## The interfaces -/

/-- `running` is what `rx_work` tests: the interface is up and has its parts. -/
structure HifNic where
  devAddr : MacAddr
  running : Bool

def rxWork (build : RxBuild) (mem : Mem) (len num : Nat) (nic : HifNic) :
    List (Nat × RxMpdu) :=
  if nic.running then (rxMpdus build mem len).map fun mpdu => (num, mpdu) else []

/-- The loop of `hif_frame_dispath`; a slot is `none` while `nic_info` or its
`ndev` is `NULL`.  The outcome is every call of `mpdu_process`. -/
def dispathLoop (build : RxBuild) (mem : Mem) (len : Nat) :
    Nat → List (Option HifNic) → List (Nat × RxMpdu)
  | _, [] => []
  | _, none :: _ => []
  | num, some nic :: nics =>
      if nic.devAddr.toList = receiverOf mem 0 then rxWork build mem len num nic
      else if bcAddr = receiverOf mem 0 then
        rxWork build mem len num nic ++ dispathLoop build mem len (num + 1) nics
      else dispathLoop build mem len (num + 1) nics

def hifFrameDispath (build : RxBuild) (nics : List (Option HifNic)) (mem : Mem)
    (len : Nat) : List (Nat × RxMpdu) :=
  dispathLoop build mem len 0 nics

/-! ## What a dispatcher is for -/

/-- A receiver address that means this interface: its own, or any group. -/
def MeantFor (receiver : List UInt8) (nic : HifNic) : Prop :=
  receiver = nic.devAddr.toList ∨ isMcast receiver

instance (receiver : List UInt8) (nic : HifNic) : Decidable (MeantFor receiver nic) :=
  inferInstanceAs (Decidable (_ ∨ _))

def processedOn (calls : List (Nat × RxMpdu)) (num : Nat) : List RxMpdu :=
  (calls.filter fun call => call.1 = num).map Prod.snd

/-- Every interface processes the packets for it, and only these, in order. -/
def Dispatched (nics : List (Option HifNic)) (mem : Mem) (mpdus : List RxMpdu)
    (calls : List (Nat × RxMpdu)) : Prop :=
  ∀ num, processedOn calls num =
    match nics[num]? with
    | some (some nic) => mpdus.filter fun mpdu => MeantFor (receiverOf mem mpdu.pbuf) nic
    | _ => []

/-! ## What the dispatcher does -/

/-- The dispatcher comes to this slot: the ones before it are registered, with
other addresses. -/
def Reached (nics : List (Option HifNic)) (mem : Mem) (num : Nat) : Prop :=
  ∀ slot ∈ nics.take num, ∃ nic, slot = some nic ∧
    nic.devAddr.toList ≠ receiverOf mem 0

def Selected (nics : List (Option HifNic)) (mem : Mem) (num : Nat) (nic : HifNic) :
    Prop :=
  nic.running = true ∧ Reached nics mem num ∧
    (nic.devAddr.toList = receiverOf mem 0 ∨ bcAddr = receiverOf mem 0)

section Loop

variable {build : RxBuild} {mem : Mem} {len : Nat}

theorem processedOn_rxWork (build : RxBuild) (mem : Mem) (len base num : Nat)
    (nic : HifNic) : processedOn (rxWork build mem len base nic) num =
      if base = num ∧ nic.running = true then rxMpdus build mem len else [] := by
  unfold processedOn rxWork
  cases nic.running with
  | false => simp
  | true =>
      by_cases same : base = num
      · subst same
        rw [if_pos rfl, if_pos ⟨rfl, rfl⟩]
        induction rxMpdus build mem len with
        | nil => rfl
        | cons mpdu mpdus ih => simpa using ih
      · simp [same]

theorem processedOn_append (calls others : List (Nat × RxMpdu)) (num : Nat) :
    processedOn (calls ++ others) num = processedOn calls num ++ processedOn others num := by
  simp [processedOn]

theorem processedOn_before (nics : List (Option HifNic)) {base num : Nat}
    (before : num < base) :
    processedOn (dispathLoop build mem len base nics) num = [] := by
  induction nics generalizing base with
  | nil => rfl
  | cons slot nics ih =>
      cases slot with
      | none => rfl
      | some nic =>
          have here : processedOn (rxWork build mem len base nic) num = [] := by
            rw [processedOn_rxWork, if_neg (by omega)]
          rw [dispathLoop]
          split
          · exact here
          · split
            · rw [processedOn_append, here, ih (by omega)]
              rfl
            · exact ih (by omega)

theorem reached_cons {slot : Option HifNic} {nics : List (Option HifNic)} {num : Nat} :
    Reached (slot :: nics) mem (num + 1) ↔
      (∃ nic, slot = some nic ∧ nic.devAddr.toList ≠ receiverOf mem 0) ∧
        Reached nics mem num := by
  simp [Reached]

/-- What is processed on a slot: all packets if it is selected, else nothing. -/
def SlotDone (nics : List (Option HifNic)) (mem : Mem) (num : Nat)
    (mpdus done : List RxMpdu) : Prop :=
  match nics[num]? with
  | some (some nic) => (Selected nics mem num nic → done = mpdus) ∧
      (¬ Selected nics mem num nic → done = [])
  | _ => done = []

theorem slotDone_blocked {nics : List (Option HifNic)} {num : Nat} {mpdus : List RxMpdu}
    (blocked : ¬ Reached nics mem num) : SlotDone nics mem num mpdus [] := by
  unfold SlotDone
  split
  · exact ⟨fun selected => absurd selected.2.1 blocked, fun _ => rfl⟩
  · rfl

theorem slotDone_cons {nic : HifNic} {nics : List (Option HifNic)} {num : Nat}
    {mpdus done : List RxMpdu} (other : nic.devAddr.toList ≠ receiverOf mem 0)
    (rest : SlotDone nics mem num mpdus done) :
    SlotDone (some nic :: nics) mem (num + 1) mpdus done := by
  unfold SlotDone at rest ⊢
  rw [List.getElem?_cons_succ]
  simpa [Selected, reached_cons, other] using rest

theorem slotDone_first {nic : HifNic} {nics : List (Option HifNic)} {mpdus : List RxMpdu}
    (chosen : nic.devAddr.toList = receiverOf mem 0 ∨ bcAddr = receiverOf mem 0) :
    SlotDone (some nic :: nics) mem 0 mpdus (if nic.running then mpdus else []) := by
  have reached : Reached (some nic :: nics) mem 0 := by simp [Reached]
  unfold SlotDone
  simp only [List.getElem?_cons_zero, Selected, reached, chosen, and_true]
  cases nic.running with
  | false => simp
  | true => simp

theorem dispathLoop_slot (build : RxBuild) (mem : Mem) (len : Nat)
    (nics : List (Option HifNic)) (base num : Nat) :
    SlotDone nics mem num (rxMpdus build mem len)
      (processedOn (dispathLoop build mem len base nics) (base + num)) := by
  induction nics generalizing base num with
  | nil => rfl
  | cons slot nics ih =>
      cases slot with
      | none =>
          cases num with
          | zero => rfl
          | succ num => exact slotDone_blocked (by simp [reached_cons])
      | some nic =>
          rw [dispathLoop]
          cases num with
          | zero =>
              -- nothing later is recorded under the number of this slot
              have later : processedOn (dispathLoop build mem len (base + 1) nics) base = [] :=
                processedOn_before nics (Nat.lt_succ_self base)
              have here := processedOn_rxWork build mem len base base nic
              simp only [true_and] at here
              simp only [Nat.add_zero]
              split_ifs with own bc
              · rw [here]
                exact slotDone_first (.inl own)
              · rw [processedOn_append, here, later, List.append_nil]
                exact slotDone_first (.inr bc)
              · rw [later]
                unfold SlotDone
                simp [Selected, own, bc]
          | succ num =>
              have rest := ih (base + 1) num
              have skipped : processedOn (rxWork build mem len base nic) (base + (num + 1)) =
                  [] := by
                rw [processedOn_rxWork, if_neg (by omega)]
              rw [Nat.add_assoc, Nat.add_comm 1 num] at rest
              split_ifs with own bc
              · rw [skipped]
                exact slotDone_blocked (by simp [reached_cons, own])
              · rw [processedOn_append, skipped, List.nil_append]
                exact slotDone_cons own rest
              · exact slotDone_cons own rest

end Loop

/-! ## When it dispatches -/

/-- The packets of the buffer are all for the same interfaces as the first. -/
def OneAudience (nics : List (Option HifNic)) (mem : Mem) (mpdus : List RxMpdu) : Prop :=
  ∀ nic, some nic ∈ nics → ∀ mpdu ∈ mpdus,
    (MeantFor (receiverOf mem mpdu.pbuf) nic ↔ MeantFor (receiverOf mem 0) nic)

/-- Every interface the first header is for is selected. -/
def FirstServed (nics : List (Option HifNic)) (mem : Mem) : Prop :=
  ∀ num nic, nics[num]? = some (some nic) → MeantFor (receiverOf mem 0) nic →
    Selected nics mem num nic

section Dispatch

variable {build : RxBuild} {nics : List (Option HifNic)} {mem : Mem} {len : Nat}

theorem isMcast_bcAddr : isMcast bcAddr := by decide

theorem Selected.meantFor {num : Nat} {nic : HifNic} (selected : Selected nics mem num nic) :
    MeantFor (receiverOf mem 0) nic := by
  cases selected.2.2 with
  | inl own => exact .inl own.symm
  | inr bc => exact .inr (bc ▸ isMcast_bcAddr)

/-- A buffer with packets in it starts with one. -/
theorem rxMpdus_first (some_mpdu : rxMpdus build mem len ≠ []) :
    ∃ mpdu ∈ rxMpdus build mem len, mpdu.pbuf = 0 := by
  unfold rxMpdus rxLoop at some_mpdu ⊢
  by_cases invalid : (wfRxGetPktLenAndCheckValid build mem 0 len).2 = false
  · exact absurd (if_pos invalid) some_mpdu
  · simp only [if_neg invalid]
    exact ⟨_, List.mem_cons_self, rfl⟩

theorem registered_processed (build : RxBuild) (mem : Mem) (len : Nat) {num : Nat}
    {nic : HifNic} (registered : nics[num]? = some (some nic)) :
    (Selected nics mem num nic →
      processedOn (hifFrameDispath build nics mem len) num = rxMpdus build mem len) ∧
    (¬ Selected nics mem num nic →
      processedOn (hifFrameDispath build nics mem len) num = []) := by
  have slot := dispathLoop_slot build mem len nics 0 num
  unfold SlotDone at slot
  rw [registered, Nat.zero_add] at slot
  exact slot

theorem unregistered_processed {num : Nat}
    (unregistered : ∀ nic, nics[num]? ≠ some (some nic)) :
    processedOn (hifFrameDispath build nics mem len) num = [] := by
  have slot := dispathLoop_slot build mem len nics 0 num
  unfold SlotDone at slot
  rw [Nat.zero_add] at slot
  split at slot
  · rename_i nic registered
    exact absurd registered (unregistered nic)
  · exact slot

/-- A registered interface gets all packets or none, so it gets the right ones
exactly when they are all for it or none is. -/
theorem registered_dispatched_iff {num : Nat} {nic : HifNic}
    (registered : nics[num]? = some (some nic)) :
    (processedOn (hifFrameDispath build nics mem len) num =
      (rxMpdus build mem len).filter fun mpdu => MeantFor (receiverOf mem mpdu.pbuf) nic) ↔
    ∀ mpdu ∈ rxMpdus build mem len,
      (MeantFor (receiverOf mem mpdu.pbuf) nic ↔ Selected nics mem num nic) := by
  have processed := registered_processed build mem len registered
  by_cases selected : Selected nics mem num nic
  · rw [processed.1 selected, eq_comm, List.filter_eq_self]
    simp [selected]
  · rw [processed.2 selected, eq_comm, List.filter_eq_nil_iff]
    simp [selected]

theorem dispatched_iff_registered :
    Dispatched nics mem (rxMpdus build mem len) (hifFrameDispath build nics mem len) ↔
    ∀ num nic, nics[num]? = some (some nic) → ∀ mpdu ∈ rxMpdus build mem len,
      (MeantFor (receiverOf mem mpdu.pbuf) nic ↔ Selected nics mem num nic) := by
  constructor
  · intro dispatched num nic registered
    have slot := dispatched num
    rw [registered] at slot
    exact (registered_dispatched_iff registered).mp slot
  · intro served num
    split
    · rename_i nic registered
      exact (registered_dispatched_iff registered).mpr (served num nic registered)
    · rename_i unregistered
      exact unregistered_processed unregistered

/-- Each packet is processed on the interfaces it is for, and on no other,
exactly when the packets are all for the same interfaces and these are the ones
that the header of the first selects. -/
theorem dispatch_correct_iff (build : RxBuild) (nics : List (Option HifNic)) (mem : Mem)
    (len : Nat) :
    Dispatched nics mem (rxMpdus build mem len) (hifFrameDispath build nics mem len) ↔
      OneAudience nics mem (rxMpdus build mem len) ∧
        (rxMpdus build mem len ≠ [] → FirstServed nics mem) := by
  rw [dispatched_iff_registered]
  constructor
  · intro served
    have first : ∀ num nic, nics[num]? = some (some nic) → rxMpdus build mem len ≠ [] →
        (MeantFor (receiverOf mem 0) nic ↔ Selected nics mem num nic) := by
      intro num nic registered some_mpdu
      cases rxMpdus_first some_mpdu with
      | intro mpdu found =>
          rw [← found.2]
          exact served num nic registered mpdu found.1
    constructor
    · intro nic registered mpdu present
      cases List.mem_iff_getElem?.mp registered with
      | intro num at_num =>
          rw [served num nic at_num mpdu present,
            first num nic at_num (List.ne_nil_of_mem present)]
    · intro some_mpdu num nic registered
      exact (first num nic registered some_mpdu).mp
  · intro condition num nic registered mpdu present
    have uniform := condition.1 nic (List.mem_of_getElem? registered) mpdu present
    have firstServed := condition.2 (List.ne_nil_of_mem present) num nic registered
    exact uniform.trans ⟨firstServed, Selected.meantFor⟩

end Dispatch

/-- A buffer of two packets of 24 bytes: the first for the access point's address,
the second for the station's. -/
def twoPackets : Mem :=
  let mem : Mem := fun i => if i = 0 ∨ i = 80 then 24 else 0
  (mem.write 60 apAddr.toList).write 140 staAddr.toList

/-- Both packets are processed on the access point, none on the station. -/
theorem dispatch_second_packet_astray :
    ¬ Dispatched [some ⟨apAddr, true⟩, some ⟨staAddr, true⟩] twoPackets
      (rxMpdus ⟨false, false⟩ twoPackets 160)
      (hifFrameDispath ⟨false, false⟩ [some ⟨apAddr, true⟩, some ⟨staAddr, true⟩]
        twoPackets 160) := by
  intro dispatched
  exact absurd (dispatched 0) (by decide +kernel)

end Smartchip.Rx
