import Mathlib.Data.List.Perm.Basic
import Mathlib.Logic.Function.Basic
import Smartchip.Frame.Header

/-!
# The tables of wireless device nodes

`nic/wdn.c`.  Every interface has its own nodes, in the list `head` when they stand for a
device and in the list `free` otherwise.  The ids of the devices come from one bitmap that
the interfaces of a chip share.
-/

namespace Smartchip.Wdn

open Smartchip.Frame

def wdnNumMax : Nat := 5

/-- The fields of `wdn_net_info_st` that the table is about. -/
structure WdnNetInfo where
  mac : MacAddr
  wdnId : Nat

structure WdnList where
  nodes : Nat → WdnNetInfo
  head : List Nat
  free : List Nat
  cnt : UInt8

structure WdnTables (Ndev : Type) where
  wdn : Ndev → WdnList
  wdnIdBitmap : BitVec 32

variable {Ndev : Type}

/-! ## Ids -/

def bit (i : Nat) : BitVec 32 := 1#32 <<< i

def newWdnId (bitmap : BitVec 32) : Option (Nat × BitVec 32) :=
  match (List.range 32).find? fun i => bitmap &&& bit i = 0#32 with
  | some i => some (i, bitmap ||| bit i)
  | none => none

def freeWdnId (bitmap : BitVec 32) (id : Nat) : BitVec 32 :=
  if 32 ≤ id then bitmap else bitmap &&& ~~~ bit id

/-! ## Nodes -/

section Lists

variable [DecidableEq Ndev]

def wfWdnFindInfo (pwdn : WdnList) : Option MacAddr → Option Nat
  | none => none
  | some mac => pwdn.head.find? fun n => (pwdn.nodes n).mac = mac

/-- Node `n` leaves the list `free` for the end of `head`. -/
def linked (s : WdnTables Ndev) (dev : Ndev) (mac : MacAddr) (n : Nat) (rest : List Nat)
    (id : Nat) (bitmap : BitVec 32) : WdnTables Ndev where
  wdnIdBitmap := bitmap
  wdn := Function.update s.wdn dev {
    nodes := Function.update (s.wdn dev).nodes n ⟨mac, id⟩
    head := (s.wdn dev).head ++ [n]
    free := rest
    cnt := (s.wdn dev).cnt + 1 }

/-- Node `n` leaves the list `head` for the end of `free`. -/
def unlinked (s : WdnTables Ndev) (dev : Ndev) (n : Nat) : WdnTables Ndev where
  wdnIdBitmap := freeWdnId s.wdnIdBitmap ((s.wdn dev).nodes n).wdnId
  wdn := Function.update s.wdn dev {
    nodes := (s.wdn dev).nodes
    head := (s.wdn dev).head.erase n
    free := (s.wdn dev).free ++ [n]
    cnt := (s.wdn dev).cnt - 1 }

def wfWdnAdd (s : WdnTables Ndev) (dev : Ndev) (mac : MacAddr) :
    Option Nat × WdnTables Ndev :=
  match wfWdnFindInfo (s.wdn dev) (some mac) with
  | some n => (some n, s)
  | none =>
      match (s.wdn dev).free with
      | [] => (none, s)
      | n :: rest =>
          match newWdnId s.wdnIdBitmap with
          | none => (none, s)
          | some (id, bitmap) => (some n, linked s dev mac n rest id bitmap)

def wfWdnRemove (s : WdnTables Ndev) (dev : Ndev) (pmac : Option MacAddr) :
    Int × WdnTables Ndev :=
  match wfWdnFindInfo (s.wdn dev) pmac with
  | none => (-1, s)
  | some n => (0, unlinked s dev n)

inductive WdnCall (Ndev : Type) where
  | add (dev : Ndev) (mac : MacAddr)
  | remove (dev : Ndev) (pmac : Option MacAddr)

def wdnStep (s : WdnTables Ndev) : WdnCall Ndev → WdnTables Ndev
  | .add dev mac => (wfWdnAdd s dev mac).2
  | .remove dev pmac => (wfWdnRemove s dev pmac).2

end Lists

/-- Behind `wf_wdn_init` of every interface; the memory of the nodes has been cleared. -/
def wdnStart : WdnTables Ndev where
  wdn := fun _ => {
    nodes := fun _ => ⟨Vector.replicate 6 0, 0⟩
    head := []
    free := List.range wdnNumMax
    cnt := 0 }
  wdnIdBitmap := 0#32

/-! ## The invariant -/

/-- Node `n` of interface `dev` stands for a device. -/
def Holds (s : WdnTables Ndev) (dev : Ndev) (n : Nat) (info : WdnNetInfo) : Prop :=
  n ∈ (s.wdn dev).head ∧ (s.wdn dev).nodes n = info

structure TableOk (s : WdnTables Ndev) : Prop where
  macs : ∀ {dev n m info other}, Holds s dev n info → Holds s dev m other →
    info.mac = other.mac → n = m
  ids : ∀ {dev dev' n m info other}, Holds s dev n info → Holds s dev' m other →
    info.wdnId = other.wdnId → dev = dev' ∧ n = m
  below : ∀ {dev n info}, Holds s dev n info → info.wdnId < 32
  bitmap : ∀ {i}, i < 32 →
    (s.wdnIdBitmap.getLsbD i = true ↔ ∃ dev n info, Holds s dev n info ∧ info.wdnId = i)
  nodes : ∀ dev, ((s.wdn dev).head ++ (s.wdn dev).free).Perm (List.range wdnNumMax)
  cnt : ∀ dev, (s.wdn dev).cnt.toNat = (s.wdn dev).head.length

/-- What `wf_wdn_find_info` is to return: the one node of a MAC, or nothing. -/
def FindsOnly (pwdn : WdnList) (mac : MacAddr) : Option Nat → Prop
  | some n => n ∈ pwdn.head ∧ (pwdn.nodes n).mac = mac ∧
      ∀ m ∈ pwdn.head, (pwdn.nodes m).mac = mac → m = n
  | none => ∀ m ∈ pwdn.head, (pwdn.nodes m).mac ≠ mac

/-! ## Bits -/

section Bits

variable {bitmap next : BitVec 32} {i j id : Nat}

theorem getLsbD_bit (hi : i < 32) (hj : j < 32) : (bit i).getLsbD j = decide (i = j) := by
  by_cases same : i = j
  · subst same
    simp [bit, hi]
  · rcases Nat.lt_or_gt_of_ne same with less | more
    · have shifted : j - i ≠ 0 := by omega
      simp [bit, hj, same, shifted]
    · simp [bit, hj, same, more]

theorem and_bit_eq_zero (hi : i < 32) : bitmap &&& bit i = 0#32 ↔ bitmap.getLsbD i = false := by
  constructor
  · intro zero
    have at_i := congrArg (fun bits => bits.getLsbD i) zero
    simpa [getLsbD_bit hi hi] using at_i
  · intro clear
    apply BitVec.eq_of_getLsbD_eq
    intro j hj
    rw [BitVec.getLsbD_and, getLsbD_bit hi hj, BitVec.getLsbD_zero]
    by_cases same : i = j
    · subst same
      simp [clear]
    · simp [same]

theorem newWdnId_spec (new : newWdnId bitmap = some (id, next)) :
    id < 32 ∧ bitmap.getLsbD id = false ∧
      ∀ j < 32, (next.getLsbD j = true ↔ bitmap.getLsbD j = true ∨ id = j) := by
  unfold newWdnId at new
  cases first : (List.range 32).find? fun i => bitmap &&& bit i = 0#32 with
  | none => simp [first] at new
  | some found =>
      simp only [first, Option.some.injEq, Prod.mk.injEq] at new
      obtain ⟨rfl, rfl⟩ := new
      have below : found < 32 := by simpa using List.mem_of_find?_eq_some first
      have zero := List.find?_some first
      refine ⟨below, ?_, ?_⟩
      · simpa [and_bit_eq_zero below] using zero
      · intro j hj
        simp [getLsbD_bit below hj]

theorem getLsbD_freeWdnId (below : id < 32) (hj : j < 32) :
    (freeWdnId bitmap id).getLsbD j = true ↔ bitmap.getLsbD j = true ∧ id ≠ j := by
  simp only [freeWdnId, Nat.not_le.mpr below, if_false, BitVec.getLsbD_and, BitVec.getLsbD_not,
    getLsbD_bit below hj]
  simp [hj]

end Bits

/-! ## Nodes of the two lists -/

section Nodes

variable {s : WdnTables Ndev} {dev : Ndev} {n m : Nat} {mac : MacAddr}
  {info : WdnNetInfo} {pmac : Option MacAddr}

theorem TableOk.nodup (ok : TableOk s) (dev : Ndev) :
    ((s.wdn dev).head ++ (s.wdn dev).free).Nodup :=
  (ok.nodes dev).nodup_iff.mpr List.nodup_range

theorem TableOk.head_le (ok : TableOk s) (dev : Ndev) :
    (s.wdn dev).head.length ≤ wdnNumMax := by
  have all := (ok.nodes dev).length_eq
  simp only [List.length_append, List.length_range] at all
  omega

theorem find_holds (found : wfWdnFindInfo (s.wdn dev) pmac = some n) :
    Holds s dev n ((s.wdn dev).nodes n) ∧ pmac = some ((s.wdn dev).nodes n).mac := by
  cases pmac with
  | none => simp [wfWdnFindInfo] at found
  | some mac =>
      have named := List.find?_some found
      simp only [decide_eq_true_eq] at named
      exact ⟨⟨List.mem_of_find?_eq_some found, rfl⟩, by rw [named]⟩

theorem find_none (absent : wfWdnFindInfo (s.wdn dev) (some mac) = none)
    (held : Holds s dev m info) : info.mac ≠ mac := by
  have checked := List.find?_eq_none.mp absent m held.1
  simpa [held.2] using checked

theorem TableOk.findsOnly (ok : TableOk s) (dev : Ndev) (mac : MacAddr) :
    FindsOnly (s.wdn dev) mac (wfWdnFindInfo (s.wdn dev) (some mac)) := by
  cases found : wfWdnFindInfo (s.wdn dev) (some mac) with
  | none =>
      intro m member
      exact find_none found ⟨member, rfl⟩
  | some n =>
      obtain ⟨held, named⟩ := find_holds found
      simp only [Option.some.injEq] at named
      refine ⟨held.1, named.symm, ?_⟩
      intro m member same
      exact ok.macs ⟨member, rfl⟩ held (same.trans named)

end Nodes

/-! ## Adding -/

section Add

variable [DecidableEq Ndev] {s : WdnTables Ndev} {dev : Ndev} {n id : Nat} {rest : List Nat}
  {mac : MacAddr} {bitmap : BitVec 32}

theorem wfWdnAdd_cases (s : WdnTables Ndev) (dev : Ndev) (mac : MacAddr) :
    (wfWdnAdd s dev mac).2 = s ∨
      ∃ n rest id bitmap, wfWdnFindInfo (s.wdn dev) (some mac) = none ∧
        (s.wdn dev).free = n :: rest ∧ newWdnId s.wdnIdBitmap = some (id, bitmap) ∧
        wfWdnAdd s dev mac = (some n, linked s dev mac n rest id bitmap) := by
  unfold wfWdnAdd
  cases found : wfWdnFindInfo (s.wdn dev) (some mac) with
  | some n => exact .inl rfl
  | none =>
      cases free : (s.wdn dev).free with
      | nil => exact .inl rfl
      | cons n rest =>
          cases new : newWdnId s.wdnIdBitmap with
          | none => exact .inl rfl
          | some pair =>
              obtain ⟨id, bitmap⟩ := pair
              exact .inr ⟨n, rest, id, bitmap, rfl, rfl, rfl, rfl⟩

theorem linked_holds (ok : TableOk s) (free : (s.wdn dev).free = n :: rest)
    {other : Ndev} {m : Nat} {info : WdnNetInfo} :
    Holds (linked s dev mac n rest id bitmap) other m info ↔
      Holds s other m info ∨ (other = dev ∧ m = n ∧ info = ⟨mac, id⟩) := by
  have absent : n ∉ (s.wdn dev).head := by
    have once := ok.nodup dev
    rw [free, List.nodup_append] at once
    intro member
    exact once.2.2 n member n (by simp) rfl
  by_cases same : other = dev
  · subst same
    by_cases new : m = n
    · subst new
      simp [Holds, linked, absent, eq_comm]
    · simp [Holds, linked, new]
  · simp [Holds, linked, same]

theorem linked_ok (ok : TableOk s)
    (absent : wfWdnFindInfo (s.wdn dev) (some mac) = none)
    (free : (s.wdn dev).free = n :: rest)
    (new : newWdnId s.wdnIdBitmap = some (id, bitmap)) :
    TableOk (linked s dev mac n rest id bitmap) := by
  obtain ⟨below, clear, bits⟩ := newWdnId_spec new
  -- no device has the id whose bit was clear
  have fresh : ∀ {other m info}, Holds s other m info → info.wdnId ≠ id := by
    intro other m info held same
    have used := (ok.bitmap below).2 ⟨other, m, info, held, same⟩
    simp [clear] at used
  constructor
  · intro d m m' info info' first second same
    rw [linked_holds ok free] at first second
    rcases first with first | ⟨rfl, rfl, rfl⟩
    · rcases second with second | ⟨rfl, rfl, rfl⟩
      · exact ok.macs first second same
      · exact absurd same (find_none absent first)
    · rcases second with second | ⟨-, rfl, -⟩
      · exact absurd same.symm (find_none absent second)
      · rfl
  · intro d d' m m' info info' first second same
    rw [linked_holds ok free] at first second
    rcases first with first | ⟨rfl, rfl, rfl⟩
    · rcases second with second | ⟨rfl, rfl, rfl⟩
      · exact ok.ids first second same
      · exact absurd same (fresh first)
    · rcases second with second | ⟨rfl, rfl, -⟩
      · exact absurd same.symm (fresh second)
      · exact ⟨rfl, rfl⟩
  · intro d m info held
    rw [linked_holds ok free] at held
    rcases held with held | ⟨-, -, rfl⟩
    · exact ok.below held
    · exact below
  · intro i hi
    rw [show (linked s dev mac n rest id bitmap).wdnIdBitmap = bitmap from rfl, bits i hi,
      ok.bitmap hi]
    simp only [linked_holds ok free]
    constructor
    · rintro (⟨d, m, info, held, same⟩ | same)
      · exact ⟨d, m, info, .inl held, same⟩
      · exact ⟨dev, n, ⟨mac, id⟩, .inr ⟨rfl, rfl, rfl⟩, same⟩
    · rintro ⟨d, m, info, held | ⟨rfl, rfl, rfl⟩, same⟩
      · exact .inl ⟨d, m, info, held, same⟩
      · exact .inr same
  · intro d
    by_cases same : d = dev
    · subst same
      have all := ok.nodes d
      simpa [linked, free] using all
    · simpa [linked, same] using ok.nodes d
  · intro d
    by_cases same : d = dev
    · subst same
      have room : (s.wdn d).head.length < wdnNumMax := by
        have all := (ok.nodes d).length_eq
        simp only [free, List.length_append, List.length_cons, List.length_range] at all
        omega
      have count := ok.cnt d
      unfold wdnNumMax at room
      simp [linked, count, UInt8.toNat_add]
      omega
    · simpa [linked, same] using ok.cnt d

end Add

/-! ## Removing -/

section Remove

variable [DecidableEq Ndev] {s : WdnTables Ndev} {dev : Ndev} {n : Nat} {info : WdnNetInfo}

theorem unlinked_holds (ok : TableOk s) {other : Ndev} {m : Nat} {held : WdnNetInfo} :
    Holds (unlinked s dev n) other m held ↔
      Holds s other m held ∧ ¬ (other = dev ∧ m = n) := by
  have once : (s.wdn dev).head.Nodup := (List.nodup_append.mp (ok.nodup dev)).1
  by_cases same : other = dev
  · subst same
    simp only [Holds, unlinked, Function.update_self, once.mem_erase_iff, true_and]
    tauto
  · simp [Holds, unlinked, same]

theorem unlinked_ok (ok : TableOk s) (left : Holds s dev n info) :
    TableOk (unlinked s dev n) := by
  have member : n ∈ (s.wdn dev).head := left.1
  constructor
  · intro d m m' first second held other same
    rw [unlinked_holds ok] at held other
    exact ok.macs held.1 other.1 same
  · intro d d' m m' first second held other same
    rw [unlinked_holds ok] at held other
    exact ok.ids held.1 other.1 same
  · intro d m held kept
    rw [unlinked_holds ok] at kept
    exact ok.below kept.1
  · intro i hi
    have below := ok.below left
    rw [← left.2] at below
    rw [show (unlinked s dev n).wdnIdBitmap =
      freeWdnId s.wdnIdBitmap ((s.wdn dev).nodes n).wdnId from rfl,
      getLsbD_freeWdnId below hi, ok.bitmap hi]
    simp only [unlinked_holds ok]
    constructor
    · rintro ⟨⟨d, m, held, kept, rfl⟩, other⟩
      refine ⟨d, m, held, ⟨kept, ?_⟩, rfl⟩
      rintro ⟨rfl, rfl⟩
      exact other (congrArg WdnNetInfo.wdnId kept.2)
    · rintro ⟨d, m, held, ⟨kept, other⟩, rfl⟩
      refine ⟨⟨d, m, held, kept, rfl⟩, ?_⟩
      intro same
      exact other (ok.ids kept ⟨member, rfl⟩ same.symm)
  · intro d
    by_cases same : d = dev
    · subst same
      calc
        ((unlinked s d n).wdn d).head ++ ((unlinked s d n).wdn d).free =
            (s.wdn d).head.erase n ++ ((s.wdn d).free ++ [n]) := by simp [unlinked]
        List.Perm _ ((s.wdn d).head.erase n ++ (n :: (s.wdn d).free)) :=
            (List.perm_append_singleton n _).append_left _
        List.Perm _ (n :: (s.wdn d).head.erase n ++ (s.wdn d).free) :=
            List.perm_middle
        List.Perm _ ((s.wdn d).head ++ (s.wdn d).free) :=
            (List.perm_cons_erase member).symm.append_right _
        List.Perm _ (List.range wdnNumMax) := ok.nodes d
    · simpa [unlinked, same] using ok.nodes d
  · intro d
    by_cases same : d = dev
    · subst same
      have count := ok.cnt d
      have shorter := List.length_erase_of_mem member
      have long := List.length_pos_of_mem member
      have bounded := ok.head_le d
      unfold wdnNumMax at bounded
      simp [unlinked, UInt8.toNat_sub, count, shorter]
      omega
    · simpa [unlinked, same] using ok.cnt d

end Remove

/-! ## Runs -/

theorem wdnStart_ok : TableOk (wdnStart : WdnTables Ndev) := by
  constructor <;> simp [Holds, wdnStart]

section Runs

variable [DecidableEq Ndev] {s : WdnTables Ndev}

theorem wfWdnAdd_ok (ok : TableOk s) (dev : Ndev) (mac : MacAddr) :
    TableOk (wfWdnAdd s dev mac).2 := by
  rcases wfWdnAdd_cases s dev mac with same | ⟨n, rest, id, bitmap, absent, free, new, eq⟩
  · rw [same]
    exact ok
  · rw [eq]
    exact linked_ok ok absent free new

theorem wfWdnRemove_ok (ok : TableOk s) (dev : Ndev) (pmac : Option MacAddr) :
    TableOk (wfWdnRemove s dev pmac).2 := by
  unfold wfWdnRemove
  cases found : wfWdnFindInfo (s.wdn dev) pmac with
  | none => exact ok
  | some n => exact unlinked_ok ok (find_holds found).1

theorem wdnStep_ok (ok : TableOk s) (call : WdnCall Ndev) : TableOk (wdnStep s call) := by
  cases call with
  | add dev mac => exact wfWdnAdd_ok ok dev mac
  | remove dev pmac => exact wfWdnRemove_ok ok dev pmac

theorem wdnRun_ok (calls : List (WdnCall Ndev)) :
    ∀ {s : WdnTables Ndev}, TableOk s → TableOk (calls.foldl wdnStep s) := by
  induction calls with
  | nil => exact id
  | cons call calls ih =>
      intro s ok
      exact ih (wdnStep_ok ok call)

theorem wfWdnAdd_failed {dev : Ndev} {mac : MacAddr} (failed : (wfWdnAdd s dev mac).1 = none) :
    (wfWdnAdd s dev mac).2 = s := by
  rcases wfWdnAdd_cases s dev mac with same | ⟨n, rest, id, bitmap, -, -, -, eq⟩
  · exact same
  · simp [eq] at failed

/-- Whatever is added and removed, the tables stay as they should be, a search finds the one
node of a MAC, and an add that fails leaves everything as it was. -/
theorem wdn_tables_kept (calls : List (WdnCall Ndev)) :
    let s := calls.foldl wdnStep wdnStart
    TableOk s ∧
      (∀ dev mac, FindsOnly (s.wdn dev) mac (wfWdnFindInfo (s.wdn dev) (some mac))) ∧
      ∀ dev mac, (wfWdnAdd s dev mac).1 = none → (wfWdnAdd s dev mac).2 = s := by
  intro s
  have ok : TableOk s := wdnRun_ok calls wdnStart_ok
  refine ⟨ok, ok.findsOnly, ?_⟩
  intro dev mac failed
  exact wfWdnAdd_failed failed

end Runs

end Smartchip.Wdn
