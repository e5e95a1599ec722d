import Mathlib.Data.List.Forall2
import Mathlib.Data.Nat.Bitwise
import Smartchip.Foundation.Serial
import Smartchip.Foundation.Window
import Smartchip.Rx.Reorder

/-!
# The reorder engine refines a window over unbounded positions

The engine only keeps 12-bit numbers and compares them with `SN_LESS`.  Behind
every number stands an integer position; the positions that meet in one
comparison are less than 2048 apart, so each test of the engine decides the
order of the positions and every step is a step of `Foundation.Window`.
-/

namespace Smartchip.Rx

open Smartchip.Foundation

universe u

variable {α : Type u}

/-! ## Circular comparison of 12-bit numbers -/

theorem snLess_iff (a b : UInt16) :
    snLess a b = true ↔ CircularLess 2048 a.toNat b.toNat := by
  have ha := a.toNat_lt
  have hb := b.toNat_lt
  have hdiff : (a.toUInt32 - b.toUInt32).toNat =
      (2 ^ 32 - b.toNat + a.toNat) % 2 ^ 32 := by
    simp [UInt32.toNat_sub]
  have hbit : ((a.toUInt32 - b.toUInt32) &&& 0x800) = 0 ↔
      (a.toUInt32 - b.toUInt32).toNat / 2048 % 2 ≠ 1 := by
    rw [← UInt32.toNat_inj, UInt32.toNat_and]
    change (a.toUInt32 - b.toUInt32).toNat &&& 2 ^ 11 = 0 ↔ _
    rw [Nat.and_two_pow, Nat.testBit_eq_decide_div_mod_eq]
    simp
  rw [snLess, bne_iff_ne, Ne, hbit, not_not, hdiff, CircularLess, circularSub]
  omega

theorem low12_toNat (a : UInt16) : (a &&& 0xFFF).toNat = a.toNat % 4096 := by
  rw [UInt16.toNat_and]
  exact Nat.and_two_pow_sub_one_eq_mod a.toNat 12

@[simp] theorem seqField_toNat (seq : BitVec 12) :
    (seqField seq).toNat = seq.toNat := by
  change (seq.setWidth 16).toNat = _
  simp
  omega

def Numbers (number : UInt16) (position : ℤ) : Prop :=
  (number.toNat : ℤ) = position % 4096

theorem Numbers.less_iff {a b : UInt16} {x y : ℤ} (ha : Numbers a x)
    (hb : Numbers b y) (lower : -2048 ≤ x - y) (upper : x - y < 2048) :
    snLess a b = true ↔ x < y := by
  rw [snLess_iff, ← circularLess_iff lower upper, CircularLess, CircularLess,
    ha, hb]
  exact iff_of_eq (congrArg _ (circularSub_emod 2048 x y))

theorem Numbers.equal_iff {a b : UInt16} {x y : ℤ} (ha : Numbers a x)
    (hb : Numbers b y) (lower : -4096 < x - y) (upper : x - y < 4096) :
    snEqual a b = true ↔ x = y := by
  unfold Numbers at ha hb
  rw [snEqual, beq_iff_eq, ← UInt16.toNat_inj]
  omega

theorem Numbers.succ {number : UInt16} {position : ℤ}
    (h : Numbers number position) :
    Numbers ((number + 1) &&& 0xFFF) (position + 1) := by
  have bound := number.toNat_lt
  unfold Numbers at h ⊢
  rw [low12_toNat, UInt16.toNat_add]
  change (((number.toNat + 1) % 2 ^ 16 % 4096 : ℕ) : ℤ) = _
  omega

/-! ## The pending queue -/

/-- A pending node holds the buffer of the item at its position. -/
def Tracks (node : RxReorderQueue α) (item : ℤ × α) : Prop :=
  Numbers node.seqNum item.1 ∧ node.pskb = some item.2

/--
The walk from the tail stops at the first node that is not ahead of the new
number, or reports the node that has it.
-/
theorem scanPrev_tracks {currentSeq : UInt16} {position : ℤ}
    (hcur : Numbers currentSeq position) {before : List (RxReorderQueue α)}
    {items : List (ℤ × α)} (htracks : List.Forall₂ Tracks before items)
    (near : ∀ item ∈ items, -2048 ≤ position - item.1 ∧
      position - item.1 < 2048) (after : List (RxReorderQueue α)) :
    (scanPrev currentSeq before after = none ∧
        ∃ item ∈ items, item.1 = position) ∨
      ∃ passed rest passedItems restItems,
        scanPrev currentSeq before after =
            some (rest, passed.reverse ++ after) ∧
          items = passedItems ++ restItems ∧
          List.Forall₂ Tracks passed passedItems ∧
          List.Forall₂ Tracks rest restItems ∧
          (∀ item ∈ passedItems, position < item.1) ∧
          ∀ item ∈ restItems.head?, item.1 < position := by
  induction htracks generalizing after with
  | nil =>
      right
      exact ⟨[], [], [], [], by simp [scanPrev], rfl, .nil, .nil, by simp,
        by simp⟩
  | @cons node item before items hnode hrest ih =>
      have hnear := near item (by simp)
      have hequal := hnode.1.equal_iff hcur (by omega) (by omega)
      have hless := hcur.less_iff hnode.1 hnear.1 hnear.2
      by_cases same : item.1 = position
      · left
        refine ⟨?_, item, by simp, same⟩
        simp [scanPrev, hequal.mpr same]
      · have hne : snEqual node.seqNum currentSeq = false := by
          simpa [same] using hequal
        by_cases ahead : position < item.1
        · have tail := ih (fun found member => near found (by simp [member]))
            (node :: after)
          have hstep : scanPrev currentSeq (node :: before) after =
              scanPrev currentSeq before (node :: after) := by
            simp [scanPrev, hne, hless.mpr ahead]
          rw [hstep]
          rcases tail with ⟨hnone, found, member, heq⟩ |
            ⟨passed, rest, passedItems, restItems, hscan, hitems, hpassed,
              hleft, habove, hbelow⟩
          · exact Or.inl ⟨hnone, found, by simp [member], heq⟩
          · right
            refine ⟨node :: passed, rest, item :: passedItems, restItems, ?_,
              by simp [hitems], .cons hnode hpassed, hleft, ?_, hbelow⟩
            · simp [hscan]
            · intro found member
              rcases List.mem_cons.mp member with rfl | member
              · exact ahead
              · exact habove found member
        · right
          have hnot : snLess currentSeq node.seqNum = false := by
            simpa [ahead] using hless
          refine ⟨[], node :: before, [], item :: items, ?_, rfl, .nil,
            .cons hnode hrest, by simp, ?_⟩
          · simp [scanPrev, hne, hnot]
          · intro found member
            simp only [List.head?_cons, Option.mem_def,
              Option.some.injEq] at member
            subst found
            omega

private theorem below_of_head {position : ℤ} {items : List (ℤ × α)}
    (sorted : (items.reverse.map Prod.fst).Pairwise (· < ·))
    (head : ∀ item ∈ items.head?, item.1 < position) :
    ∀ item ∈ items, item.1 < position := by
  cases items with
  | nil => simp
  | cons first rest =>
      have hfirst := head first rfl
      intro item member
      rcases List.mem_cons.mp member with rfl | member
      · exact hfirst
      · simp only [List.reverse_cons, List.map_append,
          List.pairwise_append] at sorted
        have hlt := sorted.2.2 item.1
          (List.mem_map_of_mem (List.mem_reverse.mpr member)) first.1 (by simp)
        exact hlt.trans hfirst

theorem scanPrev_insertAt {currentSeq : UInt16} {position : ℤ} (skb : α)
    (hcur : Numbers currentSeq position) {nodes : List (RxReorderQueue α)}
    {held : List (ℤ × α)} (htracks : List.Forall₂ Tracks nodes held)
    (sorted : (held.map Prod.fst).Pairwise (· < ·))
    (near : ∀ item ∈ held, -2048 ≤ position - item.1 ∧
      position - item.1 < 2048) :
    (scanPrev currentSeq nodes.reverse [] = none ∧
        Window.insertAt position skb held = none) ∨
      ∃ before after inserted,
        scanPrev currentSeq nodes.reverse [] = some (before, after) ∧
          Window.insertAt position skb held = some inserted ∧
          ∀ node, Tracks node (position, skb) →
            List.Forall₂ Tracks (before.reverse ++ node :: after) inserted := by
  have hreverse := List.rel_reverse htracks
  have walk := scanPrev_tracks hcur hreverse
    (fun item member => near item (List.mem_reverse.mp member)) []
  rcases walk with ⟨hscan, item, member, heq⟩ |
    ⟨passed, rest, passedItems, restItems, hscan, hitems, hpassed, hrest,
      above, head⟩
  · left
    refine ⟨hscan, Window.insertAt_of_mem sorted ⟨item, ?_, heq⟩⟩
    exact List.mem_reverse.mp member
  · right
    have hheld : held = restItems.reverse ++ passedItems.reverse := by
      rw [← List.reverse_append, ← hitems, List.reverse_reverse]
    have below : ∀ item ∈ restItems.reverse, item.1 < position := by
      intro item member
      refine below_of_head ?_ head item (List.mem_reverse.mp member)
      rw [hheld, List.map_append] at sorted
      exact (List.pairwise_append.mp sorted).1
    have above' : ∀ item ∈ passedItems.reverse, position < item.1 :=
      fun item member => above item (List.mem_reverse.mp member)
    refine ⟨rest, passed.reverse,
      restItems.reverse ++ (position, skb) :: passedItems.reverse,
      by simpa using hscan, ?_, ?_⟩
    · rw [hheld]
      exact Window.insertAt_between below above'
    · intro node hnode
      exact List.rel_append (List.rel_reverse hrest)
        (.cons hnode (List.rel_reverse hpassed))

section Enqueue

variable {currentSeq : UInt16} {position : ℤ} {skb : α} {ba : RecvBaCtrl α}
  {held : List (ℤ × α)} (hcur : Numbers currentSeq position)
  (htracks : List.Forall₂ Tracks ba.pendingReorderQueue.list held)
  (sorted : (held.map Prod.fst).Pairwise (· < ·))
  (near : ∀ item ∈ held, -2048 ≤ position - item.1 ∧ position - item.1 < 2048)

include hcur htracks sorted near

theorem rxPendingReorderEnqueue_duplicate
    (present : Window.insertAt position skb held = none) :
    rxPendingReorderEnqueue currentSeq (some skb) ba =
      some (-1, { ba with dropPkts := ba.dropPkts + 1 }) := by
  rcases scanPrev_insertAt skb hcur htracks sorted near with
    ⟨hscan, -⟩ | ⟨before, after, inserted, -, hinsert, -⟩
  · simp [rxPendingReorderEnqueue, hscan]
  · simp [hinsert] at present

theorem rxPendingReorderEnqueue_stuck
    (absent : Window.insertAt position skb held ≠ none)
    (empty : ba.freeOrderQueue.list = []) :
    rxPendingReorderEnqueue currentSeq (some skb) ba = none := by
  rcases scanPrev_insertAt skb hcur htracks sorted near with
    ⟨-, hinsert⟩ | ⟨before, after, inserted, hscan, -, -⟩
  · exact absurd hinsert absent
  · simp [rxPendingReorderEnqueue, hscan, rxFreeReorderDequeue, empty]

theorem rxPendingReorderEnqueue_insert {inserted : List (ℤ × α)}
    (absent : Window.insertAt position skb held = some inserted)
    {free : RxReorderQueue α} {rest : List (RxReorderQueue α)}
    (pool : ba.freeOrderQueue.list = free :: rest) :
    ∃ pending, List.Forall₂ Tracks pending inserted ∧
      rxPendingReorderEnqueue currentSeq (some skb) ba =
        some (0, { ba with
          freeOrderQueue := ⟨rest, ba.freeOrderQueue.cnt - 1⟩
          pendingReorderQueue :=
            ⟨pending, ba.pendingReorderQueue.cnt + 1⟩ }) := by
  rcases scanPrev_insertAt skb hcur htracks sorted near with
    ⟨-, hinsert⟩ | ⟨before, after, found, hscan, hinsert, hplace⟩
  · simp [hinsert] at absent
  · rw [hinsert, Option.some.injEq] at absent
    subst found
    refine ⟨_, hplace ⟨free.node, currentSeq, some skb⟩ ⟨hcur, rfl⟩, ?_⟩
    simp [rxPendingReorderEnqueue, hscan, rxFreeReorderDequeue, pool]

end Enqueue

/-! ## The upload loop -/

def Counted (ba : RecvBaCtrl α) : Prop :=
  ba.pendingReorderQueue.cnt =
    UInt32.ofNat ba.pendingReorderQueue.list.length

/--
What the upload loop does to the control block when `held` waits behind
`next`.  `rest` says that no other field is written.
-/
structure Uploads (ba ba' : RecvBaCtrl α) (next : ℤ)
    (held : List (ℤ × α)) : Prop where
  indicate : Numbers ba'.indicateSeq (Window.drain next held).1
  pending : List.Forall₂ Tracks ba'.pendingReorderQueue.list
    (Window.drain next held).2.2
  counted : Counted ba'
  uploaded : ba'.uploaded =
    ba.uploaded ++ (Window.drain next held).2.1.map Prod.snd
  poolLength : ba'.freeOrderQueue.list.length =
    ba.freeOrderQueue.list.length + (Window.drain next held).2.1.length
  poolCnt : ba'.freeOrderQueue.cnt =
    ba.freeOrderQueue.cnt -
      UInt32.ofNat (Window.drain next held).2.1.length
  rest : { ba' with
    indicateSeq := ba.indicateSeq
    pendingReorderQueue := ba.pendingReorderQueue
    freeOrderQueue := ba.freeOrderQueue
    uploaded := ba.uploaded } = ba

private def afterUpload (ba : RecvBaCtrl α) (node : RxReorderQueue α)
    (nodes : List (RxReorderQueue α)) (skb : α) : RecvBaCtrl α :=
  { ba with
    indicateSeq :=
      if snEqual ba.indicateSeq node.seqNum then
        (ba.indicateSeq + 1) &&& 0xFFF
      else ba.indicateSeq
    pendingReorderQueue := ⟨nodes, ba.pendingReorderQueue.cnt - 1⟩
    freeOrderQueue :=
      ⟨node :: ba.freeOrderQueue.list, ba.freeOrderQueue.cnt - 1⟩
    uploaded := ba.uploaded ++ [skb] }

private theorem uploadLoop_round {fuel : Nat} {ba : RecvBaCtrl α}
    {node : RxReorderQueue α} {nodes : List (RxReorderQueue α)} {skb : α}
    (hlist : ba.pendingReorderQueue.list = node :: nodes)
    (hskb : node.pskb = some skb)
    (reached : snLess ba.indicateSeq node.seqNum = false) :
    uploadLoop (fuel + 1) ba =
      uploadLoop fuel (afterUpload ba node nodes skb) := by
  simp only [uploadLoop, rxPendingReorderGetqueue, hlist, List.head?_cons,
    reached, rxPendingReorderDequeue, ne_eq, not_true_eq_false, if_false,
    Bool.false_eq_true, hskb, Option.toList_some]
  congr 1
  by_cases same : snEqual ba.indicateSeq node.seqNum = true <;>
    simp [afterUpload, rxFreeReorderEnqueue, same]

private theorem afterUpload_counted {ba : RecvBaCtrl α}
    {node : RxReorderQueue α} {nodes : List (RxReorderQueue α)} (skb : α)
    (hlist : ba.pendingReorderQueue.list = node :: nodes)
    (hcounted : Counted ba) : Counted (afterUpload ba node nodes skb) := by
  unfold Counted at hcounted ⊢
  simp only [afterUpload, hcounted, hlist, List.length_cons, UInt32.ofNat_add]
  simp

private theorem afterUpload_numbers {ba : RecvBaCtrl α}
    {node : RxReorderQueue α} {item : ℤ × α} {next : ℤ}
    (nodes : List (RxReorderQueue α)) (hindicate : Numbers ba.indicateSeq next)
    (hnode : Tracks node item) (lower : -2048 ≤ next - item.1)
    (upper : next - item.1 < 2048) :
    Numbers (afterUpload ba node nodes item.2).indicateSeq
      (Window.bump next item.1) := by
  unfold Window.bump
  have hequal := hindicate.equal_iff hnode.1 (by omega) (by omega)
  by_cases same : item.1 = next
  · have htrue := hequal.mpr same.symm
    simpa [afterUpload, htrue, same] using hindicate.succ
  · have hfalse : snEqual ba.indicateSeq node.seqNum = false := by
      rw [Bool.eq_false_iff]
      exact fun htrue => same (hequal.mp htrue).symm
    simpa [afterUpload, hfalse, same] using hindicate

private theorem Uploads.of_ahead {ba : RecvBaCtrl α} {next : ℤ}
    {held : List (ℤ × α)} (hindicate : Numbers ba.indicateSeq next)
    (htracks : List.Forall₂ Tracks ba.pendingReorderQueue.list held)
    (hcounted : Counted ba)
    (ahead : Window.drain next held = (next, [], held)) :
    Uploads ba ba next held where
  indicate := by rw [ahead]; exact hindicate
  pending := by rw [ahead]; exact htracks
  counted := hcounted
  uploaded := by simp [ahead]
  poolLength := by simp [ahead]
  poolCnt := by simp [ahead]
  rest := rfl

private theorem Uploads.round {ba ba' : RecvBaCtrl α} {next : ℤ}
    {item : ℤ × α} {held : List (ℤ × α)} {node : RxReorderQueue α}
    {nodes : List (RxReorderQueue α)} (reached : ¬next < item.1)
    (tail : Uploads (afterUpload ba node nodes item.2) ba'
      (Window.bump next item.1) held) :
    Uploads ba ba' next (item :: held) where
  indicate := by simpa [Window.drain, reached] using tail.indicate
  pending := by simpa [Window.drain, reached] using tail.pending
  counted := tail.counted
  uploaded := by
    simp [Window.drain, reached, tail.uploaded, afterUpload]
  poolLength := by
    simp only [Window.drain, reached, if_false, tail.poolLength, afterUpload,
      List.length_cons]
    omega
  poolCnt := by
    simp only [Window.drain, reached, if_false, List.length_cons,
      tail.poolCnt, afterUpload, UInt32.ofNat_add]
    grind
  rest := by
    have hrest := tail.rest
    cases ba
    cases ba'
    simp only [afterUpload, RecvBaCtrl.mk.injEq] at hrest ⊢
    tauto

theorem uploadLoop_drain {fuel : Nat} {ba : RecvBaCtrl α} {next : ℤ}
    {held : List (ℤ × α)}
    (enough : ba.pendingReorderQueue.list.length < fuel)
    (hindicate : Numbers ba.indicateSeq next)
    (htracks : List.Forall₂ Tracks ba.pendingReorderQueue.list held)
    (hcounted : Counted ba)
    (sorted : (held.map Prod.fst).Pairwise (· < ·))
    (near : ∀ item ∈ held, -2048 ≤ next - item.1 ∧ next - item.1 < 2048) :
    ∃ ba', Uploads ba ba' next held ∧
      uploadLoop fuel ba = some
        (if (Window.drain next held).2.2.isEmpty then 0
          else rxPendingReorderGetCnt ba', ba') := by
  induction held generalizing fuel ba next with
  | nil =>
      have hlist : ba.pendingReorderQueue.list = [] :=
        List.forall₂_nil_right_iff.mp htracks
      obtain ⟨fuel, rfl⟩ : ∃ k, fuel = k + 1 := ⟨fuel - 1, by omega⟩
      refine ⟨ba, .of_ahead hindicate htracks hcounted rfl, ?_⟩
      simp [uploadLoop, rxPendingReorderGetqueue, hlist, Window.drain]
  | cons item rest ih =>
      obtain ⟨node, nodes, hnode, hnodes, hlist⟩ :=
        List.forall₂_cons_right_iff.mp htracks
      obtain ⟨fuel, rfl⟩ : ∃ k, fuel = k + 1 := ⟨fuel - 1, by omega⟩
      have hnear := near item (by simp)
      have hless := hindicate.less_iff hnode.1 hnear.1 hnear.2
      simp only [List.map_cons, List.pairwise_cons] at sorted
      by_cases ahead : next < item.1
      · have hdrain : Window.drain next (item :: rest) =
            (next, [], item :: rest) := by
          simp [Window.drain, ahead]
        refine ⟨ba, .of_ahead hindicate htracks hcounted hdrain, ?_⟩
        simp [uploadLoop, rxPendingReorderGetqueue, hlist, hless.mpr ahead,
          hdrain]
      · have reached : snLess ba.indicateSeq node.seqNum = false := by
          simpa [ahead] using hless
        have hlength : (afterUpload ba node nodes
            item.2).pendingReorderQueue.list.length < fuel := by
          simp only [hlist, List.length_cons] at enough
          simp only [afterUpload]
          omega
        -- the expected number moves only past the number it equals, so every
        -- node left is still within half the number space of it
        have hnear' : ∀ found ∈ rest,
            -2048 ≤ Window.bump next item.1 - found.1 ∧
              Window.bump next item.1 - found.1 < 2048 := by
          intro found member
          unfold Window.bump
          have := near found (by simp [member])
          have := sorted.1 found.1 (List.mem_map_of_mem member)
          split <;> omega
        obtain ⟨ba', huploads, hloop⟩ := ih hlength
          (afterUpload_numbers nodes hindicate hnode hnear.1 hnear.2) hnodes
          (afterUpload_counted item.2 hlist hcounted) sorted.2 hnear'
        refine ⟨ba', .round ahead huploads, ?_⟩
        rw [uploadLoop_round hlist hnode.2 reached, hloop]
        simp [Window.drain, ahead]

end Smartchip.Rx
