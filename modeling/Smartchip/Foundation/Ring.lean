import Mathlib.Data.List.Chain
import Mathlib.Data.List.Lattice
import Mathlib.Data.List.Nodup

/-!
# Intrusive circular lists

Nodes that carry their own `next` and `prev` pointers, threaded into circular
lists that each start at a head.  A store of pointers is described by the lists
it represents, and the two edits of such a store, linking a node in and
unlinking it, are given by their effect on the lists.
-/

namespace Smartchip.Foundation

universe u v

inductive Entry (H : Type u) (N : Type v) where
  | head (h : H)
  | node (n : N)
  deriving DecidableEq

structure Links (H : Type u) (N : Type v) where
  next : Entry H N → Entry H N
  prev : Entry H N → Entry H N

variable {H : Type u} {N : Type v}

def Links.Joined (links : Links H N) (a b : Entry H N) : Prop :=
  links.next a = b ∧ links.prev b = a

/-! ## The entries of one list -/

def opening (h : H) (xs : List N) : List (Entry H N) := .head h :: xs.map .node

def closing (h : H) (ys : List N) : List (Entry H N) := ys.map .node ++ [.head h]

def cycle (h : H) (xs : List N) : List (Entry H N) := .head h :: closing h xs

/-- The entry in front of the gap behind `xs`. -/
def before (h : H) (xs : List N) : Entry H N :=
  match xs.getLast? with
  | none => .head h
  | some n => .node n

/-- The entry behind the gap in front of `ys`. -/
def after (h : H) (ys : List N) : Entry H N :=
  match ys with
  | [] => .head h
  | n :: _ => .node n

theorem cycle_append (h : H) (xs ys : List N) :
    cycle h (xs ++ ys) = opening h xs ++ closing h ys := by
  simp [cycle, opening, closing]

theorem mem_cycle {h : H} {xs : List N} {e : Entry H N} :
    e ∈ cycle h xs ↔ e = .head h ∨ ∃ n ∈ xs, e = .node n := by
  simp only [cycle, closing, List.mem_cons, List.mem_append, List.mem_map,
    List.not_mem_nil, or_false]
  constructor
  · rintro (rfl | ⟨n, member, rfl⟩ | rfl)
    · exact .inl rfl
    · exact .inr ⟨n, member, rfl⟩
    · exact .inl rfl
  · rintro (rfl | ⟨n, member, rfl⟩)
    · exact .inl rfl
    · exact .inr (.inl ⟨n, member, rfl⟩)

theorem getLast?_opening (h : H) (xs : List N) :
    (opening h xs).getLast? = some (before h xs) := by
  unfold opening before
  cases last : xs.getLast? with
  | none =>
      rw [List.getLast?_eq_none_iff] at last
      subst last
      rfl
  | some n => simp [List.getLast?_cons, last]

theorem head?_closing (h : H) (ys : List N) :
    (closing h ys).head? = some (after h ys) := by
  cases ys with
  | nil => rfl
  | cons n ys => rfl

theorem before_mem (h : H) (xs : List N) : before h xs ∈ opening h xs :=
  List.mem_of_getLast? (getLast?_opening h xs)

theorem after_mem (h : H) (ys : List N) : after h ys ∈ closing h ys :=
  List.mem_of_head? (head?_closing h ys)

theorem nodup_opening {h : H} {xs : List N} (nodup : xs.Nodup) :
    (opening h xs).Nodup := by
  refine List.nodup_cons.mpr ⟨by simp, ?_⟩
  exact nodup.map fun a b same => Entry.node.inj same

theorem nodup_closing {h : H} {ys : List N} (nodup : ys.Nodup) :
    (closing h ys).Nodup := by
  refine List.nodup_append'.mpr ⟨?_, by simp, by simp⟩
  exact nodup.map fun a b same => Entry.node.inj same

theorem ne_before {h : H} {xs : List N} {e : Entry H N} (nodup : xs.Nodup)
    (member : e ∈ (opening h xs).dropLast) : e ≠ before h xs := by
  have whole := List.dropLast_append_getLast? _ (getLast?_opening h xs)
  have distinct := nodup_opening (h := h) nodup
  rw [← whole, List.nodup_append'] at distinct
  rintro rfl
  exact distinct.2.2 member (by simp)

theorem ne_after {h : H} {ys : List N} {e : Entry H N} (nodup : ys.Nodup)
    (member : e ∈ (closing h ys).tail) : e ≠ after h ys := by
  have distinct := nodup_closing (h := h) nodup
  cases ys with
  | nil => simp [closing] at member
  | cons n ys =>
      rintro rfl
      exact (List.nodup_cons.mp distinct).1 member

private theorem node_notMem_opening {h : H} {xs : List N} {n : N}
    (fresh : n ∉ xs) : .node n ∉ opening h xs := by
  simp [opening, fresh]

private theorem node_notMem_closing {h : H} {ys : List N} {n : N}
    (fresh : n ∉ ys) : .node n ∉ closing h ys := by
  simp [closing, fresh]

private theorem ne_of_parts {h : H} {xs ys : List N} {e : Entry H N}
    (nodup : (xs ++ ys).Nodup) :
    (e ∈ xs.map Entry.node → e ≠ after h ys) ∧
      (e ∈ ys.map Entry.node → e ≠ before h xs) := by
  have disjoint := (List.nodup_append'.mp nodup).2.2
  constructor
  · rintro member rfl
    obtain ⟨n, inside, same⟩ := List.mem_map.mp member
    have behind := after_mem h ys
    rw [← same] at behind
    exact disjoint inside (by simpa [closing] using behind)
  · rintro member rfl
    obtain ⟨n, inside, same⟩ := List.mem_map.mp member
    have ahead := before_mem h xs
    rw [← same] at ahead
    exact disjoint (by simpa [opening] using ahead) inside

/-! ## One list in a store -/

/-- Following `next` from the head visits `xs` and comes back, and `prev` goes
the other way. -/
structure Threads (links : Links H N) (h : H) (xs : List N) : Prop where
  chain : (cycle h xs).IsChain links.Joined
  nodup : xs.Nodup

theorem chain_transport {links other : Links H N} {es : List (Entry H N)}
    (chain : es.IsChain links.Joined)
    (next : ∀ e ∈ es.dropLast, other.next e = links.next e)
    (prev : ∀ e ∈ es.tail, other.prev e = links.prev e) :
    es.IsChain other.Joined := by
  induction es with
  | nil => exact .nil
  | cons a es ih =>
      cases es with
      | nil => exact .singleton a
      | cons b es =>
          obtain ⟨joined, rest⟩ := List.isChain_cons_cons.mp chain
          refine List.isChain_cons_cons.mpr ⟨⟨?_, ?_⟩, ih rest ?_ ?_⟩
          · rw [next a (by simp), joined.1]
          · rw [prev b (by simp), joined.2]
          · intro e member
            exact next e (by simp [member])
          · intro e member
            exact prev e (by simp [List.mem_of_mem_tail member])

theorem chain_split {R : Entry H N → Entry H N → Prop} {h : H}
    {xs ys : List N} :
    (cycle h (xs ++ ys)).IsChain R ↔
      (opening h xs).IsChain R ∧ (closing h ys).IsChain R ∧
        R (before h xs) (after h ys) := by
  rw [cycle_append, List.isChain_append, getLast?_opening, head?_closing]
  simp

theorem Threads.joined {links : Links H N} {h : H} {xs ys : List N}
    (ring : Threads links h (xs ++ ys)) :
    links.Joined (before h xs) (after h ys) :=
  (chain_split.mp ring.chain).2.2

theorem Threads.next_head {links : Links H N} {h : H} {xs : List N}
    (ring : Threads links h xs) : links.next (.head h) = after h xs := by
  rw [← List.nil_append xs] at ring
  exact ring.joined.1

theorem Threads.first_mem {links : Links H N} {h : H} {xs : List N} {n : N}
    (ring : Threads links h xs) (first : links.next (.head h) = .node n) : n ∈ xs := by
  cases xs with
  | nil => cases first.symm.trans ring.next_head
  | cons x xs =>
      cases first.symm.trans ring.next_head
      exact List.mem_cons_self ..

theorem Threads.prev_head {links : Links H N} {h : H} {xs : List N}
    (ring : Threads links h xs) : links.prev (.head h) = before h xs := by
  rw [← List.append_nil xs] at ring
  exact ring.joined.2

theorem Threads.next_node {links : Links H N} {h : H} {xs ys : List N} {n : N}
    (ring : Threads links h (xs ++ n :: ys)) :
    links.next (.node n) = after h ys := by
  have split : xs ++ n :: ys = (xs ++ [n]) ++ ys := by simp
  rw [split] at ring
  have joined := ring.joined.1
  simpa [before] using joined

theorem Threads.prev_node {links : Links H N} {h : H} {xs ys : List N} {n : N}
    (ring : Threads links h (xs ++ n :: ys)) :
    links.prev (.node n) = before h xs :=
  ring.joined.2

private theorem chain_unique {links : Links H N} {h : H} {e : Entry H N} {xs ys : List N}
    (first : (e :: closing h xs).IsChain links.Joined)
    (second : (e :: closing h ys).IsChain links.Joined) : xs = ys := by
  induction xs generalizing e ys with
  | nil =>
      have back : links.next e = .head h := (List.isChain_cons_cons.mp first).1.1
      cases ys with
      | nil => rfl
      | cons m ys =>
          have on : links.next e = .node m := (List.isChain_cons_cons.mp second).1.1
          cases back.symm.trans on
  | cons n xs ih =>
      have on : links.next e = .node n := (List.isChain_cons_cons.mp first).1.1
      cases ys with
      | nil =>
          have back : links.next e = .head h := (List.isChain_cons_cons.mp second).1.1
          cases back.symm.trans on
      | cons m ys =>
          have also : links.next e = .node m := (List.isChain_cons_cons.mp second).1.1
          cases on.symm.trans also
          rw [ih (List.isChain_cons_cons.mp first).2 (List.isChain_cons_cons.mp second).2]

/-- The pointers determine the list. -/
theorem Threads.unique {links : Links H N} {h : H} {xs ys : List N}
    (first : Threads links h xs) (second : Threads links h ys) : xs = ys :=
  chain_unique first.chain second.chain

/-- A node of a list does not point to itself. -/
theorem Threads.next_ne {links : Links H N} {h : H} {xs : List N} {n : N}
    (ring : Threads links h xs) (member : n ∈ xs) : links.next (.node n) ≠ .node n := by
  obtain ⟨front, back, rfl⟩ := List.append_of_mem member
  have once := (List.nodup_append.mp ring.nodup).2.1
  rw [ring.next_node]
  cases back with
  | nil => simp [after]
  | cons m back =>
      intro same
      cases same
      simp at once

theorem Threads.transport {links other : Links H N} {h : H} {xs : List N}
    (ring : Threads links h xs)
    (same : ∀ e ∈ cycle h xs, other.next e = links.next e ∧
      other.prev e = links.prev e) : Threads other h xs :=
  ⟨chain_transport ring.chain
    (fun e member => (same e (List.dropLast_subset _ member)).1)
    (fun e member => (same e (List.mem_of_mem_tail member)).2), ring.nodup⟩

/-! ## All lists of a store -/

/-- Every node is on at most one list. -/
structure Lists (links : Links H N) (lists : H → List N) : Prop where
  ring : ∀ h, Threads links h (lists h)
  apart : ∀ h k, h ≠ k → (lists h).Disjoint (lists k)

section Elsewhere

variable {links : Links H N} {lists : H → List N} {h : H} {xs ys : List N} {n : N}

/-- An edit between the entries of one list leaves the others alone. -/
private theorem ring_elsewhere {k : H} {edited : Links H N} {next prev : Entry H N}
    (all : Lists links lists) (ne : k ≠ h) (absent : n ∉ lists k)
    (inNext : next ∈ cycle h (lists h)) (inPrev : prev ∈ cycle h (lists h))
    (hnext : ∀ e, e ≠ .node n → e ≠ prev → edited.next e = links.next e)
    (hprev : ∀ e, e ≠ .node n → e ≠ next → edited.prev e = links.prev e) :
    Threads edited k (lists k) := by
  have outside : ∀ e ∈ cycle k (lists k), e ≠ .node n ∧ e ∉ cycle h (lists h) := by
    intro e member
    rw [mem_cycle] at member ⊢
    rcases member with rfl | ⟨m, inside, rfl⟩
    · exact ⟨by simp, by simp [ne]⟩
    · refine ⟨fun same => absent (Entry.node.inj same ▸ inside), ?_⟩
      rintro (same | ⟨m', other, same⟩)
      · simp at same
      · exact all.apart k h ne inside (Entry.node.inj same ▸ other)
  apply (all.ring k).transport
  intro e member
  obtain ⟨ne, notIn⟩ := outside e member
  exact ⟨hnext e ne (fun same => notIn (same ▸ inPrev)),
    hprev e ne (fun same => notIn (same ▸ inNext))⟩

private theorem seam_mem (split : lists h = xs ++ ys) :
    before h xs ∈ cycle h (lists h) ∧ after h ys ∈ cycle h (lists h) := by
  rw [split, cycle_append]
  exact ⟨List.mem_append_left _ (before_mem h xs),
    List.mem_append_right _ (after_mem h ys)⟩

end Elsewhere

/-! ## Joining two entries -/

variable [DecidableEq H] [DecidableEq N]

def Links.join (links : Links H N) (a b : Entry H N) : Links H N where
  next := Function.update links.next a b
  prev := Function.update links.prev b a

def Links.linkIn (links : Links H N) (n a b : Entry H N) : Links H N :=
  (links.join n b).join a n

def Links.unlink (links : Links H N) (n : Entry H N) : Links H N :=
  (links.join (links.prev n) (links.next n)).join n n

section Join

variable {links : Links H N} {a b e n : Entry H N}

theorem join_next (ne : e ≠ a) : (links.join a b).next e = links.next e := by
  simp [Links.join, ne]

theorem join_prev (ne : e ≠ b) : (links.join a b).prev e = links.prev e := by
  simp [Links.join, ne]

theorem joined_join : (links.join a b).Joined a b := by
  simp [Links.join, Links.Joined]

theorem linkIn_next (ne : e ≠ n) (apart : e ≠ a) :
    (links.linkIn n a b).next e = links.next e := by
  rw [Links.linkIn, join_next apart, join_next ne]

theorem linkIn_prev (ne : e ≠ n) (apart : e ≠ b) :
    (links.linkIn n a b).prev e = links.prev e := by
  rw [Links.linkIn, join_prev ne, join_prev apart]

theorem unlink_next (ne : e ≠ n) (apart : e ≠ links.prev n) :
    (links.unlink n).next e = links.next e := by
  rw [Links.unlink, join_next ne, join_next apart]

theorem unlink_prev (ne : e ≠ n) (apart : e ≠ links.next n) :
    (links.unlink n).prev e = links.prev e := by
  rw [Links.unlink, join_prev ne, join_prev apart]

theorem joined_linkIn_left : (links.linkIn n a b).Joined a n := joined_join

theorem joined_linkIn_right (left : n ≠ a) (right : b ≠ n) :
    (links.linkIn n a b).Joined n b := by
  constructor
  · rw [Links.linkIn, join_next left]
    exact joined_join.1
  · rw [Links.linkIn, join_prev right]
    exact joined_join.2

theorem joined_unlink (left : links.prev n ≠ n) (right : links.next n ≠ n) :
    (links.unlink n).Joined (links.prev n) (links.next n) := by
  constructor
  · rw [Links.unlink, join_next left]
    exact joined_join.1
  · rw [Links.unlink, join_prev right]
    exact joined_join.2

theorem joined_unlink_self : (links.unlink n).Joined n n := joined_join

end Join

/-! ## Linking a node in, and unlinking it -/

section Edit

variable {links : Links H N} {h : H} {xs ys : List N} {n : N}

theorem Threads.linkIn (ring : Threads links h (xs ++ ys)) (fresh : n ∉ xs ++ ys) :
    Threads (links.linkIn (.node n) (before h xs) (after h ys)) h
      (xs ++ n :: ys) := by
  rw [List.mem_append, not_or] at fresh
  obtain ⟨left, right, -⟩ := chain_split.mp ring.chain
  obtain ⟨leftNodup, rightNodup, -⟩ := List.nodup_append'.mp ring.nodup
  have notLeft := node_notMem_opening (h := h) fresh.1
  have notRight := node_notMem_closing (h := h) fresh.2
  have notBefore := ne_of_mem_of_not_mem (before_mem h xs) notLeft
  have notAfter := ne_of_mem_of_not_mem (after_mem h ys) notRight
  refine ⟨chain_split.mpr ⟨?_, ?_, joined_linkIn_left⟩, ?_⟩
  · apply chain_transport left
    · intro e member
      exact linkIn_next
        (ne_of_mem_of_not_mem (List.dropLast_subset _ member) notLeft)
        (ne_before leftNodup member)
    · intro e member
      exact linkIn_prev
        (ne_of_mem_of_not_mem (List.mem_of_mem_tail member) notLeft)
        ((ne_of_parts ring.nodup).1 member)
  · refine List.IsChain.cons (chain_transport right ?_ ?_) ?_
    · intro e member
      refine linkIn_next
        (ne_of_mem_of_not_mem (List.dropLast_subset _ member) notRight)
        ((ne_of_parts ring.nodup).2 ?_)
      simpa [closing] using member
    · intro e member
      exact linkIn_prev
        (ne_of_mem_of_not_mem (List.mem_of_mem_tail member) notRight)
        (ne_after rightNodup member)
    · change ∀ e ∈ (closing h ys).head?, _
      rw [head?_closing]
      simpa using joined_linkIn_right notBefore.symm notAfter
  · rw [List.nodup_middle, List.nodup_cons, List.mem_append, not_or]
    exact ⟨fresh, ring.nodup⟩

theorem Threads.unlink (ring : Threads links h (xs ++ n :: ys)) :
    Threads (links.unlink (.node n)) h (xs ++ ys) := by
  have nodup := List.nodup_middle.mp ring.nodup
  obtain ⟨absent, rest⟩ := List.nodup_cons.mp nodup
  rw [List.mem_append, not_or] at absent
  obtain ⟨leftNodup, rightNodup, -⟩ := List.nodup_append'.mp rest
  obtain ⟨left, right, -⟩ := chain_split.mp ring.chain
  have right : (closing h ys).IsChain links.Joined := right.tail
  have notLeft := node_notMem_opening (h := h) absent.1
  have notRight := node_notMem_closing (h := h) absent.2
  have prev := ring.prev_node
  have next := ring.next_node
  refine ⟨chain_split.mpr ⟨?_, ?_, ?_⟩, rest⟩
  · apply chain_transport left
    · intro e member
      refine unlink_next
        (ne_of_mem_of_not_mem (List.dropLast_subset _ member) notLeft) ?_
      exact prev ▸ ne_before leftNodup member
    · intro e member
      refine unlink_prev
        (ne_of_mem_of_not_mem (List.mem_of_mem_tail member) notLeft) ?_
      exact next ▸ (ne_of_parts rest).1 member
  · apply chain_transport right
    · intro e member
      refine unlink_next
        (ne_of_mem_of_not_mem (List.dropLast_subset _ member) notRight) ?_
      exact prev ▸ (ne_of_parts rest).2 (by simpa [closing] using member)
    · intro e member
      refine unlink_prev
        (ne_of_mem_of_not_mem (List.mem_of_mem_tail member) notRight) ?_
      exact next ▸ ne_after rightNodup member
  · have seam := joined_unlink
      (prev ▸ ne_of_mem_of_not_mem (before_mem h xs) notLeft)
      (next ▸ ne_of_mem_of_not_mem (after_mem h ys) notRight)
    rwa [prev, next] at seam

end Edit

/-! ## Edits among all lists -/

section Family

variable {links : Links H N} {lists : H → List N} {h : H} {xs ys : List N} {n : N}

theorem Lists.linkIn (all : Lists links lists) (split : lists h = xs ++ ys)
    (fresh : ∀ k, n ∉ lists k) :
    Lists (links.linkIn (.node n) (before h xs) (after h ys))
      (Function.update lists h (xs ++ n :: ys)) := by
  obtain ⟨inPrev, inNext⟩ := seam_mem split
  constructor
  · intro k
    by_cases same : k = h
    · subst same
      rw [Function.update_self]
      exact Threads.linkIn (split ▸ all.ring k) (split ▸ fresh k)
    · rw [Function.update_of_ne same]
      exact ring_elsewhere all same (fresh k) inNext inPrev
        (fun e => linkIn_next) (fun e => linkIn_prev)
  · have subset : ∀ k, k ≠ h → (xs ++ n :: ys).Disjoint (lists k) := by
      intro k ne
      have old := all.apart h k ne.symm
      rw [split] at old
      intro m member other
      rw [List.mem_append, List.mem_cons] at member
      rcases member with inside | rfl | inside
      · exact old (List.mem_append_left _ inside) other
      · exact fresh k other
      · exact old (List.mem_append_right _ inside) other
    intro k j ne
    by_cases first : k = h
    · subst first
      rw [Function.update_self, Function.update_of_ne ne.symm]
      exact subset j ne.symm
    · rw [Function.update_of_ne first]
      by_cases second : j = h
      · subst second
        rw [Function.update_self]
        exact (subset k first).symm
      · rw [Function.update_of_ne second]
        exact all.apart k j ne

theorem Lists.unlink (all : Lists links lists) (split : lists h = xs ++ n :: ys) :
    Lists (links.unlink (.node n)) (Function.update lists h (xs ++ ys)) := by
  have ring := all.ring h
  have elsewhere : ∀ k, k ≠ h → n ∉ lists k := by
    intro k ne member
    exact all.apart h k ne.symm (split ▸ by simp) member
  have inPrev : links.prev (.node n) ∈ cycle h (lists h) := by
    rw [split] at ring
    rw [ring.prev_node]
    exact (seam_mem split).1
  have inNext : links.next (.node n) ∈ cycle h (lists h) := by
    rw [split] at ring
    rw [ring.next_node]
    have split' : lists h = (xs ++ [n]) ++ ys := by simp [split]
    exact (seam_mem split').2
  constructor
  · intro k
    by_cases same : k = h
    · subst same
      rw [Function.update_self]
      exact Threads.unlink (split ▸ ring)
    · rw [Function.update_of_ne same]
      exact ring_elsewhere all same (elsewhere k same) inNext inPrev
        (fun e => unlink_next) (fun e => unlink_prev)
  · have subset : xs ++ ys ⊆ lists h := by
      rw [split]
      intro m member
      simp only [List.mem_append, List.mem_cons] at member ⊢
      tauto
    intro k j ne
    by_cases first : k = h
    · subst first
      rw [Function.update_self, Function.update_of_ne ne.symm]
      exact fun m member => all.apart k j ne (subset member)
    · rw [Function.update_of_ne first]
      by_cases second : j = h
      · subst second
        rw [Function.update_self]
        exact fun m member other => all.apart k j ne member (subset other)
      · rw [Function.update_of_ne second]
        exact all.apart k j ne

end Family

/-! ## Parts of a store that pointers do not leave -/

def Closed (links : Links H N) (part : Entry H N → Prop) : Prop :=
  ∀ e, part e → part (links.next e) ∧ part (links.prev e)

section Parts

variable {links : Links H N} {part : Entry H N → Prop} {a b : Entry H N}

omit [DecidableEq H] [DecidableEq N] in
theorem Threads.closed {h : H} {xs : List N} (ring : Threads links h xs) :
    Closed links (· ∈ cycle h xs) := by
  intro e member
  cases mem_cycle.mp member with
  | inl head =>
      subst head
      rw [ring.next_head, ring.prev_head]
      refine ⟨List.mem_cons_of_mem _ (after_mem h xs), ?_⟩
      have parts := cycle_append h xs []
      rw [List.append_nil] at parts
      rw [parts]
      exact List.mem_append_left _ (before_mem h xs)
  | inr node =>
      obtain ⟨n, inside, rfl⟩ := node
      obtain ⟨front, back, split⟩ := List.append_of_mem inside
      subst split
      rw [ring.next_node, ring.prev_node, cycle_append]
      refine ⟨List.mem_append_right _ ?_, List.mem_append_left _ (before_mem h front)⟩
      exact List.mem_cons_of_mem _ (after_mem h back)

theorem Closed.join (closed : Closed links part) (ha : part a) (hb : part b) :
    Closed (links.join a b) part := by
  intro e inside
  constructor
  · by_cases same : e = a
    · rw [same, joined_join.1]
      exact hb
    · rw [join_next same]
      exact (closed e inside).1
  · by_cases same : e = b
    · rw [same, joined_join.2]
      exact ha
    · rw [join_prev same]
      exact (closed e inside).2

/-- A list outside the part is not changed by an edit inside it. -/
theorem Threads.join_inside {h : H} {xs : List N} (ring : Threads links h xs)
    (outside : ∀ e ∈ cycle h xs, ¬ part e) (ha : part a) (hb : part b) :
    Threads (links.join a b) h xs := by
  apply ring.transport
  intro e member
  constructor
  · exact join_next fun same => outside e member (same ▸ ha)
  · exact join_prev fun same => outside e member (same ▸ hb)

/-- An edit outside the part leaves it closed. -/
theorem Closed.join_outside (closed : Closed links part) (ha : ¬ part a)
    (hb : ¬ part b) : Closed (links.join a b) part := by
  intro e inside
  have left : e ≠ a := fun same => ha (same ▸ inside)
  have right : e ≠ b := fun same => hb (same ▸ inside)
  rw [join_next left, join_prev right]
  exact closed e inside

end Parts

/-! ## Nodes on no list -/

section Alone

variable {links : Links H N} {lists : H → List N} {h : H} {xs ys : List N} {n : N}

/-- A node that points to itself is not moved by unlinking it. -/
theorem unlink_alone (alone : links.Joined (.node n) (.node n)) :
    links.unlink (.node n) = links := by
  have same : links.join (.node n) (.node n) = links := by
    unfold Links.join
    rw [Function.update_eq_self_iff.mpr alone.1.symm, Function.update_eq_self_iff.mpr alone.2.symm]
  unfold Links.unlink
  rw [alone.1, alone.2, same, same]

omit [DecidableEq H] [DecidableEq N] in
private theorem ne_cycle {m : N} {e : Entry H N} (absent : m ∉ lists h)
    (inside : e ∈ cycle h (lists h)) : Entry.node m ≠ e := by
  rintro rfl
  rcases mem_cycle.mp inside with head | ⟨k, member, same⟩
  · cases head
  · cases same
    exact absent member

/-- An edit of a list leaves a node alone that is on no list. -/
theorem Lists.linkIn_alone {m : N} (alone : links.Joined (.node m) (.node m))
    (split : lists h = xs ++ ys) (absent : m ∉ lists h) (other : m ≠ n) :
    (links.linkIn (.node n) (before h xs) (after h ys)).Joined (.node m) (.node m) := by
  obtain ⟨inPrev, inNext⟩ := seam_mem split
  have ne : Entry.node m ≠ (.node n : Entry H N) := fun same => other (Entry.node.inj same)
  constructor
  · rw [linkIn_next ne (ne_cycle absent inPrev)]
    exact alone.1
  · rw [linkIn_prev ne (ne_cycle absent inNext)]
    exact alone.2

theorem Lists.unlink_alone {m : N} (all : Lists links lists)
    (alone : links.Joined (.node m) (.node m)) (split : lists h = xs ++ n :: ys)
    (absent : m ∉ lists h) : (links.unlink (.node n)).Joined (.node m) (.node m) := by
  have ring := all.ring h
  have closed := ring.closed (.node n) (mem_cycle.mpr (.inr ⟨n, split ▸ by simp, rfl⟩))
  have ne : Entry.node m ≠ (.node n : Entry H N) := by
    intro same
    cases same
    exact absent (split ▸ by simp)
  constructor
  · rw [unlink_next ne (ne_cycle absent closed.2)]
    exact alone.1
  · rw [unlink_prev ne (ne_cycle absent closed.1)]
    exact alone.2

end Alone

/-! ## Walks -/

/-- The entry where a walk ends: the node that was looked for, or the head again. -/
def found (h : H) : Option N → Entry H N
  | none => .head h
  | some n => .node n

/-- A walk from entry to entry that ends at `stop` or at the head.  It has no outcome when
it gets to another head or does not end in the given number of entries. -/
def seek (move : Entry H N → Entry H N) (h : H) (stop : N → Bool) :
    Nat → Entry H N → Option (Entry H N)
  | 0, _ => none
  | _ + 1, .head k => if k = h then some (.head h) else none
  | fuel + 1, .node n => if stop n then some (.node n) else seek move h stop fuel (move (.node n))

/-- The nodes that a walk gets to in front of a head. -/
def collect (move : Entry H N → Entry H N) : Nat → Entry H N → List N
  | 0, _ => []
  | _ + 1, .head _ => []
  | fuel + 1, .node n => n :: collect move fuel (move (.node n))

section Walks

variable {links : Links H N} {h : H} {xs ys : List N} {fuel : Nat} {stop : N → Bool}

omit [DecidableEq N] in
theorem Threads.seek_next (ring : Threads links h (xs ++ ys)) (enough : ys.length < fuel) :
    seek links.next h stop fuel (after h ys) = some (found h (ys.find? stop)) := by
  induction ys generalizing xs fuel with
  | nil =>
      cases fuel with
      | zero => simp at enough
      | succ fuel => simp [after, seek, found]
  | cons y ys ih =>
      cases fuel with
      | zero => simp at enough
      | succ fuel =>
          have behind : Threads links h ((xs ++ [y]) ++ ys) := by simpa using ring
          have rest := ih behind (by simpa using enough)
          by_cases here : stop y = true
          · simp [after, seek, here, found]
          · simp only [after, seek, here, List.find?_cons]
            simpa [ring.next_node] using rest

omit [DecidableEq N] in
theorem Threads.seek_prev (ring : Threads links h (xs ++ ys)) (enough : xs.length < fuel) :
    seek links.prev h stop fuel (before h xs) = some (found h (xs.reverse.find? stop)) := by
  induction xs using List.reverseRecOn generalizing ys fuel with
  | nil =>
      cases fuel with
      | zero => simp at enough
      | succ fuel => simp [before, seek, found]
  | append_singleton xs x ih =>
      cases fuel with
      | zero => simp at enough
      | succ fuel =>
          have ahead : Threads links h (xs ++ x :: ys) := by simpa using ring
          have rest := ih ahead (by simpa using enough)
          have last : before h (xs ++ [x]) = .node x := by simp [before]
          by_cases here : stop x = true
          · simp [last, seek, here, found]
          · simp only [last, seek, here, List.reverse_append, List.reverse_singleton,
              List.singleton_append, List.find?_cons]
            simpa [ahead.prev_node] using rest

omit [DecidableEq H] [DecidableEq N] in
theorem Threads.collect_next (ring : Threads links h (xs ++ ys)) (enough : ys.length < fuel) :
    collect links.next fuel (after h ys) = ys := by
  induction ys generalizing xs fuel with
  | nil =>
      cases fuel with
      | zero => rfl
      | succ fuel => rfl
  | cons y ys ih =>
      cases fuel with
      | zero => simp at enough
      | succ fuel =>
          have behind : Threads links h ((xs ++ [y]) ++ ys) := by simpa using ring
          have rest := ih behind (by simpa using enough)
          change y :: collect links.next fuel (links.next (.node y)) = y :: ys
          rw [ring.next_node, rest]

omit [DecidableEq H] [DecidableEq N] in
/-- Every entry of a list is in front of a gap. -/
theorem exists_before {zs : List N} {e : Entry H N} (inside : e ∈ cycle h zs) :
    ∃ xs ys, zs = xs ++ ys ∧ e = before h xs := by
  rcases mem_cycle.mp inside with rfl | ⟨n, member, rfl⟩
  · exact ⟨[], zs, rfl, rfl⟩
  · obtain ⟨xs, ys, rfl⟩ := List.append_of_mem member
    exact ⟨xs ++ [n], ys, by simp, by simp [before]⟩

end Walks

end Smartchip.Foundation
