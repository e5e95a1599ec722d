import Smartchip.Crypto.AesInverse
import Smartchip.Foundation.Sweep

/-!
# The AES key wrap

`wf_aes_wrap` and `wf_aes_unwrap` of `os/rtos/sec/crypto`.  The buffer behind the first eight bytes
is worked on in halves of a block, and six times over.
-/

namespace Smartchip.Crypto

open Smartchip.Foundation

/-- Eight bytes, half of a block. -/
structure Half where
  bytes : List UInt8
  length : bytes.length = 8

theorem Half.ext {a b : Half} (eq : a.bytes = b.bytes) : a = b := by
  cases a
  cases b
  simp_all

theorem length_slice (buf : List UInt8) (pos : Nat) :
    ((List.range 8).map fun k => buf.getD (pos + k) 0).length = 8 := by
  simp

/-- The eight bytes at a position. -/
def halfAt (buf : List UInt8) (pos : Nat) : Half :=
  ⟨(List.range 8).map fun k => buf.getD (pos + k) 0, length_slice buf pos⟩

/-- `n` halves one behind the other. -/
def halves : Nat → List UInt8 → List Half
  | 0, _ => []
  | n + 1, buf => halfAt buf 0 :: halves n (buf.drop 8)

def joined (halves : List Half) : List UInt8 := halves.flatMap Half.bytes

theorem length_counter (a : Half) (t : Word) :
    ((((a.bytes.modify 7 (· ^^^ ⟨t.setWidth 8⟩)).modify 6 (· ^^^ ⟨(t >>> 8).setWidth 8⟩)).modify 5
      (· ^^^ ⟨(t >>> 16).setWidth 8⟩)).modify 4 (· ^^^ ⟨(t >>> 24).setWidth 8⟩)).length = 8 := by
  simp [a.length]

/-- `a[7] ^= t` and the three bytes before it. -/
def counted (a : Half) (t : Word) : Half :=
  ⟨(((a.bytes.modify 7 (· ^^^ ⟨t.setWidth 8⟩)).modify 6 (· ^^^ ⟨(t >>> 8).setWidth 8⟩)).modify 5
    (· ^^^ ⟨(t >>> 16).setWidth 8⟩)).modify 4 (· ^^^ ⟨(t >>> 24).setWidth 8⟩), length_counter a t⟩

/-- One step of `wf_aes_wrap`, with `t` its counter. -/
def wrapStep (ctx : RoundKeys) (t : Nat) (s : Half × Half) : Half × Half :=
  let b := aesEnc ctx (s.1.bytes ++ s.2.bytes)
  (counted (halfAt b 0) (BitVec.ofNat 32 t), halfAt b 8)

/-- One step of `wf_aes_unwrap`. -/
def unwrapStep (ctx : RoundKeys) (t : Nat) (s : Half × Half) : Half × Half :=
  let b := aesDec ctx ((counted s.1 (BitVec.ofNat 32 t)).bytes ++ s.2.bytes)
  (halfAt b 0, halfAt b 8)

/-- The loop over `i`, from 1 to `n`. -/
def wrapPass (ctx : RoundKeys) (n j : Nat) (s : Half × List Half) : Half × List Half :=
  sweep (wrapStep ctx) (n * j + 1) s.1 s.2

/-- The loop over `i`, from `n` to 1. -/
def unwrapPass (ctx : RoundKeys) (n j : Nat) (s : Half × List Half) : Half × List Half :=
  sweepBack (unwrapStep ctx) (n * j + 1) s.1 s.2

theorem length_initial : (List.replicate 8 (0xa6 : UInt8)).length = 8 := by simp

def initialValue : Half := ⟨List.replicate 8 0xa6, length_initial⟩

/-- `wf_aes_wrap`; `none` stands for the return value `-1`. -/
def aesWrap (kek : List UInt8) (n : Nat) (plain : List UInt8) : Option (List UInt8) :=
  (aesInitEnc kek).map fun ctx =>
    let s := (List.range 6).foldl (fun s j => wrapPass ctx n j s) (initialValue, halves n plain)
    s.1.bytes ++ joined s.2

/-- `wf_aes_unwrap`; `none` stands for the return value `-1`. -/
def aesUnwrap (kek : List UInt8) (n : Nat) (cipher : List UInt8) : Option (List UInt8) :=
  (aesDecInit kek).bind fun ctx =>
    let s := (List.range 6).reverse.foldl (fun s j => unwrapPass ctx n j s)
      (halfAt cipher 0, halves n (cipher.drop 8))
    if s.1.bytes = List.replicate 8 0xa6 then some (joined s.2) else none

/-! ## Halves and buffers -/

theorem bytes_halfAt {buf : List UInt8} {pos : Nat} (inside : pos + 8 ≤ buf.length) :
    (halfAt buf pos).bytes = (buf.drop pos).take 8 := by
  apply List.ext_getElem
  · simp [halfAt]
    omega
  · intro i small _
    have within : i < 8 := by simpa [halfAt] using small
    have inside : pos + i < buf.length := by omega
    simp [halfAt, List.getD_eq_getElem?_getD, List.getElem?_eq_getElem inside]

theorem length_halves (n : Nat) (buf : List UInt8) : (halves n buf).length = n := by
  induction n generalizing buf with
  | zero => rfl
  | succ n ih => simp [halves, ih]

theorem length_joined (rs : List Half) : (joined rs).length = 8 * rs.length := by
  induction rs with
  | nil => rfl
  | cons r rs ih =>
      simp only [joined, List.flatMap_cons, List.length_append, r.length, List.length_cons] at ih ⊢
      omega

theorem joined_halves {n : Nat} {buf : List UInt8} (size : buf.length = 8 * n) :
    joined (halves n buf) = buf := by
  induction n generalizing buf with
  | zero => simp_all [joined, halves]
  | succ n ih =>
      have rest : joined (halves n (buf.drop 8)) = buf.drop 8 := ih (by simp [size]; omega)
      simp only [joined, halves, List.flatMap_cons] at rest ⊢
      rw [rest, bytes_halfAt (by omega), List.drop_zero, List.take_append_drop]

theorem halfAt_append (a : Half) (rest : List UInt8) : halfAt (a.bytes ++ rest) 0 = a := by
  apply Half.ext
  rw [bytes_halfAt (by simp [a.length]), List.drop_zero, ← a.length, List.take_left]

theorem halfAt_8 (a b : Half) : halfAt (a.bytes ++ b.bytes) 8 = b := by
  apply Half.ext
  rw [bytes_halfAt (by simp [a.length, b.length]), ← a.length, List.drop_left, a.length,
    ← b.length, List.take_length]

theorem halves_joined (rs : List Half) : halves rs.length (joined rs) = rs := by
  induction rs with
  | nil => rfl
  | cons r rs ih =>
      have rest : (joined (r :: rs)).drop 8 = joined rs := by
        simp only [joined, List.flatMap_cons]
        rw [← r.length, List.drop_left]
      simp only [List.length_cons, halves, rest, ih]
      rw [joined, List.flatMap_cons, halfAt_append]

theorem bytes_append {block : List UInt8} (full : block.length = 16) :
    (halfAt block 0).bytes ++ (halfAt block 8).bytes = block := by
  rw [bytes_halfAt (by omega), bytes_halfAt (by omega), List.drop_zero,
    List.take_of_length_le (l := block.drop 8) (by simp [full]), List.take_append_drop]

/-! ## A step undoes a step -/

/-- The counter is added without a carry, so adding it twice changes nothing. -/
theorem counted_counted (a : Half) (t : Word) : counted (counted a t) t = a := by
  apply Half.ext
  match a with
  | ⟨[b0, b1, b2, b3, b4, b5, b6, b7], _⟩ =>
      simp only [counted, List.modify_succ_cons, List.modify_zero_cons, UInt8.xor_assoc,
        UInt8.xor_self, UInt8.xor_zero]

theorem length_aesEnc (ctx : RoundKeys) (plain : List UInt8) : (aesEnc ctx plain).length = 16 := rfl

theorem length_aesDec (ctx : RoundKeys) (crypt : List UInt8) : (aesDec ctx crypt).length = 16 := rfl

theorem length_pair (a b : Half) : (a.bytes ++ b.bytes).length = 16 := by
  simp [a.length, b.length]

section Steps

variable {enc dec : RoundKeys}

theorem unwrapStep_wrapStep (inverse : Inverse enc dec) (t : Nat) (s : Half × Half) :
    unwrapStep dec t (wrapStep enc t s) = s := by
  have whole := bytes_append (length_aesEnc enc (s.1.bytes ++ s.2.bytes))
  have undone := inverse.aesDec_aesEnc _ (length_pair s.1 s.2)
  simp only [unwrapStep, wrapStep, counted_counted, whole, undone]
  rw [halfAt_append, halfAt_8]

theorem wrapStep_unwrapStep (inverse : Inverse enc dec) (t : Nat) (s : Half × Half) :
    wrapStep enc t (unwrapStep dec t s) = s := by
  have whole := bytes_append
    (length_aesDec dec ((counted s.1 (BitVec.ofNat 32 t)).bytes ++ s.2.bytes))
  have redone := inverse.aesEnc_aesDec _ (length_pair (counted s.1 (BitVec.ofNat 32 t)) s.2)
  simp only [unwrapStep, wrapStep, whole, redone]
  rw [halfAt_append, halfAt_8, counted_counted]

theorem unwrapPass_wrapPass (inverse : Inverse enc dec) (n j : Nat) (s : Half × List Half) :
    unwrapPass dec n j (wrapPass enc n j s) = s :=
  sweepBack_sweep (unwrapStep_wrapStep inverse) _ _ _

theorem wrapPass_unwrapPass (inverse : Inverse enc dec) (n j : Nat) (s : Half × List Half) :
    wrapPass enc n j (unwrapPass dec n j s) = s :=
  sweep_sweepBack (wrapStep_unwrapStep inverse) _ _ _

end Steps

theorem length_wrapPasses (ctx : RoundKeys) (n : Nat) (passes : List Nat) (s : Half × List Half) :
    (passes.foldl (fun s j => wrapPass ctx n j s) s).2.length = s.2.length := by
  induction passes generalizing s with
  | nil => rfl
  | cons j passes ih => rw [List.foldl_cons, ih, wrapPass, length_sweep]

theorem length_unwrapPasses (ctx : RoundKeys) (n : Nat) (passes : List Nat)
    (s : Half × List Half) :
    (passes.foldl (fun s j => unwrapPass ctx n j s) s).2.length = s.2.length := by
  induction passes generalizing s with
  | nil => rfl
  | cons j passes ih => rw [List.foldl_cons, ih, unwrapPass, length_sweepBack]

/-! ## What is unwrapped was wrapped -/

section Wrapped

variable {kek plain cipher : List UInt8} {n : Nat}

theorem length_aesWrap (wrapped : aesWrap kek n plain = some cipher) :
    cipher.length = 8 * (n + 1) := by
  simp only [aesWrap, Option.map_eq_some_iff] at wrapped
  obtain ⟨ctx, -, eq⟩ := wrapped
  rw [← eq, List.length_append, Half.length, length_joined, length_wrapPasses, length_halves]
  omega

/-- A key that wraps anything has two contexts, which undo each other. -/
theorem contexts_of_aesWrap (wrapped : aesWrap kek n plain = some cipher) :
    ∃ enc dec, aesInitEnc kek = some enc ∧ aesDecInit kek = some dec ∧ Inverse enc dec := by
  apply inverse_contexts
  by_contra size
  simp [aesWrap, (no_contexts size).1] at wrapped

theorem contexts_of_aesUnwrap (unwrapped : aesUnwrap kek n cipher = some plain) :
    ∃ enc dec, aesInitEnc kek = some enc ∧ aesDecInit kek = some dec ∧ Inverse enc dec := by
  apply inverse_contexts
  by_contra size
  simp [aesUnwrap, (no_contexts size).2] at unwrapped

theorem isSome_aesWrap (size : kek.length = 16 ∨ kek.length = 24 ∨ kek.length = 32) :
    (aesWrap kek n plain).isSome = true := by
  obtain ⟨enc, dec, made, -, -⟩ := inverse_contexts size
  simp [aesWrap, made]

theorem aesUnwrap_aesWrap (size : plain.length = 8 * n)
    (wrapped : aesWrap kek n plain = some cipher) : aesUnwrap kek n cipher = some plain := by
  obtain ⟨enc, dec, made, unmade, inverse⟩ := contexts_of_aesWrap wrapped
  simp only [aesWrap, made, Option.map_some, Option.some.injEq] at wrapped
  set s := (List.range 6).foldl (fun s j => wrapPass enc n j s) (initialValue, halves n plain)
    with s_eq
  have count : s.2.length = n := by rw [s_eq, length_wrapPasses, length_halves]
  have first : halfAt cipher 0 = s.1 := by rw [← wrapped, halfAt_append]
  have others : halves n (cipher.drop 8) = s.2 := by
    rw [← wrapped, ← s.1.length, List.drop_left, ← count, halves_joined]
  have undone := foldl_undo (unwrapPass_wrapPass inverse n) (List.range 6)
    (initialValue, halves n plain)
  simp only [aesUnwrap, unmade, Option.bind_some, first, others, Prod.mk.eta]
  rw [s_eq, undone, if_pos (by rfl), joined_halves size]

theorem aesWrap_aesUnwrap (size : cipher.length = 8 * (n + 1))
    (unwrapped : aesUnwrap kek n cipher = some plain) : aesWrap kek n plain = some cipher := by
  obtain ⟨enc, dec, made, unmade, inverse⟩ := contexts_of_aesUnwrap unwrapped
  simp only [aesUnwrap, unmade, Option.bind_some] at unwrapped
  set s := (List.range 6).reverse.foldl (fun s j => unwrapPass dec n j s)
    (halfAt cipher 0, halves n (cipher.drop 8)) with s_eq
  split_ifs at unwrapped with marked
  have count : s.2.length = n := by rw [s_eq, length_unwrapPasses, length_halves]
  have first : s.1 = initialValue := Half.ext marked
  have others : halves n plain = s.2 := by
    rw [← Option.some.inj unwrapped, ← count, halves_joined]
  have redone := foldl_redo (wrapPass_unwrapPass inverse n) (List.range 6)
    (halfAt cipher 0, halves n (cipher.drop 8))
  rw [← s_eq] at redone
  simp only [aesWrap, made, Option.map_some, ← first, others, Prod.mk.eta, redone]
  rw [joined_halves (by simp [size]; omega), bytes_halfAt (by omega), List.drop_zero,
    List.take_append_drop]

end Wrapped

/-- For every key, unwrapping accepts exactly what wrapping makes of some plain text, and gives
this plain text back. -/
theorem aesUnwrap_eq_some_iff (kek plain cipher : List UInt8) (n : Nat)
    (plain_size : plain.length = 8 * n) (cipher_size : cipher.length = 8 * (n + 1)) :
    aesUnwrap kek n cipher = some plain ↔ aesWrap kek n plain = some cipher :=
  ⟨aesWrap_aesUnwrap cipher_size, aesUnwrap_aesWrap plain_size⟩

/-- Two blocks wrapped and unwrapped under a key of zeros. -/
theorem aesUnwrap_eq_some_iff_two_blocks :
    ∃ cipher : List UInt8,
      aesUnwrap (List.replicate 16 0) 2 cipher = some (List.replicate 16 1) := by
  have made : (aesWrap (List.replicate 16 0) 2 (List.replicate 16 1)).isSome = true :=
    isSome_aesWrap (.inl rfl)
  obtain ⟨cipher, wrapped⟩ := Option.isSome_iff_exists.mp made
  exact ⟨cipher, (aesUnwrap_eq_some_iff _ _ _ 2 rfl (length_aesWrap wrapped)).mpr wrapped⟩

end Smartchip.Crypto
