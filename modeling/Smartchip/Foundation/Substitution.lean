import Mathlib.Data.List.Basic

/-!
# Ciphers of substitution, mixing and round keys

A cipher that mixes after it substitutes in every round but the last.  Where the inverse of the
mixing is additive, the inverse cipher can have the shape of the cipher itself, with the inverse
mixing applied to the keys of the rounds between.
-/

namespace Smartchip.Foundation

/-- A state with addition of a key, a substitution and a mixing, and what undoes them. -/
structure Network (S : Type*) where
  add : S → S → S
  sub : S → S
  unsub : S → S
  mix : S → S
  unmix : S → S
  add_add : ∀ s k, add (add s k) k = s
  unsub_sub : ∀ s, unsub (sub s) = s
  sub_unsub : ∀ s, sub (unsub s) = s
  unmix_mix : ∀ s, unmix (mix s) = s
  mix_unmix : ∀ s, mix (unmix s) = s
  unmix_add : ∀ s k, unmix (add s k) = add (unmix s) (unmix k)

namespace Network

variable {S : Type*} (net : Network S)

def rounds (keys : List S) (s : S) : S :=
  keys.foldl (fun s k => net.add (net.mix (net.sub s)) k) s

def encrypt (first : S) (keys : List S) (last : S) (s : S) : S :=
  net.add (net.sub (net.rounds keys (net.add s first))) last

def unrounds (keys : List S) (s : S) : S :=
  keys.foldl (fun s k => net.add (net.unmix (net.unsub s)) k) s

def decrypt (last : S) (keys : List S) (first : S) (s : S) : S :=
  net.add (net.unsub (net.unrounds keys (net.add s last))) first

@[simp] theorem unrounds_append (left right : List S) (s : S) :
    net.unrounds (left ++ right) s = net.unrounds right (net.unrounds left s) :=
  List.foldl_append

theorem unrounds_rounds (keys : List S) (s : S) :
    net.unrounds (keys.reverse.map net.unmix) (net.sub (net.rounds keys s)) = net.sub s := by
  induction keys generalizing s with
  | nil => rfl
  | cons k keys ih =>
      have rest := ih (net.add (net.mix (net.sub s)) k)
      simp only [List.reverse_cons, List.map_append, unrounds_append]
      have step : net.rounds (k :: keys) s = net.rounds keys (net.add (net.mix (net.sub s)) k) :=
        rfl
      rw [step, rest]
      simp [unrounds, net.unsub_sub, ← net.unmix_add, net.add_add, net.unmix_mix]

theorem rounds_unrounds (keys : List S) (s : S) :
    net.rounds keys (net.unsub (net.unrounds (keys.reverse.map net.unmix) s)) = net.unsub s := by
  induction keys generalizing s with
  | nil => rfl
  | cons k keys ih =>
      simp only [List.reverse_cons, List.map_append, unrounds_append]
      set inner := net.unrounds (keys.reverse.map net.unmix) s with inner_eq
      have step : net.rounds (k :: keys) (net.unsub (net.unrounds ([k].map net.unmix) inner)) =
          net.rounds keys (net.unsub inner) := by
        simp [rounds, unrounds, net.sub_unsub, ← net.unmix_add, net.add_add, net.mix_unmix]
      rw [step, inner_eq]
      exact ih s

theorem decrypt_encrypt (first : S) (keys : List S) (last s : S) :
    net.decrypt last (keys.reverse.map net.unmix) first (net.encrypt first keys last s) = s := by
  simp only [decrypt, encrypt, net.add_add, unrounds_rounds, net.unsub_sub]

theorem encrypt_decrypt (first : S) (keys : List S) (last s : S) :
    net.encrypt first keys last (net.decrypt last (keys.reverse.map net.unmix) first s) = s := by
  simp only [decrypt, encrypt, net.add_add, rounds_unrounds, net.sub_unsub]

end Network

end Smartchip.Foundation
