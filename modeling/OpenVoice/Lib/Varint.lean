import Mathlib.Algebra.Group.Nat.Defs
import Mathlib.Data.List.Basic

/-!
# Numbers of variable length

Seven bits a byte, the lowest first; every byte but the last has its high bit set.
-/

namespace OpenVoice.Lib.Varint

def encode (n : Nat) : List (BitVec 8) :=
  if n < 128 then [BitVec.ofNat 8 n]
  else BitVec.ofNat 8 (n % 128 + 128) :: encode (n / 128)

/-- The number at the start and what stands behind it; none if there is no end to the number. -/
def decode : List (BitVec 8) → Option (Nat × List (BitVec 8))
  | [] => none
  | b :: l =>
      if b.toNat < 128 then some (b.toNat, l)
      else (decode l).map fun r => (b.toNat - 128 + 128 * r.1, r.2)

theorem encode_of_lt {n : Nat} (h : n < 128) : encode n = [BitVec.ofNat 8 n] := by
  rw [encode, if_pos h]

theorem encode_of_le {n : Nat} (h : 128 ≤ n) :
    encode n = BitVec.ofNat 8 (n % 128 + 128) :: encode (n / 128) := by
  rw [encode, if_neg (Nat.not_lt.mpr h)]

theorem encode_ne_nil (n : Nat) : encode n ≠ [] := by
  rw [encode]
  split
  · exact List.cons_ne_nil _ _
  · exact List.cons_ne_nil _ _

/-- Seven bits a byte. -/
theorem length_encode_le {n k : Nat} (h : n < 128 ^ (k + 1)) : (encode n).length ≤ k + 1 := by
  induction k generalizing n with
  | zero =>
      have hone : (encode n).length = 0 + 1 := by
        rw [encode_of_lt (by simpa using h), List.length_singleton]
      exact Nat.le_of_eq hone
  | succ k ih =>
      by_cases hlt : n < 128
      · rw [encode_of_lt hlt, List.length_singleton]
        exact Nat.succ_le_succ (Nat.zero_le _)
      · have hdiv : n / 128 < 128 ^ (k + 1) := by
          rw [Nat.pow_succ] at h
          exact (Nat.div_lt_iff_lt_mul (by decide)).mpr h
        rw [encode_of_le (Nat.not_lt.mp hlt), List.length_cons]
        exact Nat.succ_le_succ (ih hdiv)

/-- Reading a number back leaves what stands behind it. -/
theorem decode_encode_append (n : Nat) (l : List (BitVec 8)) :
    decode (encode n ++ l) = some (n, l) := by
  induction n using encode.induct with
  | case1 n h =>
      have hn : (BitVec.ofNat 8 n).toNat = n := by
        rw [BitVec.toNat_ofNat]
        exact Nat.mod_eq_of_lt (by omega)
      rw [encode_of_lt h, List.singleton_append, decode, hn, if_pos h]
  | case2 n h ih =>
      have hb : (BitVec.ofNat 8 (n % 128 + 128)).toNat = n % 128 + 128 := by
        rw [BitVec.toNat_ofNat]
        exact Nat.mod_eq_of_lt (by omega)
      rw [encode_of_le (Nat.not_lt.mp h), List.cons_append, decode, hb, if_neg (by omega), ih,
        Option.map_some]
      have hn : n % 128 + 128 - 128 + 128 * (n / 128) = n := by omega
      simp only [hn]

end OpenVoice.Lib.Varint
