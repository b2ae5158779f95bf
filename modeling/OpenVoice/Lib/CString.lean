import Mathlib.Algebra.Group.Nat.Defs
import Mathlib.Data.List.TakeDrop

/-!
# Texts in `char` arrays

A string is the list of its bytes; a C string ends at its first NUL.
-/

namespace OpenVoice.Lib

/-- The bytes of a literal. -/
def ascii (s : String) : List (BitVec 8) := s.toList.map fun c => .ofNat 8 c.toNat

/-- `%u`, `%lu`. -/
def decimal (n : Nat) : List (BitVec 8) :=
  (Nat.toDigits 10 n).map fun c => .ofNat 8 c.toNat

/-- `%02X` of a byte. -/
def hex (b : BitVec 8) : List (BitVec 8) :=
  [b.toNat / 16, b.toNat % 16].map fun d => .ofNat 8 (if d < 10 then 48 + d else 55 + d)

/-- What is found at `c_str()`. -/
def cStr (s : List (BitVec 8)) : List (BitVec 8) := s.takeWhile (· ≠ 0)

/-- `snprintf(buf, size, ..)` of a text without NUL, read back from `buf`. -/
def snprintf (size : Nat) (text : List (BitVec 8)) : List (BitVec 8) := text.take (size - 1)

theorem cStr_eq_self {s : List (BitVec 8)} (h : 0 ∉ s) : cStr s = s := by
  induction s with
  | nil => rfl
  | cons b s ih =>
      have hb : b ≠ 0 := fun hb => h (hb ▸ List.mem_cons_self)
      have hs := ih fun hs => h (List.mem_cons_of_mem _ hs)
      rw [cStr, List.takeWhile_cons_of_pos (by simpa using hb)]
      exact congrArg (b :: ·) hs

theorem length_decimal_le {n k : Nat} (hk : 0 < k) (h : n < 10 ^ k) : (decimal n).length ≤ k := by
  rw [decimal, List.length_map]
  exact (Nat.length_toDigits_le_iff (by decide) hk).mpr h

variable (size : Nat)

theorem length_snprintf_le (text : List (BitVec 8)) :
    (snprintf size text).length ≤ text.length := by
  rw [snprintf, List.length_take]
  exact Nat.min_le_right _ _

theorem snprintf_eq_self_iff (text : List (BitVec 8)) :
    snprintf size text = text ↔ text.length ≤ size - 1 := List.take_eq_self_iff text

theorem length_snprintf_eq_iff (text : List (BitVec 8)) :
    (snprintf size text).length = text.length ↔ text.length ≤ size - 1 := by
  rw [snprintf, List.length_take]
  omega

/-- All of the pieces as they went through a buffer. -/
def snprintfAll (texts : List (List (BitVec 8))) : List (BitVec 8) :=
  (texts.map (snprintf size)).flatten

theorem length_snprintfAll_le (texts : List (List (BitVec 8))) :
    (snprintfAll size texts).length ≤ texts.flatten.length := by
  induction texts with
  | nil => exact Nat.le_refl _
  | cons text texts ih =>
      have htext := length_snprintf_le size text
      simp only [snprintfAll, List.map_cons, List.flatten_cons, List.length_append] at ih ⊢
      omega

/-- No piece makes up for what another one lacks: the lengths would differ. -/
theorem snprintfAll_eq_iff (texts : List (List (BitVec 8))) :
    snprintfAll size texts = texts.flatten ↔ ∀ text ∈ texts, text.length ≤ size - 1 := by
  constructor
  · intro h
    have hlength := congrArg List.length h
    clear h
    induction texts with
    | nil => simp
    | cons text texts ih =>
        have hle := length_snprintfAll_le size texts
        have htext := length_snprintf_le size text
        have happend : (snprintf size text).length + (snprintfAll size texts).length
            = text.length + texts.flatten.length := by
          rw [← List.length_append, ← List.length_append]
          exact hlength
        rw [List.forall_mem_cons]
        exact ⟨(length_snprintf_eq_iff size text).mp (by omega), ih (by omega)⟩
  · intro h
    have hid : texts.map (snprintf size) = texts.map id :=
      List.map_congr_left fun text ht => (snprintf_eq_self_iff size text).mpr (h text ht)
    rw [snprintfAll, hid, List.map_id]

end OpenVoice.Lib
