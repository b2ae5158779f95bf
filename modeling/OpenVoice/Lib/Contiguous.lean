import Mathlib.Data.List.Basic

/-!
# Lists in which equal values stand together

A log of events that carry a key is *contiguous* in the keys when, between two events with one
key, there is no event with another key.
-/

namespace OpenVoice.Lib

variable {κ : Type*}

/-- Between two equal values there are only equal values. -/
def Contiguous (l : List κ) : Prop :=
  ∀ (i j k : Nat) (a b : κ), i ≤ j → j ≤ k → l[i]? = some a → l[j]? = some b →
    l[k]? = some a → b = a

namespace Contiguous

theorem nil : Contiguous ([] : List κ) := by
  intro i j k a b _ _ hi
  simp at hi

/-- A value may be added at the end if it is the last one, or has not occurred. -/
theorem snoc {l : List κ} (h : Contiguous l) {a : κ} (ha : a ∉ l ∨ l.getLast? = some a) :
    Contiguous (l ++ [a]) := by
  intro i j k x y hij hjk hi hj hk
  have hlen : k < (l ++ [a]).length := (List.getElem?_eq_some_iff.mp hk).1
  rw [List.length_append, List.length_singleton] at hlen
  by_cases hkl : k < l.length
  · -- all three are old
    rw [List.getElem?_append_left (by omega)] at hi hj hk
    exact h i j k x y hij hjk hi hj hk
  · have hkeq : k = l.length := by omega
    subst hkeq
    rw [List.getElem?_append_right (Nat.le_refl _), Nat.sub_self] at hk
    obtain rfl : a = x := by simpa using hk
    by_cases hil : i < l.length
    · rw [List.getElem?_append_left hil] at hi
      rcases ha with hnew | hlast
      · exact absurd (List.mem_of_getElem? hi) hnew
      · rw [List.getLast?_eq_getElem?] at hlast
        by_cases hjl : j < l.length
        · rw [List.getElem?_append_left hjl] at hj
          exact h i j (l.length - 1) a y hij (by omega) hi hj hlast
        · have hjeq : j = l.length := by omega
          subst hjeq
          rw [List.getElem?_append_right (Nat.le_refl _), Nat.sub_self] at hj
          exact (by simpa using hj : a = y).symm
    · have hjeq : j = l.length := by omega
      subst hjeq
      rw [List.getElem?_append_right (Nat.le_refl _), Nat.sub_self] at hj
      exact (by simpa using hj : a = y).symm

end Contiguous

end OpenVoice.Lib
