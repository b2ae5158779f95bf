import Mathlib.Data.List.Basic

/-!
# Bytes as words of two bytes

The lower byte of a word stands first.  A last byte without another one belongs to no word.
-/

namespace OpenVoice.Lib.LittleEndian

def words : List (BitVec 8) → List (BitVec 16)
  | lo :: hi :: l => (hi ++ lo) :: words l
  | _ => []

def octets (ws : List (BitVec 16)) : List (BitVec 8) :=
  ws.flatMap fun w => [w.extractLsb' 0 8, w.extractLsb' 8 8]

/-- The last byte, if it belongs to no word. -/
def odd : List (BitVec 8) → List (BitVec 8)
  | _ :: _ :: l => odd l
  | l => l

variable {l l' : List (BitVec 8)}

@[simp] theorem octets_nil : octets [] = [] := rfl

@[simp] theorem octets_append (ws ws' : List (BitVec 16)) :
    octets (ws ++ ws') = octets ws ++ octets ws' := List.flatMap_append

theorem octets_cons (lo hi : BitVec 8) (ws : List (BitVec 16)) :
    octets ((hi ++ lo) :: ws) = lo :: hi :: octets ws := by
  have hlo : (hi ++ lo).extractLsb' 0 8 = lo := BitVec.extractLsb'_append_eq_right
  have hhi : (hi ++ lo).extractLsb' 8 8 = hi := BitVec.extractLsb'_append_eq_left
  rw [octets, List.flatMap_cons, hlo, hhi]
  rfl

@[simp] theorem length_octets (ws : List (BitVec 16)) : (octets ws).length = 2 * ws.length := by
  induction ws with
  | nil => rfl
  | cons w ws ih =>
      rw [octets, List.flatMap_cons, List.length_append, ← octets, ih, List.length_cons]
      simp only [List.length_cons, List.length_nil]
      omega

theorem octets_words (l : List (BitVec 8)) : octets (words l) ++ odd l = l := by
  induction l using words.induct with
  | case1 lo hi l ih => rw [words, odd, octets_cons, List.cons_append, List.cons_append, ih]
  | case2 l h =>
      match l, h with
      | [], _ => rfl
      | [_], _ => rfl
      | lo :: hi :: l, h => exact absurd rfl (h lo hi l)

theorem length_odd (l : List (BitVec 8)) : (odd l).length = l.length % 2 := by
  induction l using words.induct with
  | case1 lo hi l ih =>
      rw [odd, ih, List.length_cons, List.length_cons]
      omega
  | case2 l h =>
      match l, h with
      | [], _ => rfl
      | [_], _ => rfl
      | lo :: hi :: l, h => exact absurd rfl (h lo hi l)

/-- Behind whole words the words go on. -/
theorem words_append (h : l.length % 2 = 0) : words (l ++ l') = words l ++ words l' := by
  induction l using words.induct with
  | case1 lo hi l ih =>
      have heven : l.length % 2 = 0 := by
        rw [List.length_cons, List.length_cons] at h
        omega
      rw [words, List.cons_append, List.cons_append, words, ih heven, List.cons_append]
  | case2 l hl =>
      match l, hl with
      | [], _ => rfl
      | [_], _ => cases h
      | lo :: hi :: l, hl => exact absurd rfl (hl lo hi l)

theorem length_words (l : List (BitVec 8)) : (words l).length = l.length / 2 := by
  have h := congrArg List.length (octets_words l)
  rw [List.length_append, length_octets, length_odd] at h
  omega

end OpenVoice.Lib.LittleEndian
