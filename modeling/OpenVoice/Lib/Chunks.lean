import Mathlib.Data.List.Basic

/-!
# Cutting a stream into blocks

A stream that arrives in pieces of any size is worked on in blocks of a fixed size; what is left
over is kept for the next piece.  How the stream was cut into pieces does not matter
(`whole_append`, `rest_append`).
-/

namespace OpenVoice.Lib.Chunks

variable {α : Type*} {n : Nat} {l l' : List α}

/-- The first `k` blocks of `n`. -/
def blocks (n : Nat) : Nat → List α → List (List α)
  | 0, _ => []
  | k + 1, l => l.take n :: blocks n k (l.drop n)

/-- All blocks that are complete. -/
def whole (n : Nat) (l : List α) : List (List α) := blocks n (l.length / n) l

/-- What is left over. -/
def rest (n : Nat) (l : List α) : List α := l.drop (n * (l.length / n))

theorem whole_of_lt (h : l.length < n) : whole n l = [] := by
  rw [whole, Nat.div_eq_of_lt h]
  rfl

theorem rest_of_lt (h : l.length < n) : rest n l = l := by
  rw [rest, Nat.div_eq_of_lt h, Nat.mul_zero, List.drop_zero]

/-- The number of blocks, when there is one. -/
theorem length_div_of_le (hn : 0 < n) (h : n ≤ l.length) :
    l.length / n = (l.drop n).length / n + 1 := by
  rw [List.length_drop, Nat.div_eq_sub_div hn h]

theorem whole_of_le (hn : 0 < n) (h : n ≤ l.length) :
    whole n l = l.take n :: whole n (l.drop n) := by
  rw [whole, length_div_of_le hn h]
  rfl

theorem rest_of_le (hn : 0 < n) (h : n ≤ l.length) : rest n l = rest n (l.drop n) := by
  rw [rest, rest, List.drop_drop, length_div_of_le hn h, Nat.mul_add, Nat.mul_one, Nat.add_comm]

@[simp] theorem length_rest : (rest n l).length = l.length % n := by
  have h := Nat.div_add_mod l.length n
  rw [rest, List.length_drop]
  omega

/-- **The rule for streams**: what holds of a piece that is too short for a block, and of a
    stream if it holds of the stream without its first block, holds of every stream. -/
theorem stream_induction {motive : List α → Prop} (hn : 0 < n)
    (short : ∀ l, l.length < n → motive l)
    (block : ∀ l, n ≤ l.length → motive (l.drop n) → motive l) (l : List α) : motive l := by
  induction hlen : l.length using Nat.strongRecOn generalizing l with
  | ind m ih =>
      subst hlen
      by_cases h : l.length < n
      · exact short l h
      · have hle : n ≤ l.length := Nat.le_of_not_lt h
        apply block l hle
        apply ih _ _ _ rfl
        rw [List.length_drop]
        omega

@[simp] theorem length_whole : (whole n l).length = l.length / n := by
  have hblocks : ∀ (k : Nat) (l : List α), (blocks n k l).length = k := by
    intro k
    induction k with
    | zero => exact fun _ => rfl
    | succ k ih => exact fun l => congrArg (· + 1) (ih _)
  exact hblocks _ l

theorem whole_flatten_append_rest (hn : 0 < n) (l : List α) :
    (whole n l).flatten ++ rest n l = l := by
  induction l using stream_induction hn with
  | short l h => rw [whole_of_lt h, rest_of_lt h, List.flatten_nil, List.nil_append]
  | block l h ih =>
      rw [whole_of_le hn h, rest_of_le hn h, List.flatten_cons, List.append_assoc, ih,
        List.take_append_drop]

theorem length_of_mem_whole (hn : 0 < n) {b : List α} (hb : b ∈ whole n l) : b.length = n := by
  induction l using stream_induction hn with
  | short l h =>
      rw [whole_of_lt h] at hb
      cases hb
  | block l h ih =>
      rw [whole_of_le hn h] at hb
      rcases List.mem_cons.mp hb with rfl | hb
      · rw [List.length_take, Nat.min_eq_left h]
      · exact ih hb

/-- Blocks and a piece that is too short for one are the blocks and the rest. -/
theorem whole_flatten_append (hn : 0 < n) {bs : List (List α)} (hbs : ∀ b ∈ bs, b.length = n)
    {r : List α} (hr : r.length < n) : whole n (bs.flatten ++ r) = bs := by
  induction bs with
  | nil => rw [List.flatten_nil, List.nil_append, whole_of_lt hr]
  | cons b bs ih =>
      have hb : b.length = n := hbs b List.mem_cons_self
      have hle : n ≤ (b ++ (bs.flatten ++ r)).length := by
        rw [List.length_append]
        omega
      rw [List.flatten_cons, List.append_assoc, whole_of_le hn hle, List.take_left' hb,
        List.drop_left' hb, ih fun c hc => hbs c (List.mem_cons_of_mem _ hc)]

/-- **A further piece** starts with what was left over. -/
theorem whole_append (hn : 0 < n) (l l' : List α) :
    whole n (l ++ l') = whole n l ++ whole n (rest n l ++ l') := by
  induction l using stream_induction hn with
  | short l h => rw [whole_of_lt h, rest_of_lt h, List.nil_append]
  | block l h ih =>
      have h' : n ≤ (l ++ l').length := by
        rw [List.length_append]
        omega
      rw [whole_of_le hn h', whole_of_le hn h, rest_of_le hn h, List.take_append_of_le_length h,
        List.drop_append_of_le_length h, ih, List.cons_append]

theorem rest_append (hn : 0 < n) (l l' : List α) :
    rest n (l ++ l') = rest n (rest n l ++ l') := by
  induction l using stream_induction hn with
  | short l h => rw [rest_of_lt h]
  | block l h ih =>
      have h' : n ≤ (l ++ l').length := by
        rw [List.length_append]
        omega
      rw [rest_of_le hn h', rest_of_le hn h, List.drop_append_of_le_length h, ih]

end OpenVoice.Lib.Chunks
