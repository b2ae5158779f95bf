import Mathlib.Data.List.DropRight

/-!
# Bounded queues that drop the oldest

A queue of at most `n` elements takes every element that is added, and forgets its oldest one if
it has too many.
-/

namespace OpenVoice.Lib.DropOldest

variable {α : Type*} {n : Nat} {q : List α} {a : α}

/-- The newest `n`. -/
def push (n : Nat) (q : List α) (a : α) : List α := (q ++ [a]).rtake n

theorem length_push_le (n : Nat) (q : List α) (a : α) : (push n q a).length ≤ n := by
  rw [push, List.rtake, List.length_drop]
  omega

/-- Nothing is forgotten as long as there is room. -/
theorem push_of_lt (h : q.length < n) : push n q a = q ++ [a] := by
  have hzero : (q ++ [a]).length - n = 0 := by
    rw [List.length_append, List.length_singleton]
    omega
  rw [push, List.rtake, hzero, List.drop_zero]

/-- If there is none, it is the oldest that goes. -/
theorem push_of_length_eq (h : q.length = n) : push n q a = (q ++ [a]).tail := by
  have hone : (q ++ [a]).length - n = 1 := by
    rw [List.length_append, List.length_singleton]
    omega
  rw [push, List.rtake, hone, List.drop_one]

theorem push_sublist (n : Nat) (q : List α) (a : α) : (push n q a).Sublist (q ++ [a]) :=
  List.drop_sublist _ _

/-- A call, and what it returns. -/
inductive Call (α : Type*) where
  | add (a : α)
  | take (a : α)

/-- What is added, in order. -/
def adds (calls : List (Call α)) : List α :=
  calls.filterMap fun | .add a => some a | .take _ => none

/-- What is taken, in order. -/
def takes (calls : List (Call α)) : List α :=
  calls.filterMap fun | .add _ => none | .take a => some a

@[simp] theorem adds_append (calls calls' : List (Call α)) :
    adds (calls ++ calls') = adds calls ++ adds calls' := List.filterMap_append

@[simp] theorem takes_append (calls calls' : List (Call α)) :
    takes (calls ++ calls') = takes calls ++ takes calls' := List.filterMap_append

/-- The calls of a queue that is empty at the start, and what is in it at the end. -/
inductive Accepts (n : Nat) : List (Call α) → List α → Prop where
  | nil : Accepts n [] []
  | add {calls : List (Call α)} {q : List α} (h : Accepts n calls q) (a : α) :
      Accepts n (calls ++ [.add a]) (push n q a)
  | take {calls : List (Call α)} {q : List α} {a : α} (h : Accepts n calls (a :: q)) :
      Accepts n (calls ++ [.take a]) q

variable {calls : List (Call α)}

theorem Accepts.length_le (h : Accepts n calls q) : q.length ≤ n := by
  induction h with
  | nil => exact Nat.zero_le n
  | add h a ih => exact length_push_le n _ a
  | take h ih => exact Nat.le_of_succ_le ih

/-- What is taken stands among what is added, in the same order, and so does what is left. -/
theorem Accepts.sublist (h : Accepts n calls q) : (takes calls ++ q).Sublist (adds calls) := by
  induction h with
  | nil => exact List.Sublist.refl _
  | @add calls q h a ih =>
      have hpush : (takes calls ++ push n q a).Sublist (takes calls ++ (q ++ [a])) :=
        (push_sublist n q a).append_left _
      rw [← List.append_assoc] at hpush
      rw [adds_append, takes_append]
      simpa [adds, takes] using hpush.trans (ih.append_right [a])
  | @take calls q a h ih =>
      rw [adds_append, takes_append]
      simpa [adds, takes] using ih

/-- Nothing is lost before the queue has been full. -/
theorem Accepts.eq_of_le (h : Accepts n calls q) (hn : (adds calls).length ≤ n) :
    takes calls ++ q = adds calls := by
  induction h with
  | nil => rfl
  | @add calls q h a ih =>
      have hlength : (adds calls).length + 1 ≤ n := by simpa [adds] using hn
      have heq := ih (by omega)
      have hroom : q.length < n := by
        have hle := congrArg List.length heq
        rw [List.length_append] at hle
        omega
      rw [push_of_lt hroom, adds_append, takes_append, ← heq]
      simp [adds, takes]
  | @take calls q a h ih =>
      have heq := ih (by simpa [adds] using hn)
      rw [adds_append, takes_append, ← List.append_nil (adds calls), ← heq]
      simp [adds, takes]

end OpenVoice.Lib.DropOldest
