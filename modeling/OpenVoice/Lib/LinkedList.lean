import Mathlib.Data.List.Nodup
import Mathlib.Data.List.TakeWhile

/-!
# Linked lists with stable positions

A doubly linked list whose iterators stay valid while the nodes they point at are in the list
(`std::list`).  A node carries its *position*: the identity an iterator holds.  An operation
given an iterator finds the node by position, so every lemma below asks for distinct positions
and describes the operation on a list split at the node: `l = pre ++ n :: post`.
-/

namespace OpenVoice.Lib

/-- A list node: `pos` is what an iterator to it holds. -/
structure Node (α : Type) where
  pos : Nat
  val : α
deriving DecidableEq, Repr

namespace LinkedList

variable {α : Type}

/-- Positions, in list order. -/
def positions (l : List (Node α)) : List Nat := l.map (·.pos)

/-- Dereference an iterator; `none` when no node of the list has this position. -/
def deref (p : Nat) (l : List (Node α)) : Option α :=
  (l.find? fun n => n.pos = p).map (·.val)

/-- Write through an iterator. -/
def modify (p : Nat) (f : α → α) (l : List (Node α)) : List (Node α) :=
  l.map fun n => if n.pos = p then { n with val := f n.val } else n

/-- `insert(it, x)`: the new node goes in front of the one at `p`. -/
def insertBefore (p : Nat) (new : Node α) : List (Node α) → List (Node α)
  | [] => []
  | n :: rest => if n.pos = p then new :: n :: rest else n :: insertBefore p new rest

/-- The nodes in front of position `p`. -/
def before (p : Nat) (l : List (Node α)) : List (Node α) := l.takeWhile fun n => n.pos ≠ p

/-- The node at position `p` and those behind it. -/
def onward (p : Nat) (l : List (Node α)) : List (Node α) := l.dropWhile fun n => n.pos ≠ p

/-- `erase(first, last)` where `first` is `c` nodes in front of `last`, which is at `p`. -/
def eraseBack (p c : Nat) (l : List (Node α)) : List (Node α) :=
  (before p l).take ((before p l).length - c) ++ onward p l

@[simp] theorem positions_nil : positions ([] : List (Node α)) = [] := rfl

@[simp] theorem positions_cons (n : Node α) (l : List (Node α)) :
    positions (n :: l) = n.pos :: positions l := rfl

@[simp] theorem positions_append (l l' : List (Node α)) :
    positions (l ++ l') = positions l ++ positions l' := List.map_append

theorem mem_positions {p : Nat} {l : List (Node α)} :
    p ∈ positions l ↔ ∃ n ∈ l, n.pos = p := by simp [positions]

section Split

variable {pre post : List (Node α)} {n : Node α}

/-- Distinct positions: nothing in front of a node shares its position. -/
theorem pos_ne_of_mem_pre (hnd : (positions (pre ++ n :: post)).Nodup) :
    ∀ m ∈ pre, m.pos ≠ n.pos := by
  intro m hm heq
  rw [positions_append] at hnd
  have hdisj := (List.nodup_append'.mp hnd).2.2
  exact hdisj (mem_positions.mpr ⟨m, hm, heq⟩) (by simp)

/-- ... and nothing behind it does. -/
theorem pos_ne_of_mem_post (hnd : (positions (pre ++ n :: post)).Nodup) :
    ∀ m ∈ post, m.pos ≠ n.pos := by
  intro m hm heq
  rw [positions_append] at hnd
  have hcons := (List.nodup_append'.mp hnd).2.1
  rw [positions_cons, List.nodup_cons] at hcons
  exact hcons.1 (mem_positions.mpr ⟨m, hm, heq⟩)

theorem deref_split (hnd : (positions (pre ++ n :: post)).Nodup) :
    deref n.pos (pre ++ n :: post) = some n.val := by
  have hpre : pre.find? (fun m => decide (m.pos = n.pos)) = none := by
    rw [List.find?_eq_none]
    intro m hm
    simpa using pos_ne_of_mem_pre hnd m hm
  simp [deref, List.find?_append, hpre]

theorem modify_of_forall_ne {p : Nat} {l : List (Node α)} (f : α → α)
    (h : ∀ m ∈ l, m.pos ≠ p) : modify p f l = l := by
  unfold modify
  conv_rhs => rw [← List.map_id l]
  apply List.map_congr_left
  intro m hm
  simp [h m hm]

theorem modify_split (f : α → α) (hnd : (positions (pre ++ n :: post)).Nodup) :
    modify n.pos f (pre ++ n :: post) = pre ++ { n with val := f n.val } :: post := by
  have hpre := modify_of_forall_ne f (pos_ne_of_mem_pre hnd)
  have hpost := modify_of_forall_ne f (pos_ne_of_mem_post hnd)
  unfold modify at hpre hpost ⊢
  rw [List.map_append, List.map_cons, hpre, hpost, if_pos rfl]

theorem insertBefore_split (new : Node α) (hnd : (positions (pre ++ n :: post)).Nodup) :
    insertBefore n.pos new (pre ++ n :: post) = pre ++ new :: n :: post := by
  have hne := pos_ne_of_mem_pre hnd
  clear hnd
  induction pre with
  | nil => simp [insertBefore]
  | cons m pre ih =>
      have hm : m.pos ≠ n.pos := hne m (by simp)
      have hrest := ih fun k hk => hne k (by simp [hk])
      simp only [List.cons_append, insertBefore, if_neg hm, hrest]

theorem before_split (hnd : (positions (pre ++ n :: post)).Nodup) :
    before n.pos (pre ++ n :: post) = pre := by
  unfold before
  rw [List.takeWhile_append_of_pos]
  · simp
  · intro m hm
    simpa using pos_ne_of_mem_pre hnd m hm

theorem onward_split (hnd : (positions (pre ++ n :: post)).Nodup) :
    onward n.pos (pre ++ n :: post) = n :: post := by
  unfold onward
  rw [List.dropWhile_append_of_pos]
  · simp
  · intro m hm
    simpa using pos_ne_of_mem_pre hnd m hm

/-- Erasing as many nodes as a block holds, right in front of `n`, takes out that block. -/
theorem eraseBack_split {far near : List (Node α)}
    (hnd : (positions ((far ++ near) ++ n :: post)).Nodup) :
    eraseBack n.pos near.length ((far ++ near) ++ n :: post) = far ++ n :: post := by
  unfold eraseBack
  rw [before_split hnd, onward_split hnd]
  simp

end Split

end LinkedList

end OpenVoice.Lib
