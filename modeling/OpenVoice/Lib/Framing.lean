import Mathlib.Algebra.Group.Nat.Defs
import Mathlib.Data.List.Basic

/-!
# Packets with a length in front

A sequence of packets as one list of words: in front of each packet stands one word, its length.
The word holds the length modulo `2 ^ w`, so that the packets can be told apart again exactly if
each of them is shorter than that (`unframe_framed_iff`).
-/

namespace OpenVoice.Lib.Framing

variable {w : Nat}

/-- A packet with its length. -/
def frame (p : List (BitVec w)) : List (BitVec w) := BitVec.ofNat w p.length :: p

def framed (ps : List (List (BitVec w))) : List (BitVec w) := ps.flatMap frame

/-- Read a length and that many words, again and again; the first argument bounds the number of
    packets.  `none` means that there are fewer words than the length says. -/
def parse : Nat → List (BitVec w) → Option (List (List (BitVec w)))
  | _, [] => some []
  | 0, _ :: _ => none
  | k + 1, n :: l =>
      if n.toNat ≤ l.length then (parse k (l.drop n.toNat)).map (l.take n.toNat :: ·) else none

def unframe (l : List (BitVec w)) : Option (List (List (BitVec w))) := parse l.length l

@[simp] theorem framed_nil : framed ([] : List (List (BitVec w))) = [] := rfl

@[simp] theorem framed_cons (p : List (BitVec w)) (ps : List (List (BitVec w))) :
    framed (p :: ps) = frame p ++ framed ps := rfl

@[simp] theorem framed_append (ps ps' : List (List (BitVec w))) :
    framed (ps ++ ps') = framed ps ++ framed ps' := List.flatMap_append

@[simp] theorem length_frame (p : List (BitVec w)) : (frame p).length = p.length + 1 := rfl

/-- A packet in front is read back as what its length word says. -/
theorem parse_framed_cons {k : Nat} (p : List (BitVec w)) (ps : List (List (BitVec w))) :
    parse (k + 1) (framed (p :: ps)) =
      (parse k ((p ++ framed ps).drop (p.length % 2 ^ w))).map
        ((p ++ framed ps).take (p.length % 2 ^ w) :: ·) := by
  have hle : p.length % 2 ^ w ≤ (p ++ framed ps).length := by
    rw [List.length_append]
    exact Nat.le_trans (Nat.mod_le _ _) (Nat.le_add_right _ _)
  rw [framed_cons, frame, List.cons_append, parse, BitVec.toNat_ofNat, if_pos hle]

theorem parse_framed {ps : List (List (BitVec w))} (h : ∀ p ∈ ps, p.length < 2 ^ w) {k : Nat}
    (hk : ps.length ≤ k) : parse k (framed ps) = some ps := by
  induction ps generalizing k with
  | nil =>
      unfold parse
      rfl
  | cons p ps ih =>
      obtain ⟨k, rfl⟩ : ∃ j, k = j + 1 := ⟨k - 1, by rw [List.length_cons] at hk; omega⟩
      have hp : p.length < 2 ^ w := h p List.mem_cons_self
      have hps : ∀ q ∈ ps, q.length < 2 ^ w := fun q hq => h q (List.mem_cons_of_mem _ hq)
      rw [parse_framed_cons, Nat.mod_eq_of_lt hp, List.drop_left, List.take_left,
        ih hps (by rw [List.length_cons] at hk; omega), Option.map_some]

/-- The first packet that is read has the length its word says. -/
theorem lt_of_parse_framed {ps : List (List (BitVec w))} {k : Nat}
    (h : parse k (framed ps) = some ps) : ∀ p ∈ ps, p.length < 2 ^ w := by
  induction ps generalizing k with
  | nil => simp
  | cons p ps ih =>
      cases k with
      | zero => simp [parse, frame] at h
      | succ k =>
          rw [parse_framed_cons, Option.map_eq_some_iff] at h
          obtain ⟨qs, hqs, heq⟩ := h
          rw [List.cons.injEq] at heq
          obtain ⟨hhead, rfl⟩ := heq
          have hlen : p.length % 2 ^ w = p.length := by
            have hlen := congrArg List.length hhead
            have hle := Nat.mod_le p.length (2 ^ w)
            rw [List.length_take, List.length_append, Nat.min_eq_left (by omega)] at hlen
            exact hlen
          have hp : p.length < 2 ^ w := by
            rw [← hlen]
            exact Nat.mod_lt _ (Nat.two_pow_pos w)
          rw [hlen, List.drop_left] at hqs
          intro q hq
          rcases List.mem_cons.mp hq with rfl | hq
          · exact hp
          · exact ih hqs q hq

theorem length_le_length_framed (ps : List (List (BitVec w))) :
    ps.length ≤ (framed ps).length := by
  induction ps with
  | nil => exact Nat.le_refl _
  | cons p ps ih =>
      rw [framed_cons, List.length_append, length_frame, List.length_cons]
      omega

/-- **The packets are read back** exactly if each length fits in its word. -/
theorem unframe_framed_iff {ps : List (List (BitVec w))} :
    unframe (framed ps) = some ps ↔ ∀ p ∈ ps, p.length < 2 ^ w :=
  ⟨lt_of_parse_framed, fun h => parse_framed h (length_le_length_framed ps)⟩

end OpenVoice.Lib.Framing
