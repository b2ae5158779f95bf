import Mathlib.Data.List.Basic

/-!
# Arrays that are written into

An array is the list of its elements, and a write at an offset is checked: one that does not
fit has no result.
-/

namespace OpenVoice.Lib.Memory

variable {α : Type*} {off : Nat} {data mem mem' : List α}

/-- `memcpy` to the offset; `none` is a write outside the array. -/
def store (off : Nat) (data mem : List α) : Option (List α) :=
  if off + data.length ≤ mem.length then
    some (mem.take off ++ data ++ mem.drop (off + data.length))
  else none

theorem store_of_le (h : off + data.length ≤ mem.length) :
    store off data mem = some (mem.take off ++ data ++ mem.drop (off + data.length)) := if_pos h

theorem store_eq_some (h : store off data mem = some mem') :
    off + data.length ≤ mem.length ∧
      mem' = mem.take off ++ data ++ mem.drop (off + data.length) := by
  unfold store at h
  split at h
  · rename_i hle
    exact ⟨hle, (Option.some.inj h).symm⟩
  · cases h

/-- A write that fits succeeds, and the array stays as long as it is. -/
theorem exists_store (h : off + data.length ≤ mem.length) :
    ∃ mem', store off data mem = some mem' ∧ mem'.length = mem.length := by
  refine ⟨_, store_of_le h, ?_⟩
  simp only [List.length_append, List.length_take, List.length_drop]
  omega

/-- What is in front of the data, and the data. -/
theorem take_store (h : store off data mem = some mem') :
    mem'.take (off + data.length) = mem.take off ++ data := by
  obtain ⟨hle, rfl⟩ := store_eq_some h
  apply List.take_left'
  rw [List.length_append, List.length_take]
  omega

/-- What is in front of the data is left alone. -/
theorem take_store_of_le {k : Nat} (h : store off data mem = some mem') (hk : k ≤ off) :
    mem'.take k = mem.take k := by
  have htake := congrArg (List.take k) (take_store h)
  obtain ⟨hle, -⟩ := store_eq_some h
  rw [List.take_take, Nat.min_eq_left (by omega)] at htake
  rw [htake, List.take_append_of_le_length (by rw [List.length_take]; omega), List.take_take,
    Nat.min_eq_left hk]

/-- Data that is written first, and then what belongs in front of it. -/
theorem take_store_store {data' mem₂ : List α}
    (h : store (off + data.length) data' mem = some mem') (h' : store off data mem' = some mem₂) :
    mem₂.take (off + data.length + data'.length) = mem.take off ++ data ++ data' := by
  have hbehind : (mem'.drop (off + data.length)).take data'.length = data' := by
    have htake := take_store h
    obtain ⟨hle, -⟩ := store_eq_some h
    have hlen : (mem.take (off + data.length)).length = off + data.length := by
      rw [List.length_take, Nat.min_eq_left (by omega)]
    rw [List.take_drop, htake]
    exact List.drop_left' hlen
  have hfront : mem'.take off = mem.take off := take_store_of_le h (Nat.le_add_right _ _)
  obtain ⟨hle, rfl⟩ := store_eq_some h'
  have hlen : (mem'.take off ++ data).length = off + data.length := by
    rw [List.length_append, List.length_take, Nat.min_eq_left (by omega)]
  rw [← hlen, List.take_length_add_append, hlen, hbehind, hfront]

end OpenVoice.Lib.Memory
