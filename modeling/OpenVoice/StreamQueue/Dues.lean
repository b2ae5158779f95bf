import OpenVoice.StreamQueue.Delivery

/-!
# What is still to be served of a stream

The queue owes the consumer, for each stream, its start, the data that waits, and its end or its
error.  A pop serves the first of these pieces (`Fifo.pop_serves`); the calls of a producer add
to the end, and a removal with an error leaves the error alone.
-/

namespace OpenVoice

variable {T A : Type}

/-- What one pop serves of a stream. -/
inductive Piece (T : Type) where
  | start
  | data (d : Sp T)
  | end_ (content : Sp T)
  | error (err : BitVec 16)
deriving DecidableEq, Repr

namespace Piece

def type : Piece T → PopType
  | .start => .start
  | .data _ => .data
  | .end_ _ => .end_
  | .error _ => .error

/-- The out parameters of the pop. -/
def fill (id : Int) (out : PopArgs T) : Piece T → PopArgs T
  | .start => { out with id := id }
  | .data d => { out with id := id, res := d }
  | .end_ content => { out with id := id, res := if content.isSome then content else out.res }
  | .error err => { out with id := id, err := err.setWidth 32 }

/-- The stream goes away with it. -/
def isLast : Piece T → Bool
  | .end_ _ | .error _ => true
  | .start | .data _ => false

theorem type_ne_empty (p : Piece T) : p.type ≠ .empty := by cases p <;> simp [type]

@[simp] theorem fill_id (id : Int) (out : PopArgs T) (p : Piece T) : (p.fill id out).id = id := by
  cases p <;> rfl

end Piece

namespace Record

/-- The start, unless it has been served. -/
def opening (r : Record T A) : List (Piece T) := if r.polling then [] else [.start]

/-- What pops have still to serve; a removed stream is not served. -/
def dues (r : Record T A) : List (Piece T) :=
  match r.state with
  | .uncompleted => r.opening ++ r.pending.map .data
  | .completed => r.opening ++ r.pending.map .data ++ [.end_ r.content]
  | .deleted => []
  | .error err => [.error err]

section Dues

variable {r : Record T A}

theorem dues_uncompleted (h : r.state = .uncompleted) :
    r.dues = r.opening ++ r.pending.map .data := by
  simp [dues, h]

theorem dues_completed (h : r.state = .completed) :
    r.dues = r.opening ++ r.pending.map .data ++ [.end_ r.content] := by
  simp [dues, h]

theorem dues_push (h : r.state = .uncompleted) (d : Sp T) :
    (r.push d).dues = r.dues ++ [.data d] := by
  have hpush : (r.push d).state = .uncompleted := h
  have hopen : (r.push d).opening = r.opening := rfl
  rw [dues_uncompleted hpush, dues_uncompleted h, hopen]
  simp [push]

theorem dues_complete (h : r.state = .uncompleted) (d : Sp T) :
    (r.complete d).dues = r.dues ++ [.end_ (if d.isSome then d else r.content)] := by
  have hcomp : (r.complete d).state = .completed := rfl
  rw [dues_completed hcomp, dues_uncompleted h]
  rfl

theorem dues_erase {err : BitVec 32} (h : err ≠ 0) :
    (r.erase err).dues = [.error (err.setWidth 16)] := by
  have hst : (r.erase err).state = .error (err.setWidth 16) := if_pos h
  simp [dues, hst]

/-- A closed stream has not been served to the end. -/
theorem dues_ne_nil (h : r.state = .completed ∨ ∃ e, r.state = .error e) : r.dues ≠ [] := by
  rcases h with h | ⟨e, h⟩
  · simp [dues, h]
  · simp [dues, h]

/-- An error is served alone. -/
theorem dues_of_error {e : BitVec 16} (h : .error e ∈ r.dues) : r.dues = [.error e] := by
  have hopen : ¬ .error e ∈ r.opening ++ r.pending.map .data := by
    simp [opening]
  unfold dues at h ⊢
  split at h
  · exact absurd h hopen
  · rw [List.mem_append, List.mem_singleton] at h
    rcases h with h | h
    · exact absurd h hopen
    · cases h
  · cases h
  · rw [List.mem_singleton] at h
    rw [h]

end Dues

end Record

namespace Fifo

/-- What is still to be served of the stream `id`. -/
def dues (id : Int) (rs : List (Record T A)) : List (Piece T) :=
  ((find id rs).map Record.dues).getD []

/-! ### Pops -/

/-- **What a pop does** to a queue with the record `r` in front, when `r` has not been removed. -/
inductive Serves (out : PopArgs T) (r : Record T A) (rs : List (Record T A)) :
    PopType × PopArgs T × List (Record T A) → Prop where
  | wait (h : r.dues = []) : Serves out r rs (.empty, out, r :: rs)
  | next {p : Piece T} {r' : Record T A} (h : r.dues = p :: r'.dues) (hp : p.isLast = false)
      (hid : r'.id = r.id) : Serves out r rs (p.type, p.fill r.id out, r' :: rs)
  | last {p : Piece T} (h : r.dues = [p]) (hp : p.isLast = true) :
      Serves out r rs (p.type, p.fill r.id out, rs)

section Pops

variable {r : Record T A} {rs : List (Record T A)}

/-- A stream that has not been polled is served its start first. -/
theorem serves_start (out : PopArgs T) (hst : r.state = .uncompleted ∨ r.state = .completed)
    (hpoll : r.polling = false) : Serves out r rs (pop out (r :: rs)) := by
  rw [pop_start out hst hpoll]
  have hdues : r.dues = .start :: Record.dues { r with polling := true } := by
    rcases hst with hst | hst
    · simp [Record.dues, Record.opening, hst, hpoll]
    · simp [Record.dues, Record.opening, hst, hpoll]
  exact .next hdues rfl rfl

/-- The oldest data that waits is served next. -/
theorem serves_data (out : PopArgs T) (hst : r.state = .uncompleted ∨ r.state = .completed)
    (hpoll : r.polling = true) {d : Sp T} {ds : List (Sp T)} (hpend : r.pending = d :: ds) :
    Serves out r rs (pop out (r :: rs)) := by
  rw [pop_data out hst hpoll hpend]
  have hdues : r.dues = .data d :: Record.dues { r with pending := ds } := by
    rcases hst with hst | hst
    · simp [Record.dues, Record.opening, hst, hpoll, hpend]
    · simp [Record.dues, Record.opening, hst, hpoll, hpend]
  exact .next hdues rfl rfl

theorem pop_serves (out : PopArgs T) (hst : r.state ≠ .deleted) :
    Serves out r rs (pop out (r :: rs)) := by
  cases hstate : r.state with
  | deleted => exact absurd hstate hst
  | error err =>
      rw [pop_error out hstate]
      refine Serves.last (p := .error err) ?_ rfl
      simp [Record.dues, hstate]
  | uncompleted =>
      cases hpoll : r.polling with
      | false => exact serves_start out (.inl hstate) hpoll
      | true =>
          cases hpend : r.pending with
          | cons d ds => exact serves_data out (.inl hstate) hpoll hpend
          | nil =>
              rw [pop_wait out hstate hpoll hpend]
              refine Serves.wait ?_
              simp [Record.dues, Record.opening, hstate, hpoll, hpend]
  | completed =>
      cases hpoll : r.polling with
      | false => exact serves_start out (.inr hstate) hpoll
      | true =>
          cases hpend : r.pending with
          | cons d ds => exact serves_data out (.inr hstate) hpoll hpend
          | nil =>
              rw [pop_end out hstate hpoll hpend]
              refine Serves.last (p := .end_ r.content) ?_ rfl
              simp [Record.dues, Record.opening, hstate, hpoll, hpend]

end Pops

/-- A pop that returns nothing changes nothing. -/
theorem pop_of_empty {out : PopArgs T} {rs : List (Record T A)}
    (h : (pop out rs).1 = .empty) : (pop out rs).2 = (out, rs) := by
  cases rs with
  | nil => rfl
  | cons r rs =>
      cases hst : r.state <;> cases hpoll : r.polling <;> cases hpend : r.pending <;>
        simp_all [pop]

/-! ### The other calls -/

section Calls

variable {rs : List (Record T A)} {id : Int} {r : Record T A}

theorem dues_of_find (h : find id rs = some r) : dues id rs = r.dues := by
  rw [dues, h]
  rfl

theorem dues_of_notMem (h : id ∉ ids rs) : dues id rs = [] := by
  rw [dues, find_eq_none.mpr h]
  rfl

theorem dues_congr {rs' : List (Record T A)} (h : find id rs' = find id rs) :
    dues id rs' = dues id rs := by
  rw [dues, dues, h]

/-- The record of a stream that has just been started is the last one. -/
theorem find_start (h : id ∉ ids rs) : find id (start id rs).2 = some (.opened id) := by
  rw [start_of_notMem h, find, List.find?_append]
  have hnone : rs.find? (fun r => decide (r.id = id)) = none := find_eq_none.mpr h
  simp [hnone]

theorem find_stream (h : find id rs = some r) (hst : r.state = .uncompleted) (d : Sp T) :
    find id (stream id d rs).2 = some (r.push d) := by
  rw [stream_of_uncompleted d h hst]
  exact find_amend_self _ (Record.push_id d) h

theorem find_end (h : find id rs = some r) (d : Sp T) :
    find id (end_ id d rs).2 = some (r.complete d) := by
  obtain ⟨hmem, rfl⟩ := mem_of_find h
  rw [end_of_mem d (mem_ids_of_mem hmem)]
  exact find_amend_self _ (Record.complete_id d) h

theorem find_erase (h : find id rs = some r) (err : BitVec 32) :
    find id (erase id err rs).2 = some (r.erase err) := by
  obtain ⟨hmem, rfl⟩ := mem_of_find h
  rw [erase_of_mem err (mem_ids_of_mem hmem)]
  exact find_amend_self _ (Record.erase_id err) h

end Calls

end Fifo

end OpenVoice
