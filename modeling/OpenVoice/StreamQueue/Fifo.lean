import Mathlib.Data.List.Basic
import Mathlib.Data.List.Nodup

/-!
# A FIFO of streams

What a stream queue is for, without its iterators: a list of records, one for each stream, in
the order the streams were started.  Producers work on the record of their own id; the consumer
is served from the head record only.

`StreamQueue` refines this model (`StreamQueue.Refinement`); the request and response sides of
the client are reasoned about at this level.
-/

namespace OpenVoice

/-- A `shared_ptr` that owns its target; `none` is the null pointer. -/
abbrev Sp (α : Type) := Option α

/-- Enumerators of `StreamQueue::PopType`. -/
inductive PopType where
  | empty | data | start | end_ | removed | error
deriving DecidableEq, Repr

/-- The value of the enumerator. -/
def PopType.toInt : PopType → Int
  | .empty => -1
  | .data => 0
  | .start => 1
  | .end_ => 2
  | .removed => 3
  | .error => 4

/-- The in-out parameters `id`, `res`, `err` of `pop`. -/
structure PopArgs (T : Type) where
  id : Int
  res : Sp T
  err : BitVec 32
deriving DecidableEq, Repr

/-- State of a stream.  An error code has the sixteen bits its field has. -/
inductive StreamState where
  | uncompleted
  | completed
  | deleted
  | error (err : BitVec 16)
deriving DecidableEq, Repr

/-- One stream: `pending` is the data accepted and not served yet, `polling` says that the
    start of the stream has been served. -/
structure Record (T A : Type) where
  id : Int
  state : StreamState
  polling : Bool
  pending : List (Sp T)
  content : Sp T
  arg : Sp A
deriving DecidableEq, Repr

namespace Record

variable {T A : Type}

/-- A stream that has just been started. -/
def opened (id : Int) : Record T A :=
  { id, state := .uncompleted, polling := false, pending := [], content := none, arg := none }

def push (d : Sp T) (r : Record T A) : Record T A := { r with pending := r.pending ++ [d] }

/-- `end`: whatever the state was, the stream is completed now. -/
def complete (d : Sp T) (r : Record T A) : Record T A :=
  { r with state := .completed, content := if d.isSome then d else r.content }

/-- The state `erase(id, err)` leaves behind. -/
def erasedState (err : BitVec 32) : StreamState :=
  if err ≠ 0 then .error (err.setWidth 16) else .deleted

def erase (err : BitVec 32) (r : Record T A) : Record T A :=
  { r with state := erasedState err, pending := [], content := none }

@[simp] theorem opened_id (id : Int) : (opened id : Record T A).id = id := rfl
@[simp] theorem push_id (d : Sp T) (r : Record T A) : (r.push d).id = r.id := rfl
@[simp] theorem complete_id (d : Sp T) (r : Record T A) : (r.complete d).id = r.id := rfl
@[simp] theorem erase_id (err : BitVec 32) (r : Record T A) : (r.erase err).id = r.id := rfl

@[simp] theorem push_polling (d : Sp T) (r : Record T A) :
    (r.push d).polling = r.polling := rfl
@[simp] theorem complete_polling (d : Sp T) (r : Record T A) :
    (r.complete d).polling = r.polling := rfl
@[simp] theorem erase_polling (err : BitVec 32) (r : Record T A) :
    (r.erase err).polling = r.polling := rfl

end Record

namespace Fifo

variable {T A : Type}

def ids (rs : List (Record T A)) : List Int := rs.map (·.id)

/-- The record of a stream. -/
def find (id : Int) (rs : List (Record T A)) : Option (Record T A) :=
  rs.find? fun r => r.id = id

/-- Change the record of one stream. -/
def amend (id : Int) (f : Record T A → Record T A) (rs : List (Record T A)) :
    List (Record T A) :=
  rs.map fun r => if r.id = id then f r else r

/-! ### The operations -/

def start (id : Int) (rs : List (Record T A)) : Bool × List (Record T A) :=
  if id ∈ ids rs then (false, rs) else (true, rs ++ [.opened id])

def stream (id : Int) (d : Sp T) (rs : List (Record T A)) : Bool × List (Record T A) :=
  match find id rs with
  | none => (false, rs)
  | some r =>
      if r.state = .uncompleted then (true, amend id (Record.push d) rs) else (false, rs)

def end_ (id : Int) (d : Sp T) (rs : List (Record T A)) : Bool × List (Record T A) :=
  if id ∈ ids rs then (true, amend id (Record.complete d) rs) else (false, rs)

def setArg (id : Int) (arg : Sp A) (rs : List (Record T A)) : List (Record T A) :=
  amend id (fun r => { r with arg := arg }) rs

def getArg (id : Int) (rs : List (Record T A)) : Sp A := (find id rs).bind (·.arg)

def erase (id : Int) (err : BitVec 32) (rs : List (Record T A)) :
    Bool × List (Record T A) :=
  if id ∈ ids rs then (true, amend id (Record.erase err) rs) else (false, rs)

/-- The ids of the oldest and the newest stream (`0` when there is none), and the queue with
    every stream deleted. -/
def clear (rs : List (Record T A)) : (Int × Int) × List (Record T A) :=
  ((((ids rs).head?).getD 0, ((ids rs).getLast?).getD 0), rs.map (Record.erase 0))

def available : List (Record T A) → Bool
  | [] => false
  | r :: _ =>
      if r.state = .uncompleted ∧ r.polling = true then !r.pending.isEmpty else true

def pop (out : PopArgs T) : List (Record T A) → PopType × PopArgs T × List (Record T A)
  | [] => (.empty, out, [])
  | r :: rs =>
      match r.state with
      | .deleted => (.removed, { out with id := r.id }, rs)
      | .error e => (.error, { out with id := r.id, err := e.setWidth 32 }, rs)
      | .uncompleted =>
          if r.polling = false then
            (.start, { out with id := r.id }, { r with polling := true } :: rs)
          else
            match r.pending with
            | [] => (.empty, out, r :: rs)
            | d :: ds =>
                (.data, { out with id := r.id, res := d }, { r with pending := ds } :: rs)
      | .completed =>
          if r.polling = false then
            (.start, { out with id := r.id }, { r with polling := true } :: rs)
          else
            match r.pending with
            | [] =>
                (.end_, { out with
                  id := r.id, res := if r.content.isSome then r.content else out.res }, rs)
            | d :: ds =>
                (.data, { out with id := r.id, res := d }, { r with pending := ds } :: rs)

/-! ### Ids and lookups -/

section Lemmas

variable {rs : List (Record T A)} {id : Int}

@[simp] theorem ids_nil : ids ([] : List (Record T A)) = [] := rfl

@[simp] theorem ids_cons (r : Record T A) : ids (r :: rs) = r.id :: ids rs := rfl

@[simp] theorem ids_append (rs' : List (Record T A)) : ids (rs ++ rs') = ids rs ++ ids rs' :=
  List.map_append

theorem mem_ids : id ∈ ids rs ↔ ∃ r ∈ rs, r.id = id := by simp [ids]

theorem mem_ids_of_mem {r : Record T A} (h : r ∈ rs) : r.id ∈ ids rs :=
  mem_ids.mpr ⟨r, h, rfl⟩

theorem ids_amend (f : Record T A → Record T A) (hf : ∀ r, (f r).id = r.id) :
    ids (amend id f rs) = ids rs := by
  simp only [ids, amend, List.map_map]
  apply List.map_congr_left
  intro r _
  by_cases h : r.id = id <;> simp [h, hf]

theorem amend_of_notMem (f : Record T A → Record T A) (h : id ∉ ids rs) :
    amend id f rs = rs := by
  unfold amend
  conv_rhs => rw [← List.map_id rs]
  apply List.map_congr_left
  intro r hr
  have hne : r.id ≠ id := fun heq => h (heq ▸ mem_ids_of_mem hr)
  simp [hne]

/-- `amend` on a queue split at the stream: the other records stay as they are. -/
theorem amend_split {l l' : List (Record T A)} {r : Record T A} (f : Record T A → Record T A)
    (hnd : (ids (l ++ r :: l')).Nodup) :
    amend r.id f (l ++ r :: l') = l ++ f r :: l' := by
  rw [ids_append, ids_cons] at hnd
  obtain ⟨_, hcons, hdisj⟩ := List.nodup_append'.mp hnd
  have hl : amend r.id f l = l := amend_of_notMem f fun h => hdisj h (by simp)
  have hl' : amend r.id f l' = l' := amend_of_notMem f (List.nodup_cons.mp hcons).1
  unfold amend at hl hl' ⊢
  rw [List.map_append, List.map_cons, hl, hl', if_pos rfl]

theorem find_eq_none : find id rs = none ↔ id ∉ ids rs := by
  simp [find, List.find?_eq_none, mem_ids]

theorem find_split {l l' : List (Record T A)} {r : Record T A}
    (hnd : (ids (l ++ r :: l')).Nodup) : find r.id (l ++ r :: l') = some r := by
  rw [ids_append, ids_cons] at hnd
  have hdisj := (List.nodup_append'.mp hnd).2.2
  have hl : find r.id l = none := find_eq_none.mpr fun h => hdisj h (by simp)
  unfold find at hl ⊢
  rw [List.find?_append, hl]
  simp

theorem mem_of_find {r : Record T A} (h : find id rs = some r) : r ∈ rs ∧ r.id = id :=
  ⟨List.mem_of_find?_eq_some h, by simpa using List.find?_some h⟩

theorem find_of_mem {r : Record T A} (hnd : (ids rs).Nodup) (h : r ∈ rs) :
    find r.id rs = some r := by
  obtain ⟨l, l', rfl⟩ := List.append_of_mem h
  exact find_split hnd

/-- Two records of one id are one record. -/
theorem eq_of_mem_of_id {r r' : Record T A} (hnd : (ids rs).Nodup) (h : r ∈ rs) (h' : r' ∈ rs)
    (hid : r.id = r'.id) : r = r' := List.inj_on_of_nodup_map hnd h h' hid

/-- An operation on one id leaves the record of every other id unchanged. -/
theorem find_amend_of_ne {id' : Int} (f : Record T A → Record T A) (hf : ∀ r, (f r).id = r.id)
    (hne : id' ≠ id) : find id' (amend id f rs) = find id' rs := by
  induction rs with
  | nil => rfl
  | cons r rs ih =>
      unfold find amend at ih ⊢
      simp only [List.map_cons, List.find?_cons]
      by_cases h : r.id = id
      · have h' : r.id ≠ id' := fun heq => hne (heq ▸ h)
        simp only [if_pos h, hf, h', decide_false, ih]
      · by_cases h' : r.id = id'
        · simp [h', hne]
        · simp only [if_neg h, h', decide_false, ih]

/-- The record the operation is about is the one that changes. -/
theorem find_amend_self {r : Record T A} (f : Record T A → Record T A)
    (hf : ∀ r, (f r).id = r.id) (h : find id rs = some r) :
    find id (amend id f rs) = some (f r) := by
  induction rs with
  | nil => cases h
  | cons r₀ rs ih =>
      unfold find at h ih ⊢
      unfold amend at ih ⊢
      rw [List.map_cons, List.find?_cons]
      rw [List.find?_cons] at h
      by_cases hid : r₀.id = id
      · simp only [hid, decide_true, Option.some.injEq] at h
        subst h
        have hid' : (f r₀).id = id := (hf r₀).trans hid
        rw [if_pos hid]
        simp only [hid', decide_true]
      · simp only [hid, decide_false] at h
        rw [if_neg hid]
        simp only [hid, decide_false]
        exact ih h

/-! ### What the operations do -/

theorem start_of_notMem (h : id ∉ ids rs) : start id rs = (true, rs ++ [.opened id]) :=
  if_neg h

theorem start_of_mem (h : id ∈ ids rs) : start id rs = (false, rs) := if_pos h

theorem stream_of_notMem (d : Sp T) (h : id ∉ ids rs) : stream id d rs = (false, rs) := by
  simp [stream, find_eq_none.mpr h]

theorem stream_of_uncompleted {r : Record T A} (d : Sp T) (h : find id rs = some r)
    (hst : r.state = .uncompleted) : stream id d rs = (true, amend id (Record.push d) rs) := by
  simp [stream, h, hst]

theorem stream_of_closed {r : Record T A} (d : Sp T) (h : find id rs = some r)
    (hst : r.state ≠ .uncompleted) : stream id d rs = (false, rs) := by
  simp [stream, h, hst]

theorem end_of_notMem (d : Sp T) (h : id ∉ ids rs) : end_ id d rs = (false, rs) := if_neg h

theorem end_of_mem (d : Sp T) (h : id ∈ ids rs) :
    end_ id d rs = (true, amend id (Record.complete d) rs) := if_pos h

theorem erase_of_notMem (err : BitVec 32) (h : id ∉ ids rs) : erase id err rs = (false, rs) :=
  if_neg h

theorem erase_of_mem (err : BitVec 32) (h : id ∈ ids rs) :
    erase id err rs = (true, amend id (Record.erase err) rs) := if_pos h

theorem ids_start_nodup (id : Int) (hnd : (ids rs).Nodup) : (ids (start id rs).2).Nodup := by
  by_cases h : id ∈ ids rs
  · rw [start_of_mem h]; exact hnd
  · rw [start_of_notMem h, ids_append, List.nodup_append']
    refine ⟨hnd, by simp, ?_⟩
    intro x hx hx'
    have : x = id := by simpa using hx'
    exact h (this ▸ hx)

@[simp] theorem ids_stream (d : Sp T) : ids (stream id d rs).2 = ids rs := by
  unfold stream
  split
  · rfl
  · split
    · exact ids_amend _ (Record.push_id d)
    · rfl

@[simp] theorem ids_end (d : Sp T) : ids (end_ id d rs).2 = ids rs := by
  unfold end_
  split
  · exact ids_amend _ (Record.complete_id d)
  · rfl

@[simp] theorem ids_setArg (arg : Sp A) : ids (setArg id arg rs) = ids rs :=
  ids_amend _ fun _ => rfl

@[simp] theorem ids_erase (err : BitVec 32) : ids (erase id err rs).2 = ids rs := by
  unfold erase
  split
  · exact ids_amend _ (Record.erase_id err)
  · rfl

@[simp] theorem ids_clear : ids (clear rs).2 = ids rs := by
  simp [clear, ids, Function.comp_def]

/-! ### Pop -/

section Pop

variable (out : PopArgs T) {r : Record T A}

theorem pop_start (hst : r.state = .uncompleted ∨ r.state = .completed)
    (hpoll : r.polling = false) :
    pop out (r :: rs) = (.start, { out with id := r.id }, { r with polling := true } :: rs) := by
  rcases hst with hst | hst <;> simp [pop, hst, hpoll]

theorem pop_data {d : Sp T} {ds : List (Sp T)}
    (hst : r.state = .uncompleted ∨ r.state = .completed) (hpoll : r.polling = true)
    (hpend : r.pending = d :: ds) :
    pop out (r :: rs) =
      (.data, { out with id := r.id, res := d }, { r with pending := ds } :: rs) := by
  rcases hst with hst | hst <;> simp [pop, hst, hpoll, hpend]

theorem pop_wait (hst : r.state = .uncompleted) (hpoll : r.polling = true)
    (hpend : r.pending = []) : pop out (r :: rs) = (.empty, out, r :: rs) := by
  simp [pop, hst, hpoll, hpend]

theorem pop_end (hst : r.state = .completed) (hpoll : r.polling = true)
    (hpend : r.pending = []) :
    pop out (r :: rs) = (.end_, { out with
      id := r.id, res := if r.content.isSome then r.content else out.res }, rs) := by
  simp [pop, hst, hpoll, hpend]

theorem pop_removed (hst : r.state = .deleted) :
    pop out (r :: rs) = (.removed, { out with id := r.id }, rs) := by
  simp [pop, hst]

theorem pop_error {e : BitVec 16} (hst : r.state = .error e) :
    pop out (r :: rs) = (.error, { out with id := r.id, err := e.setWidth 32 }, rs) := by
  simp [pop, hst]

end Pop

/-- `available()` is true exactly when `pop` would not return `POP_TYPE_EMPTY`. -/
theorem available_iff_pop (out : PopArgs T) : available rs = true ↔ (pop out rs).1 ≠ .empty := by
  cases rs with
  | nil => simp [available, pop]
  | cons r rs =>
      cases hst : r.state <;> cases hpoll : r.polling <;> cases hpend : r.pending <;>
        simp [available, pop, hst, hpoll, hpend]

/-- A pop that returns something served the head record. -/
theorem pop_id {out : PopArgs T} {r : Record T A} (h : (pop out (r :: rs)).1 ≠ .empty) :
    (pop out (r :: rs)).2.1.id = r.id := by
  cases hst : r.state <;> cases hpoll : r.polling <;> cases hpend : r.pending <;>
    simp_all [pop]

/-- A pop changes the head record only. -/
theorem pop_tail (out : PopArgs T) (r : Record T A) (rs : List (Record T A)) :
    (pop out (r :: rs)).2.2 = rs ∨
      ∃ r', r'.id = r.id ∧ (pop out (r :: rs)).2.2 = r' :: rs := by
  cases hst : r.state <;> cases hpoll : r.polling <;> cases hpend : r.pending <;>
    simp [pop, hst, hpoll, hpend]

theorem ids_pop_sublist (out : PopArgs T) : (ids (pop out rs).2.2).Sublist (ids rs) := by
  cases rs with
  | nil => simp [pop]
  | cons r rs =>
      rcases pop_tail out r rs with h | ⟨r', hid, h⟩
      · rw [h]; exact List.sublist_cons_self _ _
      · rw [h, ids_cons, ids_cons, hid]

/-- What is left after a pop was there before, with its id, state and content. -/
theorem mem_pop {out : PopArgs T} {r' : Record T A} (h : r' ∈ (pop out rs).2.2) :
    ∃ r ∈ rs, r'.id = r.id ∧ r'.state = r.state ∧ r'.content = r.content := by
  cases rs with
  | nil => simp [pop] at h
  | cons r rs =>
      have htail : ∀ x ∈ rs, ∃ y ∈ r :: rs,
          x.id = y.id ∧ x.state = y.state ∧ x.content = y.content :=
        fun x hx => ⟨x, List.mem_cons_of_mem _ hx, rfl, rfl, rfl⟩
      have hhead : ∃ y ∈ r :: rs, r.id = y.id ∧ r.state = y.state ∧ r.content = y.content :=
        ⟨r, List.mem_cons_self, rfl, rfl, rfl⟩
      cases hst : r.state with
      | deleted =>
          rw [pop_removed out hst] at h
          exact htail r' h
      | error e =>
          rw [pop_error out hst] at h
          exact htail r' h
      | uncompleted =>
          cases hpoll : r.polling with
          | false =>
              rw [pop_start out (.inl hst) hpoll] at h
              rcases List.mem_cons.mp h with rfl | h
              · exact hhead
              · exact htail r' h
          | true =>
              cases hpend : r.pending with
              | nil =>
                  rw [pop_wait out hst hpoll hpend] at h
                  exact ⟨r', h, rfl, rfl, rfl⟩
              | cons d ds =>
                  rw [pop_data out (.inl hst) hpoll hpend] at h
                  rcases List.mem_cons.mp h with rfl | h
                  · exact hhead
                  · exact htail r' h
      | completed =>
          cases hpoll : r.polling with
          | false =>
              rw [pop_start out (.inr hst) hpoll] at h
              rcases List.mem_cons.mp h with rfl | h
              · exact hhead
              · exact htail r' h
          | true =>
              cases hpend : r.pending with
              | nil =>
                  rw [pop_end out hst hpoll hpend] at h
                  exact htail r' h
              | cons d ds =>
                  rw [pop_data out (.inr hst) hpoll hpend] at h
                  rcases List.mem_cons.mp h with rfl | h
                  · exact hhead
                  · exact htail r' h

/-- Data that a pop returns was pending, or is the content of a stream. -/
theorem pop_res {out : PopArgs T} (hout : out.res = none) {d : T}
    (h : (pop out rs).2.1.res = some d) :
    (pop out rs).1 = .data ∨ ∃ r ∈ rs, r.content = some d := by
  cases rs with
  | nil =>
      have hres : out.res = some d := h
      rw [hout] at hres
      cases hres
  | cons r rs =>
      cases hst : r.state with
      | deleted =>
          rw [pop_removed out hst, hout] at h
          cases h
      | error e =>
          rw [pop_error out hst, hout] at h
          cases h
      | uncompleted =>
          cases hpoll : r.polling with
          | false =>
              rw [pop_start out (.inl hst) hpoll, hout] at h
              cases h
          | true =>
              cases hpend : r.pending with
              | nil =>
                  rw [pop_wait out hst hpoll hpend, hout] at h
                  cases h
              | cons x xs =>
                  rw [pop_data out (.inl hst) hpoll hpend]
                  exact .inl rfl
      | completed =>
          cases hpoll : r.polling with
          | false =>
              rw [pop_start out (.inr hst) hpoll, hout] at h
              cases h
          | true =>
              cases hpend : r.pending with
              | nil =>
                  rw [pop_end out hst hpoll hpend, hout] at h
                  simp only at h
                  split at h
                  · exact .inr ⟨r, List.mem_cons_self, h⟩
                  · cases h
              | cons x xs =>
                  rw [pop_data out (.inr hst) hpoll hpend]
                  exact .inl rfl

end Lemmas

end Fifo

end OpenVoice
