import OpenVoice.StreamQueue.Streams
import Mathlib.Data.List.Infix

/-!
# What the order of service depends on

The consumer of a stream queue is served from the oldest stream only.  Which stream that is, and
whether its start has been served, is said by the *keys* of the queue.  A producer adds a key
behind the others and does nothing else to them; only a pop takes one away.
-/

namespace OpenVoice

variable {T A : Type}

/-- What a pop does to the keys; `id` is the id it returns. -/
inductive Popped (id : Int) (ks ks' : List (Int × Bool)) : PopType → Prop where
  | start {rest : List (Int × Bool)} (hks : ks = (id, false) :: rest)
      (hks' : ks' = (id, true) :: rest) : Popped id ks ks' .start
  | data {rest : List (Int × Bool)} (hks : ks = (id, true) :: rest) (hks' : ks' = ks) :
      Popped id ks ks' .data
  | end_ (hks : ks = (id, true) :: ks') : Popped id ks ks' .end_
  | removed {b : Bool} (hks : ks = (id, b) :: ks') : Popped id ks ks' .removed
  | error {b : Bool} (hks : ks = (id, b) :: ks') : Popped id ks ks' .error

theorem Popped.mem {id : Int} {ks ks' : List (Int × Bool)} {t : PopType}
    (h : Popped id ks ks' t) : id ∈ ks.map Prod.fst := by
  cases h with
  | start hks hks' => simp [hks]
  | data hks hks' => simp [hks]
  | end_ hks => simp [hks]
  | removed hks => simp [hks]
  | error hks => simp [hks]

theorem Popped.fst_sublist {id : Int} {ks ks' : List (Int × Bool)} {t : PopType}
    (h : Popped id ks ks' t) : (ks'.map Prod.fst).Sublist (ks.map Prod.fst) := by
  cases h with
  | start hks hks' => simp [hks, hks']
  | data hks hks' => simp [hks']
  | end_ hks => simp [hks]
  | removed hks => simp [hks]
  | error hks => simp [hks]

namespace Fifo

def keys (rs : List (Record T A)) : List (Int × Bool) := rs.map fun r => (r.id, r.polling)

@[simp] theorem keys_fst (rs : List (Record T A)) : (keys rs).map Prod.fst = ids rs := by
  simp [keys, ids, Function.comp_def]

theorem keys_amend (id : Int) {f : Record T A → Record T A} (hid : ∀ r, (f r).id = r.id)
    (hpoll : ∀ r, (f r).polling = r.polling) (rs : List (Record T A)) :
    keys (amend id f rs) = keys rs := by
  simp only [keys, amend, List.map_map]
  apply List.map_congr_left
  intro r _
  by_cases h : r.id = id
  · simp [h, hid, hpoll]
  · simp [h]

theorem keys_start (id : Int) (rs : List (Record T A)) :
    keys (start id rs).2 = keys rs ∧ (start id rs).1 = false ∨
      keys (start id rs).2 = keys rs ++ [(id, false)] ∧ (start id rs).1 = true := by
  by_cases h : id ∈ ids rs
  · rw [start_of_mem h]
    exact .inl ⟨rfl, rfl⟩
  · rw [start_of_notMem h]
    exact .inr ⟨by simp [keys, Record.opened], rfl⟩

theorem keys_stream (id : Int) (d : Sp T) (rs : List (Record T A)) :
    keys (stream id d rs).2 = keys rs := by
  unfold stream
  split
  · rfl
  · split
    · exact keys_amend id (Record.push_id d) (Record.push_polling d) rs
    · rfl

theorem keys_end (id : Int) (d : Sp T) (rs : List (Record T A)) :
    keys (end_ id d rs).2 = keys rs := by
  unfold end_
  split
  · exact keys_amend id (Record.complete_id d) (Record.complete_polling d) rs
  · rfl

theorem keys_setArg (id : Int) (arg : Sp A) (rs : List (Record T A)) :
    keys (setArg id arg rs) = keys rs :=
  keys_amend id (f := fun r => { r with arg := arg }) (fun _ => rfl) (fun _ => rfl) rs

theorem keys_erase (id : Int) (err : BitVec 32) (rs : List (Record T A)) :
    keys (erase id err rs).2 = keys rs := by
  unfold erase
  split
  · exact keys_amend id (Record.erase_id err) (Record.erase_polling err) rs
  · rfl

theorem keys_clear (rs : List (Record T A)) : keys (clear rs).2 = keys rs := by
  simp [clear, keys, Function.comp_def]

/-- A pop that returns nothing changes nothing; any other serves the first key. -/
theorem pop_popped (out : PopArgs T) (rs : List (Record T A)) :
    (pop out rs).1 = .empty ∧ (pop out rs).2.2 = rs ∨
      Popped (pop out rs).2.1.id (keys rs) (keys (pop out rs).2.2) (pop out rs).1 := by
  cases rs with
  | nil => exact .inl ⟨rfl, rfl⟩
  | cons r rs =>
      have hkeys : keys (r :: rs) = (r.id, r.polling) :: keys rs := rfl
      cases hst : r.state with
      | deleted =>
          rw [pop_removed out hst]
          exact .inr (.removed hkeys)
      | error e =>
          rw [pop_error out hst]
          exact .inr (.error hkeys)
      | uncompleted =>
          cases hpoll : r.polling with
          | false =>
              rw [pop_start out (.inl hst) hpoll]
              exact .inr (.start (hpoll ▸ hkeys) rfl)
          | true =>
              cases hpend : r.pending with
              | nil =>
                  rw [pop_wait out hst hpoll hpend]
                  exact .inl ⟨rfl, rfl⟩
              | cons d ds =>
                  rw [pop_data out (.inl hst) hpoll hpend]
                  exact .inr (.data (hpoll ▸ hkeys) rfl)
      | completed =>
          cases hpoll : r.polling with
          | false =>
              rw [pop_start out (.inr hst) hpoll]
              exact .inr (.start (hpoll ▸ hkeys) rfl)
          | true =>
              cases hpend : r.pending with
              | nil =>
                  rw [pop_end out hst hpoll hpend]
                  exact .inr (.end_ (hpoll ▸ hkeys))
              | cons d ds =>
                  rw [pop_data out (.inr hst) hpoll hpend]
                  exact .inr (.data (hpoll ▸ hkeys) rfl)

end Fifo

namespace Streams

def keys (q : Streams T A) : List (Int × Bool) := Fifo.keys q.records

section

variable (q : Streams T A) (id : Int)

theorem keys_nodup : (q.keys.map Prod.fst).Nodup := by
  rw [keys, Fifo.keys_fst]
  exact q.ids_nodup

theorem start_keys : (q.start id).2.keys = q.keys ∧ (q.start id).1 = false ∨
    (q.start id).2.keys = q.keys ++ [(id, false)] ∧ (q.start id).1 = true := by
  simp only [keys, start_records, start_fst]
  exact Fifo.keys_start id q.records

@[simp] theorem stream_keys (d : Sp T) : (q.stream id d).2.keys = q.keys := by
  simp only [keys, stream_records, Fifo.keys_stream]

@[simp] theorem end_keys (d : Sp T) : (q.end_ id d).2.keys = q.keys := by
  simp only [keys, end_records, Fifo.keys_end]

@[simp] theorem setArg_keys (arg : Sp A) : (q.setArg id arg).keys = q.keys := by
  simp only [keys, setArg_records, Fifo.keys_setArg]

@[simp] theorem erase_keys (err : BitVec 32) : (q.erase id err).2.keys = q.keys := by
  simp only [keys, erase_records, Fifo.keys_erase]

@[simp] theorem clear_keys : q.clear.2.keys = q.keys := by
  simp only [keys, clear_records, Fifo.keys_clear]

@[simp] theorem close_keys : q.close.keys = [] := by
  simp only [keys, close_records, Fifo.keys, List.map_nil]

theorem pop_keys (out : PopArgs T) :
    (q.pop out).1.1 = .empty ∧ (q.pop out).2.keys = q.keys ∨
      Popped (q.pop out).1.2.id q.keys (q.pop out).2.keys (q.pop out).1.1 := by
  obtain ⟨t, out', q', hpop, hfifo⟩ := q.pop_eq out
  have hcase := Fifo.pop_popped out q.records
  rw [hfifo] at hcase
  rw [hpop]
  rcases hcase with ⟨ht, hrec⟩ | hcase
  · exact .inl ⟨ht, congrArg Fifo.keys hrec⟩
  · exact .inr hcase

/-- A stream is found by `erase` exactly if it has a key. -/
theorem erase_fst_iff (err : BitVec 32) :
    (q.erase id err).1 = true ↔ id ∈ q.keys.map Prod.fst := by
  rw [erase_fst, keys, Fifo.keys_fst]
  by_cases h : id ∈ Fifo.ids q.records
  · rw [Fifo.erase_of_mem err h]
    exact ⟨fun _ => h, fun _ => rfl⟩
  · rw [Fifo.erase_of_notMem err h]
    exact ⟨fun hf => absurd hf Bool.false_ne_true, fun hm => absurd hm h⟩

end

end Streams

/-- Streams have been added, and nothing has been served. -/
def Extended (ks ks' : List (Int × Bool)) : Prop := ∃ l, ks' = ks ++ l ∧ ∀ p ∈ l, p.2 = false

theorem Extended.refl (ks : List (Int × Bool)) : Extended ks ks :=
  ⟨[], (List.append_nil ks).symm, by simp⟩

theorem Extended.of_eq {ks ks' : List (Int × Bool)} (h : ks' = ks) : Extended ks ks' := by
  rw [h]
  exact .refl ks

theorem Extended.snoc (ks : List (Int × Bool)) (id : Int) : Extended ks (ks ++ [(id, false)]) :=
  ⟨_, rfl, by simp⟩

theorem Extended.isPrefix {ks ks' : List (Int × Bool)} (h : Extended ks ks') : ks <+: ks' := by
  obtain ⟨l, rfl, -⟩ := h
  exact List.prefix_append ks l

theorem Extended.started {ks ks' : List (Int × Bool)} (h : Extended ks ks') {id : Int}
    (hid : (id, true) ∈ ks') : (id, true) ∈ ks := by
  obtain ⟨l, rfl, hl⟩ := h
  rcases List.mem_append.mp hid with hid | hid
  · exact hid
  · cases hl _ hid

/-- The ids whose start has not been served. -/
def unstarted (ks : List (Int × Bool)) : List Int := (ks.filter fun p => !p.2).map Prod.fst

theorem unstarted_append (ks ks' : List (Int × Bool)) :
    unstarted (ks ++ ks') = unstarted ks ++ unstarted ks' := by
  simp [unstarted]

@[simp] theorem unstarted_nil : unstarted [] = [] := rfl

@[simp] theorem unstarted_cons_true (id : Int) (ks : List (Int × Bool)) :
    unstarted ((id, true) :: ks) = unstarted ks := by
  simp [unstarted]

@[simp] theorem unstarted_cons_false (id : Int) (ks : List (Int × Bool)) :
    unstarted ((id, false) :: ks) = id :: unstarted ks := by
  simp [unstarted]

end OpenVoice
