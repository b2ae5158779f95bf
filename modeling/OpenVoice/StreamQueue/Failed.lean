import OpenVoice.StreamQueue.Keys

/-!
# Streams that have failed

`erase` with an error leaves a stream behind that is served as an error, started or not.  No other
operation makes a stream fail.
-/

namespace OpenVoice

variable {T A : Type}

namespace Fifo

/-- The stream is closed with an error. -/
def Failed (rs : List (Record T A)) (id : Int) : Prop :=
  ∃ r ∈ rs, r.id = id ∧ ∃ e, r.state = .error e

variable {rs : List (Record T A)} {id i : Int}

/-- Records are changed, and no state becomes an error. -/
theorem Failed.of_amend {f : Record T A → Record T A} (hid : ∀ r, (f r).id = r.id)
    (hst : ∀ r e, (f r).state = .error e → r.state = .error e)
    (h : Failed (amend i f rs) id) : Failed rs id := by
  obtain ⟨r, hr, rfl, e, he⟩ := h
  obtain ⟨r₀, hr₀, rfl⟩ := List.mem_map.mp hr
  refine ⟨r₀, hr₀, ?_⟩
  split at he
  · rename_i hi
    rw [if_pos hi, hid]
    exact ⟨rfl, e, hst r₀ e he⟩
  · rename_i hi
    rw [if_neg hi]
    exact ⟨rfl, e, he⟩

theorem Failed.of_start (h : Failed (start i rs).2 id) : Failed rs id := by
  unfold start at h
  split at h
  · exact h
  · obtain ⟨r, hr, hid, e, he⟩ := h
    rcases List.mem_append.mp hr with hr | hr
    · exact ⟨r, hr, hid, e, he⟩
    · obtain rfl := List.mem_singleton.mp hr
      cases he

theorem Failed.of_stream {d : Sp T} (h : Failed (stream i d rs).2 id) : Failed rs id := by
  unfold stream at h
  split at h
  · exact h
  · split at h
    · exact h.of_amend (Record.push_id d) fun r e he => he
    · exact h

theorem Failed.of_end {d : Sp T} (h : Failed (end_ i d rs).2 id) : Failed rs id := by
  unfold end_ at h
  split at h
  · apply h.of_amend (Record.complete_id d)
    intro r e he
    cases he
  · exact h

theorem Failed.of_setArg {arg : Sp A} (h : Failed (setArg i arg rs) id) : Failed rs id :=
  h.of_amend (f := fun r => { r with arg := arg }) (fun _ => rfl) fun _ _ he => he

theorem Failed.of_clear (h : Failed (clear rs).2 id) : Failed rs id := by
  obtain ⟨r, hr, -, e, he⟩ := h
  obtain ⟨r₀, -, rfl⟩ := List.mem_map.mp hr
  cases he

/-- `erase` without an error. -/
theorem Failed.of_remove (h : Failed (erase i 0#32 rs).2 id) : Failed rs id := by
  unfold erase at h
  split at h
  · apply h.of_amend (Record.erase_id _)
    intro r e he
    cases he
  · exact h

theorem Failed.of_erase {err : BitVec 32} (h : Failed (erase i err rs).2 id) :
    id = i ∨ Failed rs id := by
  unfold erase at h
  split at h
  · obtain ⟨r, hr, rfl, e, he⟩ := h
    obtain ⟨r₀, hr₀, rfl⟩ := List.mem_map.mp hr
    split at he
    · rename_i hi
      rw [if_pos hi]
      exact .inl hi
    · rename_i hi
      rw [if_neg hi]
      exact .inr ⟨r₀, hr₀, rfl, e, he⟩
  · exact .inr h

theorem Failed.of_pop {out : PopArgs T} (h : Failed (pop out rs).2.2 id) : Failed rs id := by
  obtain ⟨r, hr, rfl, e, he⟩ := h
  obtain ⟨r₀, hr₀, hid, hst, -⟩ := mem_pop hr
  exact ⟨r₀, hr₀, hid.symm, e, hst.symm.trans he⟩

/-- Only a stream that has failed is served as an error. -/
theorem failed_of_pop {out : PopArgs T} (h : (pop out rs).1 = .error) :
    Failed rs (pop out rs).2.1.id := by
  cases rs with
  | nil => cases h
  | cons r rs =>
      cases hst : r.state with
      | error e =>
          rw [pop_error out hst]
          exact ⟨r, List.mem_cons_self, rfl, e, hst⟩
      | deleted =>
          rw [pop_removed out hst] at h
          cases h
      | uncompleted =>
          cases hpoll : r.polling with
          | false =>
              rw [pop_start out (.inl hst) hpoll] at h
              cases h
          | true =>
              cases hpend : r.pending with
              | nil =>
                  rw [pop_wait out hst hpoll hpend] at h
                  cases h
              | cons d ds =>
                  rw [pop_data out (.inl hst) hpoll hpend] at h
                  cases h
      | completed =>
          cases hpoll : r.polling with
          | false =>
              rw [pop_start out (.inr hst) hpoll] at h
              cases h
          | true =>
              cases hpend : r.pending with
              | nil =>
                  rw [pop_end out hst hpoll hpend] at h
                  cases h
              | cons d ds =>
                  rw [pop_data out (.inr hst) hpoll hpend] at h
                  cases h

end Fifo

namespace Streams

def Failed (q : Streams T A) (id : Int) : Prop := Fifo.Failed q.records id

variable {q : Streams T A} {id i : Int}

theorem Failed.of_start (h : (q.start i).2.Failed id) : q.Failed id := by
  unfold Failed at h
  rw [start_records] at h
  exact Fifo.Failed.of_start h

theorem Failed.of_stream {d : Sp T} (h : (q.stream i d).2.Failed id) : q.Failed id := by
  unfold Failed at h
  rw [stream_records] at h
  exact Fifo.Failed.of_stream h

theorem Failed.of_end {d : Sp T} (h : (q.end_ i d).2.Failed id) : q.Failed id := by
  unfold Failed at h
  rw [end_records] at h
  exact Fifo.Failed.of_end h

theorem Failed.of_setArg {arg : Sp A} (h : (q.setArg i arg).Failed id) : q.Failed id := by
  unfold Failed at h
  rw [setArg_records] at h
  exact Fifo.Failed.of_setArg h

theorem Failed.of_clear (h : q.clear.2.Failed id) : q.Failed id := by
  unfold Failed at h
  rw [clear_records] at h
  exact Fifo.Failed.of_clear h

theorem Failed.of_remove (h : (q.erase i 0#32).2.Failed id) : q.Failed id := by
  unfold Failed at h
  rw [erase_records] at h
  exact Fifo.Failed.of_remove h

theorem Failed.of_erase {err : BitVec 32} (h : (q.erase i err).2.Failed id) :
    id = i ∨ q.Failed id := by
  unfold Failed at h
  rw [erase_records] at h
  exact Fifo.Failed.of_erase h

theorem Failed.of_close (h : q.close.Failed id) : q.Failed id := by
  obtain ⟨r, hr, -⟩ := h
  rw [close_records] at hr
  cases hr

theorem Failed.of_pop {out : PopArgs T} (h : (q.pop out).2.Failed id) : q.Failed id := by
  obtain ⟨t, out', q', hpop, hfifo⟩ := q.pop_eq out
  unfold Failed at h
  rw [hpop] at h
  have hpopped : Fifo.Failed (Fifo.pop out q.records).2.2 id := by
    rw [hfifo]
    exact h
  exact hpopped.of_pop

theorem failed_of_pop {out : PopArgs T} (h : (q.pop out).1.1 = .error) :
    q.Failed (q.pop out).1.2.id := by
  obtain ⟨t, out', q', hpop, hfifo⟩ := q.pop_eq out
  have hfailed : (Fifo.pop out q.records).1 = .error →
      Fifo.Failed q.records (Fifo.pop out q.records).2.1.id := Fifo.failed_of_pop
  rw [hfifo] at hfailed
  rw [hpop] at h ⊢
  exact hfailed h

end Streams

end OpenVoice
