import OpenVoice.StreamQueue.Calls

/-!
# Removed streams

`erase` and `clear` mark the tag of a stream as deleted or failed.  `stream` looks at the mark
and refuses; `end` does not look and turns the tag into a completed one, so a stream that is
ended after its removal is served again.  As long as nobody does that, a removed stream yields
one `POP_TYPE_REMOVED` or `POP_TYPE_ERROR` and nothing else (`removed_stays_removed`).
-/

namespace OpenVoice

variable {T A : Type}

/-- The calls that remove the stream `id`. -/
def Call.Removes (id : Int) (c : Call T A) : Prop :=
  (∃ err, c = .erase id err) ∨ c = .clear

/-- The pop results for the stream that goes by `id` now.  A `start(id)` that succeeds opens
    another stream, whose results are not counted. -/
def streamPops (id : Int) : List (Call T A × Ret T A) → List PopType
  | [] => []
  | (.start i, .flag true) :: rest => if i = id then [] else streamPops id rest
  | (_, .popped t out) :: rest =>
      if t ≠ .empty ∧ out.id = id then t :: streamPops id rest else streamPops id rest
  | _ :: rest => streamPops id rest

/-- What is still to be served of a removed stream: at most one `REMOVED` or `ERROR`. -/
def StaysRemoved (id : Int) (cs : List (Call T A)) (rets : List (Ret T A)) : Prop :=
  (streamPops id (cs.zip rets)).length ≤ 1 ∧
    ∀ t ∈ streamPops id (cs.zip rets), t = .removed ∨ t = .error

instance (id : Int) (cs : List (Call T A)) (rets : List (Ret T A)) :
    Decidable (StaysRemoved id cs rets) := by unfold StaysRemoved; infer_instance

/-- The calls that close the stream `id`: after one of them nothing is added to it. -/
def Call.Closes (id : Int) (c : Call T A) : Prop :=
  (∃ d, c = .end_ id d) ∨ c.Removes id

/-- No `end(id)` is called while the stream `id` is in the queue. -/
def NotEnded (id : Int) : List (Record T A) → List (Call T A) → Prop
  | _, [] => True
  | rs, c :: cs =>
      id ∈ Fifo.ids rs → (∀ d, c ≠ .end_ id d) ∧ NotEnded id (Fifo.call rs c).2 cs

/-- The mark `erase` and `clear` leave. -/
def StreamState.IsRemoved (st : StreamState) : Prop := st = .deleted ∨ ∃ e, st = .error e

/-- The state of the stream `id`, if it is in the queue, is one of `P`. -/
def InState (P : StreamState → Prop) (id : Int) (rs : List (Record T A)) : Prop :=
  ∀ r ∈ rs, r.id = id → P r.state

/-- The stream `id`, if it is in the queue, is marked. -/
def Marked (id : Int) (rs : List (Record T A)) : Prop := ∀ r ∈ rs, r.id = id → r.state.IsRemoved

theorem StreamState.IsRemoved.ne_uncompleted {st : StreamState} (h : st.IsRemoved) :
    st ≠ .uncompleted := by
  rcases h with rfl | ⟨e, rfl⟩ <;> simp

theorem isRemoved_erasedState (err : BitVec 32) : (Record.erasedState err).IsRemoved := by
  unfold Record.erasedState
  split
  · exact .inr ⟨_, rfl⟩
  · exact .inl rfl

namespace Fifo

variable {rs : List (Record T A)} {id : Int}

/-- Ids stay distinct. -/
theorem ids_call_nodup (hnd : (ids rs).Nodup) (c : Call T A) : (ids (call rs c).2).Nodup := by
  cases c with
  | start i => exact ids_start_nodup i hnd
  | close => simp [call]
  | pop out => exact hnd.sublist (ids_pop_sublist out)
  | _ => simpa [call] using hnd

/-- A stream comes into the queue through a successful `start` only. -/
theorem notMem_ids_call (h : id ∉ ids rs) {c : Call T A}
    (hc : ¬ (c = .start id ∧ (call rs c).1 = .flag true)) : id ∉ ids (call rs c).2 := by
  cases c with
  | start i =>
      by_cases hi : i = id
      · subst hi
        exact absurd ⟨rfl, by simp [call, start_of_notMem h]⟩ hc
      · simp only [call, start]
        split
        · exact h
        · simpa [h] using Ne.symm hi
  | close => simp [call]
  | pop out => exact fun hmem => h ((ids_pop_sublist out).subset hmem)
  | _ => simpa [call] using h

end Fifo

/-! ### The marks stay -/

section Marks

variable {rs : List (Record T A)} {id : Int}

/-- Changing another record, or changing this one without leaving the state. -/
theorem InState.amend {P : StreamState → Prop} (h : InState P id rs) {i : Int}
    {f : Record T A → Record T A} (hid : ∀ r, (f r).id = r.id)
    (hf : i = id → ∀ r ∈ rs, r.id = id → P (f r).state) : InState P id (Fifo.amend i f rs) := by
  intro r hr hrid
  simp only [Fifo.amend, List.mem_map] at hr
  obtain ⟨r₀, hr₀, rfl⟩ := hr
  by_cases hi : r₀.id = i
  · rw [if_pos hi] at hrid ⊢
    rw [hid] at hrid
    exact hf (hi.symm.trans hrid) r₀ hr₀ hrid
  · rw [if_neg hi] at hrid ⊢
    exact h r₀ hr₀ hrid

/-- A removed stream stays in its state as long as no call closes it once more. -/
theorem InState.call {P : StreamState → Prop} (h : InState P id rs)
    (hP : ∀ st, P st → st.IsRemoved) (hmem : id ∈ Fifo.ids rs) {c : Call T A}
    (hc : ¬ c.Closes id) : InState P id (Fifo.call rs c).2 := by
  cases c with
  | start i =>
      by_cases hi : i ∈ Fifo.ids rs
      · rwa [Fifo.call, Fifo.start_of_mem hi]
      · rw [Fifo.call, Fifo.start_of_notMem hi]
        intro r hr hrid
        rcases List.mem_append.mp hr with hr | hr
        · exact h r hr hrid
        · have hr' : r = .opened i := by simpa using hr
          rw [hr', Record.opened_id] at hrid
          exact absurd (hrid ▸ hmem) hi
  | stream i d =>
      simp only [Fifo.call, Fifo.stream]
      split
      · exact h
      · rename_i r hfind
        split
        · -- the stream that takes data is uncompleted, hence another one
          rename_i hst
          refine h.amend (fun _ => rfl) fun hi r' hr' hid' => ?_
          obtain ⟨hr, hrid⟩ := Fifo.mem_of_find hfind
          exact absurd hst (hP _ (h r hr (hrid.trans hi))).ne_uncompleted
        · exact h
  | end_ i d =>
      have hi : i ≠ id := fun hi => hc (.inl ⟨d, by rw [hi]⟩)
      simp only [Fifo.call, Fifo.end_]
      split
      · exact h.amend (fun _ => rfl) fun heq => absurd heq hi
      · exact h
  | setArg i a => exact h.amend (fun _ => rfl) fun _ r hr hrid => h r hr hrid
  | getArg i => exact h
  | erase i err =>
      have hi : i ≠ id := fun hi => hc (.inr (.inl ⟨err, by rw [hi]⟩))
      simp only [Fifo.call, Fifo.erase]
      split
      · exact h.amend (fun _ => rfl) fun heq => absurd heq hi
      · exact h
  | clear => exact absurd (.inr (.inr rfl)) hc
  | close => simp [Fifo.call, InState]
  | available => exact h
  | pop out =>
      cases rs with
      | nil => exact h
      | cons r rs =>
          have htail : InState P id rs := fun r' hr' => h r' (by simp [hr'])
          by_cases hrid : r.id = id
          · rcases hP _ (h r (by simp) hrid) with hst | ⟨e, hst⟩
            · rw [Fifo.call, Fifo.pop_removed out hst]
              exact htail
            · rw [Fifo.call, Fifo.pop_error out hst]
              exact htail
          · rcases Fifo.pop_tail out r rs with heq | ⟨r', hr', heq⟩
            · rw [Fifo.call, heq]
              exact htail
            · rw [Fifo.call, heq]
              intro x hx hxid
              rcases List.mem_cons.mp hx with rfl | hx
              · exact absurd (hr'.symm.trans hxid) hrid
              · exact htail x hx hxid

/-- A removal marks the stream. -/
theorem marked_of_removes {c : Call T A} (hc : c.Removes id) :
    Marked id (Fifo.call rs c).2 := by
  rcases hc with ⟨err, rfl⟩ | rfl
  · by_cases hmem : id ∈ Fifo.ids rs
    · rw [Fifo.call, Fifo.erase_of_mem _ hmem]
      intro r hr hrid
      simp only [Fifo.amend, List.mem_map] at hr
      obtain ⟨r₀, -, rfl⟩ := hr
      by_cases hi : r₀.id = id
      · rw [if_pos hi]
        exact isRemoved_erasedState err
      · rw [if_neg hi] at hrid
        exact absurd hrid hi
    · rw [Fifo.call, Fifo.erase_of_notMem _ hmem]
      intro r hr hrid
      exact absurd (hrid ▸ Fifo.mem_ids_of_mem hr) hmem
  · intro r hr _
    simp only [Fifo.call, Fifo.clear, List.mem_map] at hr
    obtain ⟨r₀, -, rfl⟩ := hr
    exact isRemoved_erasedState 0

/-- Every call other than `end(id)` leaves the stream marked. -/
theorem Marked.call (h : Marked id rs) (hmem : id ∈ Fifo.ids rs) {c : Call T A}
    (hc : ∀ d, c ≠ .end_ id d) : Marked id (Fifo.call rs c).2 := by
  by_cases hclose : c.Closes id
  · rcases hclose with ⟨d, rfl⟩ | hrm
    · exact absurd rfl (hc d)
    · exact marked_of_removes hrm
  · exact InState.call h (fun _ hst => hst) hmem hclose

end Marks

/-! ### What is served -/

section Served

variable {rs : List (Record T A)} {id : Int}

/-- A pop of another stream, or of none. -/
theorem streamPops_pop_of_ne (t : PopType) (out out' : PopArgs T) (rest : List (Call T A × Ret T A))
    (h : t = .empty ∨ out'.id ≠ id) :
    streamPops id ((.pop out, .popped t out') :: rest) = streamPops id rest := by
  have hno : ¬ (t ≠ .empty ∧ out'.id = id) := by
    rintro ⟨ht, hid⟩
    exact h.elim ht fun hne => hne hid
  simp [streamPops, hno]

/-- A stream that is not in the queue is not served. -/
theorem streamPops_of_notMem (h : id ∉ Fifo.ids rs) (cs : List (Call T A)) :
    streamPops id (cs.zip (Fifo.calls rs cs).1) = [] := by
  induction cs generalizing rs with
  | nil => rfl
  | cons c cs ih =>
      rw [Fifo.calls, List.zip_cons_cons]
      by_cases hstart : c = .start id ∧ (Fifo.call rs c).1 = .flag true
      · obtain ⟨rfl, hret⟩ := hstart
        simp only [hret]
        simp [streamPops]
      · have hrest := ih (Fifo.notMem_ids_call h hstart)
        cases c with
        | start i =>
            simp only [Fifo.call] at hstart hrest ⊢
            cases hflag : (Fifo.start i rs).1 with
            | false => simpa [streamPops] using hrest
            | true =>
                have hi : i ≠ id := fun hi => hstart ⟨by rw [hi], by rw [hflag]⟩
                simpa [streamPops, hi] using hrest
        | pop out =>
            simp only [Fifo.call] at hrest ⊢
            rw [streamPops_pop_of_ne _ _ _ _ ?_]
            · exact hrest
            · cases rs with
              | nil => exact .inl rfl
              | cons r rs =>
                  by_cases hempty : (Fifo.pop out (r :: rs)).1 = .empty
                  · exact .inl hempty
                  · rw [Fifo.pop_id hempty]
                    exact .inr fun hid => h (hid ▸ Fifo.mem_ids_of_mem (by simp))
        | _ => simpa [streamPops, Fifo.call] using hrest

/-- **A marked stream stays removed**, by induction on the calls: either the call serves the
    stream, which is then out of the queue, or it leaves the mark. -/
theorem Marked.staysRemoved (hmarked : Marked id rs) (hnd : (Fifo.ids rs).Nodup)
    (cs : List (Call T A)) (hcs : NotEnded id rs cs) :
    StaysRemoved id cs (Fifo.calls rs cs).1 := by
  unfold StaysRemoved
  induction cs generalizing rs with
  | nil => simp [Fifo.calls, streamPops]
  | cons c cs ih =>
      by_cases hmem : id ∈ Fifo.ids rs
      · obtain ⟨hc, hcs'⟩ := hcs hmem
        have hrest := ih (hmarked.call hmem hc) (Fifo.ids_call_nodup hnd c) hcs'
        rw [Fifo.calls, List.zip_cons_cons]
        cases c with
        | start i =>
            simp only [Fifo.call] at hrest ⊢
            cases hflag : (Fifo.start i rs).1 with
            | false => simpa [streamPops] using hrest
            | true =>
                have hi : i ≠ id := by
                  rintro rfl
                  rw [Fifo.start_of_mem hmem] at hflag
                  cases hflag
                simpa [streamPops, hi] using hrest
        | pop out =>
            cases rs with
            | nil => simp at hmem
            | cons r rs =>
                by_cases hrid : r.id = id
                · -- the stream is served: it leaves the queue with this result
                  have hgone : id ∉ Fifo.ids rs := by
                    rw [Fifo.ids_cons, List.nodup_cons, hrid] at hnd
                    exact hnd.1
                  have hnone := streamPops_of_notMem hgone cs
                  rcases hmarked r (by simp) hrid with hst | ⟨e, hst⟩
                  · simp [Fifo.call, Fifo.pop_removed out hst, streamPops, hrid, hnone]
                  · simp [Fifo.call, Fifo.pop_error out hst, streamPops, hrid, hnone]
                · have hother : (Fifo.pop out (r :: rs)).1 = .empty ∨
                      (Fifo.pop out (r :: rs)).2.1.id ≠ id := by
                    by_cases hempty : (Fifo.pop out (r :: rs)).1 = .empty
                    · exact .inl hempty
                    · exact .inr (by rwa [Fifo.pop_id hempty])
                  simp only [Fifo.call] at hrest ⊢
                  rw [streamPops_pop_of_ne _ _ _ _ hother]
                  exact hrest
        | _ => simpa [streamPops, Fifo.call] using hrest
      · simp [streamPops_of_notMem hmem (c :: cs)]

end Served

/-- **Removed streams stay removed unless they are ended.**  `q₀` is any state calls can reach,
    `id` a stream in it, and `q₁` the state after `erase(id, err)` or `clear`.  Whatever calls
    follow, if none of them is `end(id)` while the stream is in the queue, the stream yields at
    most one more pop result, `REMOVED` or `ERROR`.  The condition is sharp: when the stream is
    next in line, `end(id)` makes the next pop return `START` or `END` for it. -/
theorem removed_stays_removed (cs₀ cs : List (Call T A)) (rm : Call T A) (id : Int)
    {rets₀ rets : List (Ret T A)} {ret : Ret T A} {q₀ q₁ q₂ : StreamQueue T A}
    (h₀ : StreamQueue.empty.calls cs₀ = some (rets₀, q₀))
    (hrm : rm.Removes id) (h₁ : q₀.call rm = some (ret, q₁))
    (hcs : NotEnded id q₁.records cs) (h₂ : q₁.calls cs = some (rets, q₂)) :
    StaysRemoved id cs rets ∧
      ∀ d out, (Fifo.ids q₂.records).head? = some id → ∀ r q₃ t out' q₄,
        q₂.call (.end_ id d) = some (r, q₃) → q₃.pop out = some (t, out', q₄) →
        out'.id = id → t = .start ∨ t = .data ∨ t = .end_ := by
  obtain ⟨q₀', hq₀, hwf₀, hrec₀⟩ :=
    StreamQueue.calls_simulates (⟨[], StreamQueue.represents_empty⟩ :
      (StreamQueue.empty : StreamQueue T A).Wf) cs₀
  rw [hq₀] at h₀
  obtain ⟨-, rfl⟩ : _ ∧ q₀' = q₀ := by simpa using h₀
  obtain ⟨q₁', hq₁, hwf₁, hrec₁⟩ := StreamQueue.call_simulates hwf₀ rm
  rw [hq₁] at h₁
  obtain ⟨-, rfl⟩ : _ ∧ q₁' = q₁ := by simpa using h₁
  obtain ⟨q₂', hq₂, hwf₂, hrec₂⟩ := StreamQueue.calls_simulates hwf₁ cs
  rw [hq₂] at h₂
  obtain ⟨rfl, rfl⟩ : (Fifo.calls q₁'.records cs).1 = rets ∧ q₂' = q₂ := by simpa using h₂
  have hnd₁ : (Fifo.ids q₁'.records).Nodup := by
    obtain ⟨segs, hrep⟩ := hwf₁
    rw [hrep.records_eq]
    exact hrep.ids
  refine ⟨Marked.staysRemoved (hrec₁ ▸ marked_of_removes hrm) hnd₁ cs hcs, ?_⟩
  intro d out hhead r q₃ t out' q₄ hend hpop hid
  obtain ⟨q₃', hq₃, hwf₃, hrec₃⟩ := StreamQueue.call_simulates hwf₂ (.end_ id d)
  rw [hq₃] at hend
  obtain ⟨-, rfl⟩ : _ ∧ q₃' = q₃ := by simpa using hend
  obtain ⟨q₄', hq₄, -, -⟩ := StreamQueue.call_simulates hwf₃ (.pop out)
  have hpopped : Fifo.pop out q₃'.records = (t, out', (Fifo.pop out q₃'.records).2.2) := by
    simp only [StreamQueue.call, hpop, Option.map_some, Option.some.injEq, Prod.mk.injEq,
      Fifo.call, Ret.popped.injEq] at hq₄
    rw [hq₄.1.1, hq₄.1.2]
  cases hrs : q₂'.records with
  | nil => simp [hrs] at hhead
  | cons r₀ rs =>
      have hr₀ : r₀.id = id := by simpa [hrs] using hhead
      have hafter : q₃'.records = r₀.complete d :: Fifo.amend id (Record.complete d) rs := by
        rw [hrec₃, hrs, Fifo.call, Fifo.end_of_mem d (by simp [hr₀])]
        simp [Fifo.amend, hr₀]
      rw [hafter] at hpopped
      cases hpoll : r₀.polling with
      | false =>
          rw [Fifo.pop_start out (r := r₀.complete d) (.inr rfl) hpoll] at hpopped
          simp only [Prod.mk.injEq] at hpopped
          exact .inl hpopped.1.symm
      | true =>
          cases hpend : r₀.pending with
          | nil =>
              rw [Fifo.pop_end out (r := r₀.complete d) rfl hpoll hpend] at hpopped
              simp only [Prod.mk.injEq] at hpopped
              exact .inr (.inr hpopped.1.symm)
          | cons x xs =>
              rw [Fifo.pop_data out (r := r₀.complete d) (.inr rfl) hpoll hpend] at hpopped
              simp only [Prod.mk.injEq] at hpopped
              exact .inr (.inl hpopped.1.symm)

/-- A stream that is erased and then gets more data: the data is refused and the stream is
    removed. -/
theorem stream_after_erase_stays_removed :
    ∃ (q₁ q₂ : StreamQueue Nat Nat) (rets : List (Ret Nat Nat)),
      (∃ q₀, StreamQueue.empty.calls [.start 1] = some ([.flag true], q₀) ∧
        q₀.call (.erase 1 0) = some (.flag true, q₁)) ∧
      q₁.calls [.stream 1 (some 7), .pop ⟨0, none, 0⟩] = some (rets, q₂) ∧
      StaysRemoved 1 [.stream 1 (some 7), .pop ⟨0, none, 0⟩] rets :=
  ⟨_, _, _, ⟨_, rfl, rfl⟩, rfl,
    (removed_stays_removed [.start 1] [.stream 1 (some 7), .pop ⟨0, none, 0⟩] (.erase 1 0) 1
      rfl (.inl ⟨0, rfl⟩) rfl (fun _ => ⟨by simp, fun _ => ⟨by simp, trivial⟩⟩) rfl).1⟩

/-- `end(1)` brings the erased stream `1` back: it is served from `START` to `END`. -/
theorem end_revives_removed_stream :
    ∃ (q₀ q₁ q₂ : StreamQueue Nat Nat) (rets : List (Ret Nat Nat)),
      StreamQueue.empty.calls [.start 1] = some ([.flag true], q₀) ∧
      1 ∈ Fifo.ids q₀.records ∧
      q₀.call (.erase 1 0) = some (.flag true, q₁) ∧
      q₁.calls [.end_ 1 none, .pop ⟨0, none, 0⟩, .pop ⟨0, none, 0⟩] = some (rets, q₂) ∧
      streamPops 1 (List.zip
        [.end_ 1 none, .pop ⟨0, none, 0⟩, .pop ⟨0, none, 0⟩] rets) = [.start, .end_] ∧
      ¬ StaysRemoved 1 [.end_ 1 none, .pop ⟨0, none, 0⟩, .pop ⟨0, none, 0⟩] rets :=
  ⟨_, _, _, _, rfl, by decide, rfl, rfl, by decide, by decide⟩

end OpenVoice
