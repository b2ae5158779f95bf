import OpenVoice.StreamQueue.Delivery
import OpenVoice.StreamQueue.Keys

/-!
# The accounts of a FIFO of streams

What `stream` has accepted for a stream is what pops have taken of it, followed by what waits in
the queue.  Only `erase`, `clear` and `close` lose data, and what is lost is always the end.
`Fifo.Ledger` keeps these accounts for all streams at once, whatever becomes of them.
-/

namespace OpenVoice

variable {T A : Type}

namespace Fifo

/-- The data that waits in a stream. -/
def pending (id : Int) (rs : List (Record T A)) : List (Sp T) :=
  ((find id rs).map (·.pending)).getD []

section Pending

variable {rs : List (Record T A)} {id i : Int}

theorem pending_of_find {r : Record T A} (h : find id rs = some r) : pending id rs = r.pending := by
  rw [pending, h]
  rfl

theorem pending_of_notMem (h : id ∉ ids rs) : pending id rs = [] := by
  rw [pending, find_eq_none.mpr h]
  rfl

theorem pending_start : pending id (start i rs).2 = pending id rs := by
  unfold start
  split
  · rfl
  · have happ : find id (rs ++ [.opened i]) = (find id rs).or (find id [.opened i]) :=
      List.find?_append
    cases hfind : find id rs with
    | some r =>
        rw [pending, pending, happ, hfind]
        rfl
    | none =>
        rw [pending, pending, happ, hfind]
        by_cases hid : i = id
        · simp [find, Record.opened, hid]
        · simp [find, Record.opened, hid]

/-- A change of one record that leaves what waits in it. -/
theorem pending_amend {f : Record T A → Record T A} (hid : ∀ r, (f r).id = r.id)
    (hpend : ∀ r, (f r).pending = r.pending) : pending id (amend i f rs) = pending id rs := by
  by_cases hne : id = i
  · subst hne
    cases hfind : find id rs with
    | none =>
        rw [amend_of_notMem f (find_eq_none.mp hfind)]
    | some r =>
        rw [pending_of_find (find_amend_self f hid hfind), pending_of_find hfind, hpend]
  · rw [pending, find_amend_of_ne f hid hne]
    rfl

theorem pending_erase {err : BitVec 32} :
    pending id (erase i err rs).2 = if id = i then [] else pending id rs := by
  unfold erase
  split
  · split
    · rename_i hmem heq
      subst heq
      cases hfind : find id rs with
      | none => exact absurd hmem (find_eq_none.mp hfind)
      | some r =>
          rw [pending_of_find (find_amend_self _ (Record.erase_id err) hfind)]
          rfl
    · rename_i hmem hne
      rw [pending, find_amend_of_ne _ (Record.erase_id err) hne]
      rfl
  · split
    · rename_i hmem heq
      subst heq
      exact pending_of_notMem hmem
    · rfl

theorem pending_clear : pending id (clear rs).2 = [] := by
  cases hfind : find id (clear rs).2 with
  | none => exact pending_of_notMem (find_eq_none.mp hfind)
  | some r =>
      rw [pending_of_find hfind]
      obtain ⟨r₀, -, rfl⟩ := List.mem_map.mp (mem_of_find hfind).1
      rfl

theorem pending_head {r : Record T A} : pending r.id (r :: rs) = r.pending :=
  pending_of_find (by simp [find])

theorem pending_cons_of_ne {r : Record T A} (h : r.id ≠ id) :
    pending id (r :: rs) = pending id rs := by
  unfold pending find
  rw [List.find?_cons_of_neg (by simpa using h)]

end Pending

/-- What a pop that returned `p` has taken of a stream. -/
def taken (id : Int) (p : PopType × PopArgs T) : List (Sp T) :=
  if p.1 = .data ∧ p.2.id = id then [p.2.res] else []

theorem taken_of_ne {id : Int} {p : PopType × PopArgs T} (h : p.1 ≠ .data) : taken id p = [] :=
  if_neg fun hp => h hp.1

/-- **The accounts.**  `accepted` and `served` say for each stream what `stream` has accepted and
    what pops have taken; `Lost` says of which streams data has been thrown away. -/
structure Ledger (accepted served : Int → List (Sp T)) (Lost : Int → Prop)
    (rs : List (Record T A)) : Prop where
  emptied : ∀ r ∈ rs, r.Served ∨ r.pending = []
  growing : ∀ r ∈ rs, r.state = .uncompleted → served r.id ++ r.pending = accepted r.id
  le : ∀ id, served id ++ pending id rs <+: accepted id
  whole : ∀ id, ¬ Lost id → served id ++ pending id rs = accepted id

namespace Ledger

variable {accepted served : Int → List (Sp T)} {Lost Lost' : Int → Prop}
  {rs rs' : List (Record T A)}

theorem nil : Ledger (fun _ => []) (fun _ => []) Lost ([] : List (Record T A)) where
  emptied := by
    intro r hr
    cases hr
  growing := by
    intro r hr
    cases hr
  le := fun _ => List.prefix_rfl
  whole := fun _ _ => rfl

/-- Every record has kept what waits in it, or is closed. -/
theorem keep (h : Ledger accepted served Lost rs)
    (hmem : ∀ r' ∈ rs', (∃ r ∈ rs, r'.id = r.id ∧ r'.pending = r.pending ∧ r'.state = r.state) ∨
      r'.state = .completed ∨ r'.pending = [] ∧ r'.state ≠ .uncompleted)
    (hsub : ∀ id, Lost id → Lost' id)
    (hpend : ∀ id, pending id rs' = pending id rs ∨
      pending id rs' = [] ∧ (id ∈ ids rs → Lost' id)) : Ledger accepted served Lost' rs' where
  emptied := by
    intro r' hr'
    rcases hmem r' hr' with ⟨r, hr, -, hp, hst⟩ | hst | ⟨hp, -⟩
    · rcases h.emptied r hr with hserved | hnil
      · refine .inl ?_
        unfold Record.Served
        rw [hst]
        exact hserved
      · exact .inr (hp.trans hnil)
    · exact .inl (.inr hst)
    · exact .inr hp
  growing := by
    intro r' hr' hun
    rcases hmem r' hr' with ⟨r, hr, hid, hp, hst⟩ | hst | ⟨-, hst⟩
    · rw [hid, hp]
      exact h.growing r hr (hst.symm.trans hun)
    · rw [hst] at hun
      cases hun
    · exact absurd hun hst
  le id := by
    rcases hpend id with heq | ⟨heq, -⟩
    · rw [heq]
      exact h.le id
    · rw [heq, List.append_nil]
      exact (List.prefix_append _ _).trans (h.le id)
  whole id hid := by
    have hold := h.whole id fun hl => hid (hsub id hl)
    rcases hpend id with heq | ⟨heq, hlost⟩
    · rw [heq]
      exact hold
    · -- nothing was waiting
      have hnone : pending id rs = [] := pending_of_notMem fun hmem => hid (hlost hmem)
      rw [heq, ← hnone]
      exact hold

/-- A stream is started that has never accepted anything. -/
theorem start (h : Ledger accepted served Lost rs) {i : Int} (hnew : accepted i = []) :
    Ledger accepted served Lost (Fifo.start i rs).2 := by
  by_cases hi : i ∈ ids rs
  · rw [start_of_mem hi]
    exact h
  · have hserved : served i ++ ([] : List (Sp T)) = accepted i := by
      have hle := h.le i
      rw [pending_of_notMem hi, hnew] at hle
      rw [hnew]
      exact List.prefix_nil.mp hle
    constructor
    · intro r hr
      rw [start_of_notMem hi] at hr
      rcases List.mem_append.mp hr with hr | hr
      · exact h.emptied r hr
      · obtain rfl := List.mem_singleton.mp hr
        exact .inl (.inl rfl)
    · intro r hr hst
      rw [start_of_notMem hi] at hr
      rcases List.mem_append.mp hr with hr | hr
      · exact h.growing r hr hst
      · obtain rfl := List.mem_singleton.mp hr
        exact hserved
    · intro id
      rw [pending_start]
      exact h.le id
    · intro id hid
      rw [pending_start]
      exact h.whole id hid

theorem mem_amend {i : Int} {f : Record T A → Record T A} {r' : Record T A}
    (h : r' ∈ amend i f rs) : r' ∈ rs ∨ ∃ r ∈ rs, r.id = i ∧ r' = f r := by
  obtain ⟨r, hr, rfl⟩ := List.mem_map.mp h
  split
  · rename_i hi
    exact .inr ⟨r, hr, hi, rfl⟩
  · exact .inl hr

theorem end_ (h : Ledger accepted served Lost rs) (i : Int) (d : Sp T) :
    Ledger accepted served Lost (Fifo.end_ i d rs).2 := by
  unfold Fifo.end_
  split
  · apply h.keep _ (fun _ hl => hl)
    · exact fun _ => .inl (pending_amend (Record.complete_id d) fun _ => rfl)
    · intro r' hr'
      rcases mem_amend hr' with hr | ⟨r, hr, -, rfl⟩
      · exact .inl ⟨r', hr, rfl, rfl, rfl⟩
      · exact .inr (.inl rfl)
  · exact h

theorem setArg (h : Ledger accepted served Lost rs) (i : Int) (a : Sp A) :
    Ledger accepted served Lost (Fifo.setArg i a rs) := by
  apply h.keep _ (fun _ hl => hl)
  · exact fun _ => .inl (pending_amend (fun _ => rfl) fun _ => rfl)
  · intro r' hr'
    rcases mem_amend hr' with hr | ⟨r, hr, -, rfl⟩
    · exact .inl ⟨r', hr, rfl, rfl, rfl⟩
    · exact .inl ⟨r, hr, rfl, rfl, rfl⟩

/-- `erase` throws away what waits in one stream. -/
theorem erase (h : Ledger accepted served Lost rs) {i : Int} {err : BitVec 32}
    (hsub : ∀ id, Lost id → Lost' id) (hlost : i ∈ ids rs → Lost' i) :
    Ledger accepted served Lost' (Fifo.erase i err rs).2 := by
  apply h.keep _ hsub
  · intro id
    rw [pending_erase]
    split
    · rename_i heq
      subst heq
      exact .inr ⟨rfl, hlost⟩
    · exact .inl rfl
  · intro r' hr'
    unfold Fifo.erase at hr'
    split at hr'
    · rcases mem_amend hr' with hr | ⟨r, hr, -, rfl⟩
      · exact .inl ⟨r', hr, rfl, rfl, rfl⟩
      · refine .inr (.inr ⟨rfl, ?_⟩)
        show Record.erasedState err ≠ .uncompleted
        unfold Record.erasedState
        split
        · simp
        · simp
    · exact .inl ⟨r', hr', rfl, rfl, rfl⟩

/-- `clear` throws away what waits in all of them. -/
theorem clear (h : Ledger accepted served Lost rs) (hsub : ∀ id, Lost id → Lost' id)
    (hlost : ∀ id ∈ ids rs, Lost' id) : Ledger accepted served Lost' (Fifo.clear rs).2 := by
  apply h.keep _ hsub
  · exact fun id => .inr ⟨pending_clear, hlost id⟩
  · intro r' hr'
    obtain ⟨r, -, rfl⟩ := List.mem_map.mp hr'
    exact .inr (.inr ⟨rfl, by simp [Record.erase, Record.erasedState]⟩)

theorem close (h : Ledger accepted served Lost rs) (hsub : ∀ id, Lost id → Lost' id)
    (hlost : ∀ id ∈ ids rs, Lost' id) :
    Ledger accepted served Lost' ([] : List (Record T A)) := by
  apply h.keep _ hsub
  · exact fun id => .inr ⟨pending_of_notMem List.not_mem_nil, hlost id⟩
  · intro r' hr'
    cases hr'

/-- `stream` accepts its data if it returns true. -/
theorem stream (h : Ledger accepted served Lost rs) (hnd : (ids rs).Nodup) (i : Int) (d : Sp T) :
    Ledger (fun id => accepted id ++ if (Fifo.stream i d rs).1 = true ∧ i = id then [d] else [])
      served Lost (Fifo.stream i d rs).2 := by
  have hrefused : Fifo.stream i d rs = (false, rs) →
      Ledger (fun id => accepted id ++ if (Fifo.stream i d rs).1 = true ∧ i = id then [d] else [])
        served Lost (Fifo.stream i d rs).2 := by
    intro heq
    simp only [heq, Bool.false_eq_true, false_and, if_false, List.append_nil]
    exact h
  cases hfind : find i rs with
  | none => exact hrefused (stream_of_notMem d (find_eq_none.mp hfind))
  | some r =>
      by_cases hst : r.state = .uncompleted
      · obtain ⟨hr, rfl⟩ := mem_of_find hfind
        have hwhole := h.growing r hr hst
        have hpush : ∀ r' ∈ amend r.id (Record.push d) rs, r' = r.push d ∨ r' ∈ rs ∧ r'.id ≠ r.id := by
          intro r' hr'
          obtain ⟨r₀, hr₀, rfl⟩ := List.mem_map.mp hr'
          split
          · rename_i hid
            rw [eq_of_mem_of_id hnd hr₀ hr hid]
            exact .inl rfl
          · rename_i hid
            exact .inr ⟨hr₀, hid⟩
        have hpend : ∀ id, pending id (amend r.id (Record.push d) rs) =
            pending id rs ++ if r.id = id then [d] else [] := by
          intro id
          by_cases hid : r.id = id
          · subst hid
            rw [pending_of_find (find_amend_self _ (Record.push_id d) hfind),
              pending_of_find hfind, if_pos rfl]
            rfl
          · rw [if_neg hid, List.append_nil, pending,
              find_amend_of_ne _ (Record.push_id d) (Ne.symm hid)]
            rfl
        simp only [stream_of_uncompleted d hfind hst, true_and]
        constructor
        · intro r' hr'
          rcases hpush r' hr' with rfl | ⟨hmem, -⟩
          · exact .inl (.inl hst)
          · exact h.emptied r' hmem
        · intro r' hr' hun
          rcases hpush r' hr' with rfl | ⟨hmem, hne⟩
          · simp only [Record.push_id, if_true, ← hwhole]
            simp [Record.push]
          · rw [if_neg (Ne.symm hne), List.append_nil]
            exact h.growing r' hmem hun
        · intro id
          rw [hpend]
          by_cases hid : r.id = id
          · subst hid
            rw [if_pos rfl, ← hwhole, pending_of_find hfind, List.append_assoc]
          · rw [if_neg hid, List.append_nil, List.append_nil]
            exact h.le id
        · intro id hid
          rw [hpend, ← List.append_assoc, h.whole id hid]
      · exact hrefused (stream_of_closed d hfind hst)

/-- The oldest data of the stream in front is taken. -/
theorem serve {r : Record T A} {d : Sp T} {ds : List (Sp T)}
    (h : Ledger accepted served Lost (r :: rs)) (hne : r.id ∉ ids rs) (hst : r.Served)
    (hpend : r.pending = d :: ds) :
    Ledger accepted (fun id => served id ++ if r.id = id then [d] else []) Lost
      ({ r with pending := ds } :: rs) := by
  have hmove : ∀ id, (served id ++ if r.id = id then [d] else []) ++
      pending id ({ r with pending := ds } :: rs) = served id ++ pending id (r :: rs) := by
    intro id
    by_cases hid : r.id = id
    · subst hid
      have hhead : pending r.id ({ r with pending := ds } :: rs) = ds :=
        pending_head (r := { r with pending := ds })
      rw [if_pos rfl, hhead, pending_head, hpend]
      simp
    · have htail : pending id ({ r with pending := ds } :: rs) = pending id rs :=
        pending_cons_of_ne (r := { r with pending := ds }) hid
      rw [if_neg hid, htail, pending_cons_of_ne hid, List.append_nil]
  constructor
  · intro r' hr'
    rcases List.mem_cons.mp hr' with rfl | hr'
    · exact .inl hst
    · exact h.emptied r' (List.mem_cons_of_mem _ hr')
  · intro r' hr' hun
    rcases List.mem_cons.mp hr' with rfl | hr'
    · have hgrow := h.growing r List.mem_cons_self hun
      rw [hpend] at hgrow
      rw [← hgrow]
      simp
    · have hgrow := h.growing r' (List.mem_cons_of_mem _ hr') hun
      have hid : r.id ≠ r'.id := fun heq => hne (heq ▸ mem_ids_of_mem hr')
      rw [if_neg hid, List.append_nil]
      exact hgrow
  · intro id
    rw [hmove]
    exact h.le id
  · intro id hid
    rw [hmove]
    exact h.whole id hid

/-- A pop serves the stream in front. -/
theorem pop (h : Ledger accepted served Lost rs) (hnd : (ids rs).Nodup) (out : PopArgs T) :
    Ledger accepted
      (fun id => served id ++ taken id ((Fifo.pop out rs).1, (Fifo.pop out rs).2.1)) Lost
      (Fifo.pop out rs).2.2 := by
  cases rs with
  | nil =>
      have hnone : ∀ id, taken id ((Fifo.pop out ([] : List (Record T A))).1,
          (Fifo.pop out ([] : List (Record T A))).2.1) = [] := fun id => taken_of_ne (by simp [Fifo.pop])
      simp only [hnone, List.append_nil]
      exact h
  | cons r rs =>
      -- a pop that takes no data leaves the accounts as they are
      have hother : ∀ {t : PopType} {out' : PopArgs T} {rs' : List (Record T A)},
          t ≠ .data → Fifo.pop out (r :: rs) = (t, out', rs') →
          Ledger accepted served Lost rs' →
          Ledger accepted
            (fun id => served id ++ taken id ((Fifo.pop out (r :: rs)).1, (Fifo.pop out (r :: rs)).2.1))
            Lost (Fifo.pop out (r :: rs)).2.2 := by
        intro t out' rs' ht heq hled
        have hnone : ∀ id, taken id (t, out') = [] := fun id => taken_of_ne ht
        simp only [heq, hnone, List.append_nil]
        exact hled
      have hnotMem : r.id ∉ ids rs := (List.nodup_cons.mp hnd).1
      have htail : r.pending = [] → Ledger accepted served Lost rs := by
        intro hnil
        have hpend : ∀ id, pending id rs = pending id (r :: rs) := by
          intro id
          by_cases hid : r.id = id
          · subst hid
            rw [pending_head, hnil, pending_of_notMem hnotMem]
          · rw [pending_cons_of_ne hid]
        exact h.keep (fun r' hr' => .inl ⟨r', List.mem_cons_of_mem _ hr', rfl, rfl, rfl⟩)
          (fun _ hl => hl) fun id => .inl (hpend id)
      have hstart : Ledger accepted served Lost ({ r with polling := true } :: rs) := by
        apply h.keep _ (fun _ hl => hl)
        · intro id
          refine .inl ?_
          by_cases hid : r.id = id
          · subst hid
            rw [pending_head]
            exact pending_head (r := { r with polling := true })
          · rw [pending_cons_of_ne hid]
            exact pending_cons_of_ne (r := { r with polling := true }) hid
        · intro r' hr'
          rcases List.mem_cons.mp hr' with rfl | hr'
          · exact .inl ⟨r, List.mem_cons_self, rfl, rfl, rfl⟩
          · exact .inl ⟨r', List.mem_cons_of_mem _ hr', rfl, rfl, rfl⟩
      have hserved : r.Served → Ledger accepted
            (fun id => served id ++ taken id ((Fifo.pop out (r :: rs)).1, (Fifo.pop out (r :: rs)).2.1))
            Lost (Fifo.pop out (r :: rs)).2.2 := by
        intro hst
        cases hpoll : r.polling with
        | false => exact hother (by simp) (pop_start out hst hpoll) hstart
        | true =>
            cases hpend : r.pending with
            | nil =>
                rcases hst with hst | hst
                · exact hother (by simp) (pop_wait out hst hpoll hpend) h
                · exact hother (by simp) (pop_end out hst hpoll hpend) (htail hpend)
            | cons d ds =>
                have hdata := h.serve hnotMem hst hpend
                rw [pop_data out hst hpoll hpend]
                simpa [taken] using hdata
      cases hst : r.state with
      | deleted =>
          have hnil : r.pending = [] := by
            rcases h.emptied r List.mem_cons_self with hs | hnil
            · simp [Record.Served, hst] at hs
            · exact hnil
          exact hother (by simp) (pop_removed out hst) (htail hnil)
      | error e =>
          have hnil : r.pending = [] := by
            rcases h.emptied r List.mem_cons_self with hs | hnil
            · simp [Record.Served, hst] at hs
            · exact hnil
          exact hother (by simp) (pop_error out hst) (htail hnil)
      | uncompleted => exact hserved (.inl hst)
      | completed => exact hserved (.inr hst)

end Ledger

end Fifo

end OpenVoice
