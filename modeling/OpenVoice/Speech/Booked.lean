import OpenVoice.Speech.Wire

/-!
# The accounts along a session

Every step keeps the accounts of the voice requests, and nothing of a voice request is dropped
while its operation is current.
-/

namespace OpenVoice

open OpenVoice.Lib

namespace SpeechImpl

open Wire

/-- What is known of a state of a session and of the events that have led to it. -/
structure Booked (s : SpeechImpl) (tr : List WireEvent) : Prop where
  requests : Requests s
  accounts : Accounts tr s.voiceReqs
  fresh : ∀ id, accepted id tr ≠ [] → id ≤ s.nextId
  served : ∀ id, taken id tr ≠ [] → id ∈ s.created
  dropped : s.initialized = true → ∀ id, .dropped id ∈ tr → id ∈ s.created
  /-- The voice request that is current has not been dropped, -/
  kept : s.initialized = true → ∀ a, s.controller.currentOp = some a →
    .dropped (s.controller.heap a).id ∉ tr
  /-- and will not be. -/
  erasing : ∀ id, s.gen = .eraseReq id → ∀ a, s.controller.currentOp = some a →
    (s.controller.heap a).id ≠ id

/-! ### The queue, thread by thread -/

theorem acceptedPieces_of_notMem {id : Int} {q : Streams Bytes VoiceOptions}
    (h : id ∉ q.keys.map Prod.fst) (ps : List Bytes) : acceptedPieces id ps q = [] := by
  induction ps generalizing q with
  | nil => rfl
  | cons piece ps ih =>
      have hret : (q.stream id (some piece)).1 = false := by
        rw [Streams.stream_fst, Fifo.stream_of_notMem]
        rw [Streams.keys, Fifo.keys_fst] at h
        exact h
      have hrest : id ∉ (q.stream id (some piece)).2.keys.map Prod.fst := by
        rw [Streams.stream_keys]
        exact h
      unfold acceptedPieces
      simp only
      rw [hret, ih hrest]
      rfl

theorem mem_erased {s : SpeechImpl} {id i : Int} (h : i ∈ s.erased id) :
    i = id ∧ i ∈ Fifo.ids s.voiceReqs.records := by
  unfold erased at h
  split at h
  · rename_i hid
    obtain rfl := List.mem_singleton.mp h
    exact ⟨rfl, hid⟩
  · cases h

theorem mem_erased_self {s : SpeechImpl} {id : Int} (h : id ∈ Fifo.ids s.voiceReqs.records) :
    id ∈ s.erased id := by
  unfold erased
  rw [if_pos h]
  exact List.mem_cons_self

theorem dropped_mem_map {ids : List Int} {id : Int}
    (h : WireEvent.dropped id ∈ ids.map .dropped) : id ∈ ids := by
  obtain ⟨i, hi, heq⟩ := List.mem_map.mp h
  cases heq
  exact hi

theorem cancelReq_accounts {s t : SpeechImpl} {tr : List WireEvent} {id : Int} {more : Bool}
    (h : Accounts tr s.voiceReqs) (hst : s.cancelReq id = (more, t)) :
    Accounts (tr ++ (s.removed id).map .cancelled) t.voiceReqs := by
  unfold cancelReq at hst
  unfold removed
  split at hst
  · rename_i hinit
    cases hst
    rw [if_pos hinit, List.map_nil, List.append_nil]
    exact h
  · rename_i hinit
    rw [if_neg hinit]
    split at hst
    · rename_i hpos
      rw [if_pos hpos]
      have herase : Accounts (tr ++ (s.erased id).map .cancelled) (s.voiceReqs.erase id 0).2 :=
        h.erase (.inl rfl) mem_erased_self 0
      simp only at hst
      split at hst
      · cases hst
        exact herase
      · split at hst
        · cases hst
          exact herase
        · cases hst
          exact herase
    · rename_i hpos
      rw [if_neg hpos]
      cases hst
      exact h.clear

/-- Nobody but `erase_req` touches the voice requests in `gen_results`. -/
theorem genStep_voiceReqs {s t : SpeechImpl} {r : ConnectionOpResult} {resp : SpeechResponse}
    (h : s.genStep r resp = some t) :
    t.voiceReqs = s.voiceReqs ∧ s.genEvents = [] ∨
      ∃ id, s.gen = .eraseReq id ∧ t.voiceReqs = (s.voiceReqs.erase id SpeechError.timeout).2 ∧
        t.controller = s.controller := by
  unfold genStep at h
  unfold genEvents
  split at h
  · rename_i hpc
    rw [hpc]
    split at h
    · cases h
      exact .inl ⟨rfl, rfl⟩
    · cases h
  · rename_i hpc
    rw [hpc]
    split at h
    · split at h
      · cases h
        exact .inl ⟨rfl, rfl⟩
      · cases h
        exact .inl ⟨rfl, rfl⟩
    · cases h
  · rename_i r' resp' hpc
    rw [hpc]
    have heq := (handleResult_section r' resp' s).eq
    split at h
    · split at h
      · rename_i id u hres
        rw [hres] at heq
        cases h
        simp only at heq
        rw [heq]
        exact .inl ⟨rfl, rfl⟩
      · rename_i u hres
        rw [hres] at heq
        cases h
        simp only at heq
        rw [heq]
        exact .inl ⟨rfl, rfl⟩
    · cases h
  · rename_i id hpc
    split at h
    · cases h
      exact .inr ⟨id, hpc, rfl, rfl⟩
    · cases h
  · cases h

theorem takeReq_voiceReqs (s : SpeechImpl) :
    s.takeReq.voiceReqs =
      if s.initialized = true then (s.voiceReqs.pop voiceArgs).2 else s.voiceReqs := by
  unfold takeReq
  cases hinit : s.initialized with
  | false => rfl
  | true =>
      simp only [Bool.not_true, Bool.false_eq_true, if_false, if_true]
      split
      · split
        · rfl
        · rfl
      · split
        · rfl
        · rfl

theorem takeReq_eq (s : SpeechImpl) :
    s.takeReq = { s with
      voiceReqs := s.takeReq.voiceReqs, send := s.takeReq.send, aborted := s.takeReq.aborted } := by
  unfold takeReq
  split
  · rfl
  · simp only
    split
    · split
      · rfl
      · rfl
    · split
      · rfl
      · rfl

/-- **What an iteration of `send_reqs` takes.** -/
inductive Takes (s : SpeechImpl) : SpeechImpl → Prop where
  | none {q : Streams Bytes VoiceOptions} {pc : SendPc}
      (hempty : (s.voiceReqs.pop voiceArgs).1.1 = .empty) (hq : q.keys = s.voiceReqs.keys)
      (hpc : pc = .waitReq ∨ pc = .textCheck) :
      Takes s { s with voiceReqs := q, send := pc }
  | voice {q : Streams Bytes VoiceOptions} {info : SpeechReqInfo}
      (hid : info.id = (s.voiceReqs.pop voiceArgs).1.2.id)
      (hdata : info.data = (s.voiceReqs.pop voiceArgs).1.2.res)
      (htype : info.type = reqtype (s.voiceReqs.pop voiceArgs).1.1)
      (hpop : Popped info.id s.voiceReqs.keys q.keys (s.voiceReqs.pop voiceArgs).1.1) :
      Takes s { s with voiceReqs := q, send := .doCtl info }

theorem Takes.keys_subset {s t : SpeechImpl} (h : Takes s t) :
    ∀ id ∈ t.voiceReqs.keys.map Prod.fst, id ∈ s.voiceReqs.keys.map Prod.fst := by
  intro id hid
  cases h with
  | none hempty hq hpc =>
      rw [hq] at hid
      exact hid
  | voice hinfo hdata htype hpop => exact hpop.fst_sublist.subset hid

theorem takeReq_takes {s : SpeechImpl} (hinit : s.initialized = true) : Takes s s.takeReq := by
  unfold takeReq
  rw [if_neg (by simp [hinit])]
  simp only
  rcases s.voiceReqs.pop_keys voiceArgs with ⟨ht, hks⟩ | hpop
  · rw [ht]
    simp only [PopType.toInt, Int.reduceNeg, Int.reduceLE, if_false]
    split
    · exact .none ht hks (.inl rfl)
    · exact .none ht hks (.inr rfl)
  · have htype : 0 ≤ (s.voiceReqs.pop voiceArgs).1.1.toInt ∧
        sqtypeToReqtype (s.voiceReqs.pop voiceArgs).1.1.toInt =
          some (reqtype (s.voiceReqs.pop voiceArgs).1.1) := by
      generalize (s.voiceReqs.pop voiceArgs).1.1 = t at hpop
      cases hpop with
      | start => exact ⟨by decide, rfl⟩
      | data => exact ⟨by decide, rfl⟩
      | end_ => exact ⟨by decide, rfl⟩
      | removed => exact ⟨by decide, rfl⟩
      | error => exact ⟨by decide, rfl⟩
    rw [if_pos htype.1, htype.2]
    exact .voice rfl rfl rfl hpop

/-! ### Every step -/

namespace Booked

variable {s t : SpeechImpl} {tr es : List WireEvent}

theorem opened : Booked opened [] where
  requests := .opened
  accounts := .empty
  fresh := by
    intro id hid
    exact absurd rfl hid
  served := by
    intro id hid
    exact absurd rfl hid
  dropped := by
    intro _ id hid
    cases hid
  kept := by
    intro _ a ha
    cases ha
  erasing := by
    intro id hid
    cases hid

/-- A step, by what it does to the accounts and to the current operation. -/
theorem next (h : Booked s tr) (hreq : Requests t) (hacc : Accounts (tr ++ es) t.voiceReqs)
    (hnext : s.nextId ≤ t.nextId) (hcr : ∀ id ∈ s.created, id ∈ t.created)
    (hinit : t.initialized = true → s.initialized = true)
    (hfresh : ∀ id, accepted id es ≠ [] → id ≤ t.nextId)
    (htaken : ∀ id, taken id es ≠ [] → id ∈ t.created)
    (hdrop : t.initialized = true → ∀ id, .dropped id ∈ es → id ∈ t.created ∧
      ∀ a, t.controller.currentOp = some a → (t.controller.heap a).id ≠ id)
    (hcur : ∀ a, t.controller.currentOp = some a →
      s.controller.currentOp = some a ∧ (t.controller.heap a).id = (s.controller.heap a).id ∨
        (t.controller.heap a).id ∉ s.created)
    (hgen : ∀ id, t.gen = .eraseReq id → s.gen = .eraseReq id ∨ t.controller.currentOp = none) :
    Booked t (tr ++ es) where
  requests := hreq
  accounts := hacc
  fresh := by
    intro id hid
    rw [accepted_append] at hid
    by_cases hold : accepted id tr = []
    · rw [hold, List.nil_append] at hid
      exact hfresh id hid
    · exact Int.le_trans (h.fresh id hold) hnext
  served := by
    intro id hid
    rw [taken_append] at hid
    by_cases hold : taken id tr = []
    · rw [hold, List.nil_append] at hid
      exact htaken id hid
    · exact hcr id (h.served id hold)
  dropped := by
    intro hi id hid
    rcases List.mem_append.mp hid with hid | hid
    · exact hcr id (h.dropped (hinit hi) id hid)
    · exact (hdrop hi id hid).1
  kept := by
    intro hi a ha hmem
    rcases List.mem_append.mp hmem with hmem | hmem
    · rcases hcur a ha with ⟨ha', hid⟩ | hnew
      · rw [hid] at hmem
        exact h.kept (hinit hi) a ha' hmem
      · exact hnew (h.dropped (hinit hi) _ hmem)
    · exact (hdrop hi _ hmem).2 a ha rfl
  erasing := by
    intro id hid a ha
    rcases hgen id hid with hold | hnone
    · rcases hcur a ha with ⟨ha', heq⟩ | hnew
      · rw [heq]
        exact h.erasing id hold a ha'
      · rintro rfl
        exact hnew (h.requests.erasing _ hold)
    · rw [hnone] at ha
      cases ha

/-- A step that leaves the voice requests alone. -/
theorem calm (h : Booked s tr) (hreq : Requests t) (hes : Outside es)
    (hq : t.voiceReqs = s.voiceReqs) (hnext : s.nextId ≤ t.nextId)
    (hcr : ∀ id ∈ s.created, id ∈ t.created)
    (hinit : t.initialized = true → s.initialized = true)
    (hcur : ∀ a, t.controller.currentOp = some a →
      s.controller.currentOp = some a ∧ (t.controller.heap a).id = (s.controller.heap a).id ∨
        (t.controller.heap a).id ∉ s.created)
    (hgen : ∀ id, t.gen = .eraseReq id → s.gen = .eraseReq id ∨ t.controller.currentOp = none) :
    Booked t (tr ++ es) := by
  apply h.next hreq _ hnext hcr hinit _ _ _ hcur hgen
  · rw [hq]
    exact h.accounts.outside hes
  · exact fun id hid => absurd (hes.accepted id) hid
  · exact fun id hid => absurd (hes.taken id) hid
  · exact fun _ id hid => absurd hid hes.not_dropped

/-- The same for one that is quiet. -/
theorem still (h : Booked s tr) (hreq : Requests t) (hes : Outside es)
    (hq : t.voiceReqs = s.voiceReqs) (hnext : s.nextId ≤ t.nextId) (hcr : t.created = s.created)
    (hinit : t.initialized = true → s.initialized = true)
    (hquiet : s.controller.Quiet t.controller)
    (hgen : ∀ id, t.gen = .eraseReq id → s.gen = .eraseReq id ∨ t.controller.currentOp = none) :
    Booked t (tr ++ es) := by
  apply h.calm hreq hes hq hnext _ hinit _ hgen
  · intro id hid
    rw [hcr]
    exact hid
  · exact fun a ha => .inl ⟨hquiet.current_some ha, hquiet.heap_id a⟩

/-- A client works on the voice requests; `es` are the chunks that are accepted and the requests
    that are cancelled. -/
theorem voices (h : Booked s tr) (hreq : Requests t) (hacc : Accounts (tr ++ es) t.voiceReqs)
    (hes : ∀ e ∈ es, (∃ id ∈ s.voiceReqs.keys.map Prod.fst, ∃ voice, e = .accepted id voice) ∨
      ∃ id, e = .cancelled id)
    (hnext : s.nextId ≤ t.nextId) (hcr : t.created = s.created)
    (hinit : t.initialized = s.initialized) (hc : t.controller = s.controller)
    (hgen : t.gen = s.gen) : Booked t (tr ++ es) := by
  have hle : ∀ id ∈ s.voiceReqs.keys.map Prod.fst, id ≤ s.nextId :=
    fun id hid => h.requests.labels.starts_le id (h.requests.labels.keys id hid)
  apply h.next hreq hacc hnext
  · intro id hid
    rw [hcr]
    exact hid
  · rw [hinit]
    exact id
  · intro id hid
    obtain ⟨d, hd⟩ := List.exists_mem_of_ne_nil _ hid
    obtain ⟨e, he, hsome⟩ := List.mem_filterMap.mp hd
    rcases hes e he with ⟨i, hi, voice, rfl⟩ | ⟨i, rfl⟩
    · simp only at hsome
      split at hsome
      · rename_i heq
        subst heq
        exact Int.le_trans (hle i hi) hnext
      · cases hsome
    · cases hsome
  · intro id hid
    obtain ⟨d, hd⟩ := List.exists_mem_of_ne_nil _ hid
    obtain ⟨e, he, hsome⟩ := List.mem_filterMap.mp hd
    rcases hes e he with ⟨i, -, voice, rfl⟩ | ⟨i, rfl⟩
    · cases hsome
    · cases hsome
  · intro _ id hid
    rcases hes _ hid with ⟨i, -, voice, heq⟩ | ⟨i, heq⟩
    · cases heq
    · cases heq
  · intro a ha
    rw [hc] at ha ⊢
    exact .inl ⟨ha, rfl⟩
  · intro id hid
    rw [hgen] at hid
    exact .inl hid

theorem release (h : Booked s tr) (hst : s.release = some t) :
    Booked t (tr ++ s.releaseEvents) := by
  have hreq := h.requests.release hst
  have hgen : ∀ id, s.gen = .eraseReq id → s.gen = .eraseReq id ∨ t.controller.currentOp = none :=
    fun _ hg => .inl hg
  have hother : s.releasing ≠ .closing → s.releaseEvents = [] := fun hne => if_neg hne
  cases release_move hst with
  | absent hrel hinit =>
      rw [hother (by simp [hrel]), List.append_nil]
      exact h
  | enter hrel hinit =>
      rw [hother (by simp [hrel])]
      exact h.still hreq .nil rfl (Int.le_refl _) rfl (fun hi => by cases hi) (.refl _) hgen
  | close hrel =>
      have hclosed : s.initialized = false := h.requests.inv.releasing (by simp [hrel])
      have hes : s.releaseEvents = (Fifo.ids s.voiceReqs.records).map .dropped := if_pos hrel
      rw [hes]
      apply h.next hreq h.accounts.close (Int.le_refl _) (fun _ hid => hid) (fun hi => hi)
      · intro id hid
        exact absurd (Accounts.not_accepted_map (.inr rfl) id).1 hid
      · intro id hid
        exact absurd (Accounts.not_accepted_map (.inr rfl) id).2 hid
      · intro hi
        have hi' : s.initialized = true := hi
        rw [hclosed] at hi'
        cases hi'
      · exact fun a ha => .inl ⟨ha, rfl⟩
      · exact fun _ hg => .inl hg
  | setError hrel =>
      rw [hother (by simp [hrel])]
      exact h.still hreq .nil rfl (Int.le_refl _) rfl (fun hi => hi) (.setOpError _ _) hgen
  | joinReq hrel hdone =>
      rw [hother (by simp [hrel])]
      exact h.still hreq .nil rfl (Int.le_refl _) rfl (fun hi => hi) (.refl _) hgen
  | closeResp hrel hfree =>
      rw [hother (by simp [hrel])]
      exact h.still hreq .nil rfl (Int.le_refl _) rfl (fun hi => hi) (.finishOp _) hgen
  | joinResp hrel hdone =>
      rw [hother (by simp [hrel])]
      exact h.still hreq .nil rfl (Int.le_refl _) rfl (fun hi => hi) (.refl _) hgen

theorem call (h : Booked s tr) {n : Nat} {c : SpeechCall} (hst : s.call n c = some t) :
    Booked t (tr ++ []) := by
  have hreq := h.requests.call hst
  cases call_move hst with
  | stay =>
      rw [List.append_nil]
      exact h
  | enter hidle hheld hpc =>
      exact h.still hreq .nil rfl (Int.le_refl _) rfl (fun hi => hi) (.refl _) fun _ hg => .inl hg
  | cancel id hidle =>
      exact h.still hreq .nil rfl (Int.le_refl _) rfl (fun hi => hi) (.refl _) fun _ hg => .inl hg

theorem client (h : Booked s tr) {n : Nat} (hok : AtomicIncr s (.client n))
    (hst : s.client n = some t) : Booked t (tr ++ s.clientEvents n) := by
  have hreq := h.requests.client hok hst
  unfold SpeechImpl.client at hst
  unfold clientEvents
  simp only at hst
  split at hst
  · cases hst
  · rename_i hpc
    rw [hpc]
    cases hst
    exact h.still hreq .nil rfl (Int.le_refl _) rfl (fun hi => hi) (.refl _) fun _ hg => .inl hg
  · rename_i text options loaded hpc
    rw [hpc]
    obtain rfl := hok.store hpc
    cases hst
    exact h.still hreq .nil rfl (Int.le_of_lt (Int.lt_succ _)) rfl (fun hi => hi) (.refl _)
      fun _ hg => .inl hg
  · rename_i hpc
    rw [hpc]
    split at hst
    · cases hst
      exact h.still hreq .nil rfl (Int.le_refl _) rfl (fun hi => hi) (.refl _) fun _ hg => .inl hg
    · cases hst
  · rename_i hpc
    rw [hpc]
    split at hst
    · cases hst
      exact h.still hreq .nil rfl (Int.le_refl _) rfl (fun hi => hi) (.refl _) fun _ hg => .inl hg
    · cases hst
  · rename_i options loaded hpc
    rw [hpc]
    obtain rfl := hok.storeVoice hpc
    have hnew : accepted (s.nextId + 1) tr = [] := by
      by_contra hne
      have hle := h.fresh _ hne
      omega
    unfold startVoice at hst
    simp only at hst
    split at hst
    · rename_i u heq
      split at heq
      · cases heq
        cases hst
        apply h.voices hreq _ (fun e he => by cases he) (Int.le_of_lt (Int.lt_succ _)) rfl rfl rfl
          rfl
        rw [List.append_nil]
        exact (h.accounts.start hnew).setArg _ _
      · cases heq
    · rename_i u heq
      split at heq
      · cases heq
      · cases heq
        cases hst
        apply h.voices hreq _ (fun e he => by cases he) (Int.le_of_lt (Int.lt_succ _)) rfl rfl rfl
          rfl
        rw [List.append_nil]
        exact h.accounts.start hnew
  · rename_i id voice hpc
    rw [hpc]
    split at hst
    · unfold putVoice at hst
      simp only at hst
      split at hst
      · cases hst
      · cases hst
        apply h.voices hreq (h.accounts.pieces id _) _ (Int.le_refl _) rfl rfl rfl rfl
        intro e he
        obtain ⟨piece, hpiece, rfl⟩ := List.mem_map.mp he
        by_cases hid : id ∈ s.voiceReqs.keys.map Prod.fst
        · exact .inl ⟨id, hid, piece, rfl⟩
        · rw [acceptedPieces_of_notMem hid] at hpiece
          cases hpiece
    · cases hst
  · rename_i id hpc
    rw [hpc]
    split at hst
    · cases hst
      apply h.voices hreq _ (fun e he => by cases he) (Int.le_refl _) rfl rfl rfl rfl
      rw [List.append_nil]
      exact h.accounts.end_ id none
    · cases hst
  · rename_i id hpc
    rw [hpc]
    have hes : ∀ e ∈ (s.removed id).map WireEvent.cancelled,
        (∃ i ∈ s.voiceReqs.keys.map Prod.fst, ∃ voice, e = .accepted i voice) ∨
          ∃ i, e = .cancelled i := by
      intro e he
      obtain ⟨i, -, rfl⟩ := List.mem_map.mp he
      exact .inr ⟨i, rfl⟩
    obtain ⟨q, texts, hspec, -⟩ := cancelReq_spec id (s.setClient n .idle)
    split at hst
    · have hacc : ∀ {more : Bool} {u : SpeechImpl}, (s.setClient n .idle).cancelReq id = (more, u) →
          Accounts (tr ++ (s.removed id).map .cancelled) u.voiceReqs :=
        fun heq => cancelReq_accounts (s := s.setClient n .idle) h.accounts heq
      split at hst
      · rename_i u heq
        have hq := hacc heq
        rw [heq] at hspec
        simp only at hspec
        subst hspec
        cases hst
        exact h.voices hreq hq hes (Int.le_refl _) rfl rfl rfl rfl
      · rename_i u heq
        have hq := hacc heq
        rw [heq] at hspec
        simp only at hspec
        subst hspec
        cases hst
        exact h.voices hreq hq hes (Int.le_refl _) rfl rfl rfl rfl
    · cases hst
  · rename_i id hpc
    rw [hpc]
    split at hst
    · cases hst
      obtain ⟨k, heq⟩ := cancelOp_spec id (s.setClient n .idle)
      rw [heq] at hreq ⊢
      exact h.still hreq .nil rfl (Int.le_refl _) rfl (fun hi => hi) (.cancelOp _ _)
        fun _ hg => .inl hg
    · cases hst

theorem gen (h : Booked s tr) {r : ConnectionOpResult} {resp : SpeechResponse}
    (hst : s.genStep r resp = some t) : Booked t (tr ++ s.genEvents) := by
  have hreq := h.requests.gen hst
  obtain ⟨-, -, herase⟩ := genStep_more hst
  obtain ⟨c, q, v, k, pc, hquiet, -, heq⟩ := genStep_spec hst
  rcases genStep_voiceReqs hst with ⟨hv, hes⟩ | ⟨id, hpc, hv, hc⟩
  · rw [hes]
    subst heq
    exact h.still hreq .nil hv (Int.le_refl _) rfl (fun hi => hi) hquiet
      fun id hid => .inr (herase id hid).2
  · have hes : s.genEvents = (s.erased id).map .dropped := by
      unfold genEvents
      rw [hpc]
    have hacc : Accounts (tr ++ (s.erased id).map .dropped) t.voiceReqs := by
      rw [hv]
      exact h.accounts.erase (.inr rfl) mem_erased_self _
    rw [hes]
    subst heq
    apply h.next hreq hacc (Int.le_refl _) (fun _ hid => hid) (fun hi => hi)
    · intro x hx
      exact absurd (Accounts.not_accepted_map (.inr rfl) x).1 hx
    · intro x hx
      exact absurd (Accounts.not_accepted_map (.inr rfl) x).2 hx
    · intro _ x hx
      obtain ⟨rfl, -⟩ := mem_erased (dropped_mem_map hx)
      refine ⟨h.requests.erasing _ hpc, ?_⟩
      intro a ha
      simp only at hc
      simp only [hc] at ha ⊢
      exact h.erasing _ hpc a ha
    · exact fun a ha => .inl ⟨hquiet.current_some ha, hquiet.heap_id a⟩
    · exact fun x hx => .inr (herase x hx).2

theorem pollStep (h : Booked s tr) (hst : s.pollStep = some t) : Booked t (tr ++ []) := by
  have hreq := h.requests.pollStep hst
  unfold SpeechImpl.pollStep at hst
  split at hst
  · split at hst
    · split at hst
      · cases hst
        exact h.still hreq .nil rfl (Int.le_refl _) rfl (fun hi => hi) (.refl _) fun _ hg => .inl hg
      · rename_i u hpoll
        obtain ⟨c, q, rfl, hquiet⟩ := poll_eq hpoll
        cases hst
        exact h.still hreq .nil rfl (Int.le_refl _) rfl (fun hi => hi) hquiet fun _ hg => .inl hg
      · rename_i r u hpoll
        obtain ⟨c, q, rfl, hquiet⟩ := poll_eq hpoll
        cases hst
        exact h.still hreq .nil rfl (Int.le_refl _) rfl (fun hi => hi) hquiet fun _ hg => .inl hg
    · cases hst
      rw [List.append_nil]
      exact h
  · cases hst

/-- A request is taken from `voice_reqs_`, or none. -/
theorem takeReq (h : Booked s tr) (hpc : s.send = .loop) (hreq : Requests s.takeReq) :
    Booked s.takeReq (tr ++ s.sendEvents) := by
  have hmove := takeReq_eq s
  have hv := takeReq_voiceReqs s
  have hes : s.sendEvents =
      if s.initialized = true ∧ (s.voiceReqs.pop voiceArgs).1.1 = .data then
        [.taken (s.voiceReqs.pop voiceArgs).1.2.id (s.voiceReqs.pop voiceArgs).1.2.res] else [] := by
    unfold sendEvents
    rw [hpc]
  rw [hes]
  generalize s.takeReq = t at hreq hmove hv
  have hcur : ∀ a, t.controller.currentOp = some a →
      s.controller.currentOp = some a ∧ (t.controller.heap a).id = (s.controller.heap a).id ∨
        (t.controller.heap a).id ∉ s.created := by
    rw [hmove]
    exact fun a ha => .inl ⟨ha, rfl⟩
  have hgen : ∀ id, t.gen = .eraseReq id →
      s.gen = .eraseReq id ∨ t.controller.currentOp = none := by
    rw [hmove]
    exact fun _ hg => .inl hg
  have hsame : t.nextId = s.nextId ∧ t.created = s.created ∧ t.initialized = s.initialized := by
    rw [hmove]
    exact ⟨rfl, rfl, rfl⟩
  obtain ⟨hnext, hcr, hinit⟩ := hsame
  apply h.next hreq _ (Int.le_of_eq hnext.symm) (fun id hid => by rwa [hcr])
    (fun hi => by rwa [hinit] at hi) _ _ _ hcur hgen
  · rw [hv]
    cases hi : s.initialized with
    | false =>
        simp only [Bool.false_eq_true, false_and, if_false, List.append_nil]
        exact h.accounts
    | true =>
        simp only [true_and, if_true]
        exact h.accounts.pop voiceArgs
  · intro id hid
    split at hid
    · exact absurd rfl hid
    · exact absurd rfl hid
  · intro id hid
    rw [hcr]
    split at hid
    · rename_i hdata
      -- data is taken of a stream that has been started
      rcases s.voiceReqs.pop_keys voiceArgs with ⟨ht, -⟩ | hpop
      · rw [hdata.2] at ht
        cases ht
      · rw [hdata.2] at hpop
        cases hpop with
        | data hks hks' =>
            have hmem : ((s.voiceReqs.pop voiceArgs).1.2.id, true) ∈ s.voiceReqs.keys := by
              rw [hks]
              exact List.mem_cons_self
            have hc := h.requests.started_created hmem (by rw [hpc]; rfl)
            by_cases heq : (s.voiceReqs.pop voiceArgs).1.2.id = id
            · rwa [← heq]
            · simp [taken, heq] at hid
    · exact absurd rfl hid
  · intro _ id hid
    split at hid
    · simp at hid
    · cases hid

theorem send_step (h : Booked s tr) {r : ConnectionOpResult} (hst : s.sendStep r = some t) :
    Booked t (tr ++ s.sendEvents) := by
  have hreq := h.requests.send_step hst
  by_cases hloop : s.send = .loop
  · have heq : s.takeReq = t := by
      unfold sendStep at hst
      rw [hloop] at hst
      simp only at hst
      split at hst
      · exact Option.some.inj hst
      · cases hst
    subst heq
    exact h.takeReq hloop hreq
  · by_cases herase : ∃ id, s.send = .eraseReq id
    · obtain ⟨id, hpc⟩ := herase
      have hnone : s.controller.currentOp = none := by
        have hknows := h.requests.inv.send
        rw [hpc] at hknows
        exact hknows
      have hes : s.sendEvents = (s.erased id).map .dropped := by
        unfold sendEvents
        rw [hpc]
      unfold sendStep at hst
      rw [hpc] at hst
      simp only at hst
      split at hst
      · cases hst
        rw [hes]
        apply h.next hreq (h.accounts.erase (.inr rfl) mem_erased_self _) (Int.le_refl _)
          (fun _ hid => hid) (fun hi => hi)
        · intro x hx
          exact absurd (Accounts.not_accepted_map (.inr rfl) x).1 hx
        · intro x hx
          exact absurd (Accounts.not_accepted_map (.inr rfl) x).2 hx
        · intro _ x hx
          obtain ⟨rfl, -⟩ := mem_erased (dropped_mem_map hx)
          refine ⟨h.requests.worked _ (by rw [hpc]; rfl), ?_⟩
          intro a ha
          exact absurd (hnone.symm.trans ha) (by simp)
        · exact fun a ha => .inl ⟨ha, rfl⟩
        · exact fun _ hg => .inl hg
      · cases hst
    · -- elsewhere the queue is not touched
      have hes : Outside s.sendEvents := by
        unfold sendEvents
        split
        · rename_i hpc
          exact absurd hpc hloop
        · exact .handed _
        · rename_i id hpc
          exact absurd ⟨id, hpc⟩ herase
        · exact .nil
      have hcalm : ∀ {c : OpCtl SpeechError} {texts : List SpeechReqInfo} {k : Nat}
          {l : List SpeechRequest} {pc : SendPc} {b : Bool} {created : List Int},
          t = { s with
            controller := c, textReqs := texts, respNotifies := k, sent := l, send := pc
            crashed := b, created := created } →
          (∀ id ∈ s.created, id ∈ created) →
          (∀ a, c.currentOp = some a →
            s.controller.currentOp = some a ∧ (c.heap a).id = (s.controller.heap a).id ∨
              (c.heap a).id ∉ s.created) → Booked t (tr ++ s.sendEvents) := by
        rintro c texts k l pc b created rfl hcr hcur
        exact h.calm hreq hes rfl (Int.le_refl _) hcr (fun hi => hi) hcur fun _ hg => .inl hg
      have hquiet : ∀ {c : OpCtl SpeechError}, s.controller.Quiet c → ∀ a, c.currentOp = some a →
          s.controller.currentOp = some a ∧ (c.heap a).id = (s.controller.heap a).id ∨
            (c.heap a).id ∉ s.created :=
        fun hq a ha => .inl ⟨hq.current_some ha, hq.heap_id a⟩
      cases sendStep_move hst with
      | exit hpc hinit => exact absurd hpc hloop
      | takeVoice hpc hinit hpop htype => exact absurd hpc hloop
      | sleep hpc hinit hq => exact absurd hpc hloop
      | seeText hpc hinit hq => exact absurd hpc hloop
      | erase hpc hq => exact absurd ⟨_, hpc⟩ herase
      | abort hpc htype => cases hreq.inv.running
      | @create info hpc htype =>
          apply hcalm rfl fun _ hid => List.mem_append_left _ hid
          intro a ha
          obtain rfl : s.controller.fresh = a := by simpa using ha
          rw [OpCtl.newOp_heap_id]
          refine .inr (h.requests.inv.ids.queued_new _ ?_)
          have htaken : s.send.taken s.created = [info.id] :=
            SendPc.taken_of_opens (by rw [hpc]; rfl) htype
          rw [queuedIds, htaken]
          exact List.mem_cons_self
      | createCancelled hpc htype =>
          have hknows := h.requests.inv.send
          rw [hpc] at hknows
          have hnone : s.controller.currentOp = none := hknows.changeOp_none
          apply hcalm rfl fun _ hid => List.mem_append_left _ hid
          intro a ha
          rw [OpCtl.newOp_currentOp_cancelled, hnone] at ha
          cases ha
      | cancelCurrent hpc htype =>
          apply hcalm rfl fun _ hid => hid
          intro a ha
          cases ha
      | setError hpc => exact hcalm rfl (fun _ hid => hid) (hquiet (.setOpError _ _))
      | refresh hpc => exact hcalm rfl (fun _ hid => hid) (hquiet (.refreshOpTime _ _ _))
      | park hpc => exact hcalm rfl (fun _ hid => hid) fun a ha => .inl ⟨ha, rfl⟩
      | _ hpc => exact hcalm rfl (fun _ hid => hid) (hquiet (.refl _))

/-- **One step.** -/
theorem step (h : Booked s tr) {a : SpeechAct} (hok : OneSession s a) (hst : s.step a = some t) :
    Booked t (tr ++ s.wireEvents a) := by
  have hreq := h.requests.step hok hst
  unfold SpeechImpl.step at hst
  split at hst
  · cases hst
  · cases a with
    | prepare => exact absurd rfl hok.1
    | release => exact h.release hst
    | call n c => exact h.call hst
    | client n => exact h.client hok.2 hst
    | poll => exact h.pollStep hst
    | config mod =>
        cases hst
        cases mod with
        | none =>
            exact h.still hreq .nil rfl (Int.le_refl _) rfl (fun hi => hi) (.refl _)
              fun _ hg => .inl hg
        | some mod =>
            exact h.still hreq .nil rfl (Int.le_refl _) rfl (fun hi => hi) (.refl _)
              fun _ hg => .inl hg
    | send r => exact h.send_step hst
    | gen r resp => exact h.gen hst
    | tick ns =>
        cases hst
        exact h.still hreq .nil rfl (Int.le_refl _) rfl (fun hi => hi) (.refl _) fun _ hg => .inl hg

end Booked

end SpeechImpl

end OpenVoice
