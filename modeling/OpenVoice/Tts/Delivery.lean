import OpenVoice.Lib.Contiguous
import OpenVoice.Tts.Moves

/-!
# What a client of `TtsImpl` gets from `poll`

Within one session the results come in the order of the `speak` calls, those of one id stand
together, and each id gets a start, its voice data and one terminal result, or the terminal
result alone (`tts_delivery`).
-/

namespace OpenVoice

open OpenVoice.Lib

/-- The results that end a request. -/
def TtsResultType.isTerminal : TtsResultType → Bool
  | .end_ | .cancelled | .error => true
  | .voice | .start => false

namespace TtsImpl

/-- The ids of the terminal results, in the order `poll` returned them. -/
def terminals (l : List TtsResult) : List Int :=
  (l.filter (·.type.isTerminal)).map (·.id)

/-- The results of one id. -/
def typesOf (id : Int) (l : List TtsResult) : List TtsResultType :=
  (l.filter (·.id = id)).map (·.type)

/-- `START VOICE*` -/
def Begun (ts : List TtsResultType) : Prop := ∃ n, ts = .start :: List.replicate n .voice

/-- `(START VOICE*)? (END | CANCELLED | ERROR)`, `END` only after `START`. -/
def Finished (ts : List TtsResultType) : Prop :=
  ts = [.cancelled] ∨ ts = [.error] ∨
    ∃ b, Begun b ∧ (ts = b ++ [.end_] ∨ ts = b ++ [.cancelled] ∨ ts = b ++ [.error])

/-- What `poll` has returned is a delivery of the spoken ids. -/
structure DeliveryContract (spoken : List Int) (l : List TtsResult) : Prop where
  /-- the `k`-th terminal result is for the `k`-th id -/
  order : terminals l <+: spoken
  contiguous : Contiguous (l.map (·.id))
  finished : ∀ id ∈ terminals l, Finished (typesOf id l)
  unfinished : ∀ id, id ∉ terminals l → typesOf id l = [] ∨ Begun (typesOf id l)

/-- The delivery, with what it has to do with the operations and requests that are pending. -/
structure Delivering (v : List (Int × Bool)) (requests : List TtsReqInfo) (spoken : List Int)
    (l : List TtsResult) : Prop where
  order : terminals l ++ pendingIds v requests = spoken
  contiguous : Contiguous (l.map (·.id))
  finished : ∀ id ∈ terminals l, Finished (typesOf id l)
  /-- the operation in front is the one being served -/
  front : ∀ id rest, v = (id, true) :: rest →
    Begun (typesOf id l) ∧ (l.map (·.id)).getLast? = some id
  others : ∀ id, id ∉ terminals l → (∀ rest, v ≠ (id, true) :: rest) → typesOf id l = []
  tail : ∀ p ∈ v.tail, p.2 = false

section Lists

variable {l : List TtsResult} {r : TtsResult}

theorem terminals_snoc :
    terminals (l ++ [r]) = terminals l ++ if r.type.isTerminal then [r.id] else [] := by
  cases hr : r.type.isTerminal <;> simp [terminals, hr]

theorem typesOf_snoc_self : typesOf r.id (l ++ [r]) = typesOf r.id l ++ [r.type] := by
  simp [typesOf]

theorem typesOf_snoc_ne {id : Int} (h : id ≠ r.id) : typesOf id (l ++ [r]) = typesOf id l := by
  simp [typesOf, Ne.symm h]

theorem notMem_of_typesOf {id : Int} (h : typesOf id l = []) : id ∉ l.map (·.id) := by
  intro hmem
  obtain ⟨x, hx, rfl⟩ := List.mem_map.mp hmem
  have : x.type ∈ typesOf x.id l := by
    simp only [typesOf, List.mem_map, List.mem_filter]
    exact ⟨x, ⟨hx, by simp⟩, rfl⟩
  rw [h] at this
  cases this

theorem Begun.voice {ts : List TtsResultType} (h : Begun ts) : Begun (ts ++ [.voice]) := by
  obtain ⟨n, rfl⟩ := h
  refine ⟨n + 1, ?_⟩
  rw [List.replicate_succ', List.cons_append]

end Lists

namespace Delivering

variable {v v' : List (Int × Bool)} {requests : List TtsReqInfo} {spoken : List Int}
  {l : List TtsResult} {r : TtsResult}

theorem init : Delivering [] [] [] [] where
  order := rfl
  contiguous := .nil
  finished := by simp [terminals]
  front := by simp
  others := by simp [typesOf]
  tail := by simp

theorem contract (h : Delivering v requests spoken l) : DeliveryContract spoken l where
  order := ⟨_, h.order⟩
  contiguous := h.contiguous
  finished := h.finished
  unfinished := by
    intro id hid
    by_cases hfront : ∃ rest, v = (id, true) :: rest
    · obtain ⟨rest, hv⟩ := hfront
      exact .inr (h.front id rest hv).1
    · exact .inl (h.others id hid fun rest hv => hfront ⟨rest, hv⟩)

/-- More ids spoken. -/
theorem speak (h : Delivering v requests spoken l) (req : TtsReqInfo) :
    Delivering v (requests ++ [req]) (spoken ++ [req.id]) l where
  order := by
    rw [← h.order]
    simp [pendingIds]
  contiguous := h.contiguous
  finished := h.finished
  front := h.front
  others := h.others
  tail := h.tail

theorem requests_congr (h : Delivering v requests spoken l) {requests' : List TtsReqInfo}
    (hids : requests'.map (·.id) = requests.map (·.id)) : Delivering v requests' spoken l where
  order := by
    rw [pendingIds, hids]
    exact h.order
  contiguous := h.contiguous
  finished := h.finished
  front := h.front
  others := h.others
  tail := h.tail

/-- The oldest request becomes the newest operation. -/
theorem take {req : TtsReqInfo} (h : Delivering v (req :: requests) spoken l) :
    Delivering (v ++ [(req.id, false)]) requests spoken l where
  order := by
    rw [← h.order]
    simp [pendingIds]
  contiguous := h.contiguous
  finished := h.finished
  front := by
    intro id rest hv
    cases v with
    | nil => simp at hv
    | cons p v =>
        obtain ⟨rfl, -⟩ : p = (id, true) ∧ _ := by simpa using hv
        exact h.front id v rfl
  others := by
    intro id hid hv
    apply h.others id hid
    rintro rest rfl
    exact hv (rest ++ [(req.id, false)]) rfl
  tail := by
    intro p hp
    cases v with
    | nil => simp at hp
    | cons q v =>
        rw [List.cons_append, List.tail_cons, List.mem_append, List.mem_singleton] at hp
        rcases hp with hp | rfl
        · exact h.tail p hp
        · rfl

/-- The id in front has no terminal result yet and is pending only once. -/
theorem front_notMem (h : Delivering v requests spoken l) (hnd : spoken.Nodup) {id : Int}
    {b : Bool} {rest : List (Int × Bool)} (hv : v = (id, b) :: rest) : id ∉ terminals l := by
  rw [← h.order, List.nodup_append'] at hnd
  intro hmem
  apply hnd.2.2 hmem
  rw [hv]
  simp [pendingIds]

/-- The types polled for the id in front. -/
theorem front_types (h : Delivering v requests spoken l) (hnd : spoken.Nodup) {id : Int}
    {b : Bool} {rest : List (Int × Bool)} (hv : v = (id, b) :: rest) :
    typesOf id l = [] ∨ Begun (typesOf id l) ∧ (l.map (·.id)).getLast? = some id := by
  cases b with
  | true => exact .inr (h.front id rest hv)
  | false =>
      refine .inl (h.others id (h.front_notMem hnd hv) ?_)
      rintro rest' heq
      rw [hv] at heq
      cases heq

/-- One more result for the id in front keeps the ids contiguous. -/
theorem contiguous_snoc (h : Delivering v requests spoken l) (hnd : spoken.Nodup) {b : Bool}
    {rest : List (Int × Bool)} (hv : v = (r.id, b) :: rest) :
    Contiguous ((l ++ [r]).map (·.id)) := by
  rw [List.map_append, List.map_singleton]
  apply h.contiguous.snoc
  rcases h.front_types hnd hv with hnone | ⟨-, hlast⟩
  · exact .inl (notMem_of_typesOf hnone)
  · exact .inr hlast

/-- A result that does not end the operation in front. -/
theorem serve (h : Delivering v requests spoken l) (hnd : spoken.Nodup) {b : Bool}
    {rest : List (Int × Bool)} (hv : v = (r.id, b) :: rest) (hv' : v' = (r.id, true) :: rest)
    (hr : r.type.isTerminal = false) (hbegun : Begun (typesOf r.id (l ++ [r]))) :
    Delivering v' requests spoken (l ++ [r]) := by
  have hterm : terminals (l ++ [r]) = terminals l := by
    rw [terminals_snoc, hr]
    simp
  exact
    { order := by
        rw [hterm, ← h.order, hv, hv']
        rfl
      contiguous := h.contiguous_snoc hnd hv
      finished := by
        intro id hid
        rw [hterm] at hid
        have hne : id ≠ r.id := by
          rintro rfl
          exact h.front_notMem hnd hv hid
        rw [typesOf_snoc_ne hne]
        exact h.finished id hid
      front := by
        intro id rest' heq
        rw [hv'] at heq
        obtain ⟨rfl, -⟩ : r.id = id ∧ _ := by simpa using heq
        exact ⟨hbegun, by simp⟩
      others := by
        intro id hid hfront
        rw [hterm] at hid
        have hne : id ≠ r.id := by
          rintro rfl
          exact hfront rest hv'
        rw [typesOf_snoc_ne hne]
        apply h.others id hid
        rintro rest' heq
        rw [hv] at heq
        obtain ⟨⟨rfl, -⟩, -⟩ : (r.id = id ∧ _) ∧ _ := by simpa using heq
        exact hne rfl
      tail := by
        rw [hv']
        have htail := h.tail
        rw [hv] at htail
        exact htail }

/-- The terminal result of the operation in front. -/
theorem finish (h : Delivering v requests spoken l) (hnd : spoken.Nodup) {b : Bool}
    (hv : v = (r.id, b) :: v') (hr : r.type.isTerminal = true)
    (hfin : Finished (typesOf r.id (l ++ [r]))) :
    Delivering v' requests spoken (l ++ [r]) := by
  have hterm : terminals (l ++ [r]) = terminals l ++ [r.id] := by
    rw [terminals_snoc, hr]
    simp
  have hnew := h.front_notMem hnd hv
  -- no operation behind the front has been polled
  have hrest : ∀ p ∈ v', p.2 = false := by
    have htail := h.tail
    rw [hv] at htail
    exact htail
  exact
    { order := by
        rw [hterm, ← h.order, hv]
        simp [pendingIds]
      contiguous := h.contiguous_snoc hnd hv
      finished := by
        intro id hid
        rw [hterm, List.mem_append, List.mem_singleton] at hid
        rcases hid with hid | rfl
        · have hne : id ≠ r.id := by
            rintro rfl
            exact hnew hid
          rw [typesOf_snoc_ne hne]
          exact h.finished id hid
        · exact hfin
      front := by
        rintro id rest rfl
        have hfalse := hrest (id, true) (by simp)
        cases hfalse
      others := by
        intro id hid _
        rw [hterm, List.mem_append, List.mem_singleton, not_or] at hid
        rw [typesOf_snoc_ne hid.2]
        apply h.others id hid.1
        rintro rest heq
        rw [hv] at heq
        obtain ⟨⟨heq, -⟩, -⟩ : (r.id = id ∧ _) ∧ _ := by simpa using heq
        exact hid.2 heq.symm
      tail := fun p hp => hrest p (List.mem_of_mem_tail hp) }

/-- **What `poll` reports continues the delivery.** -/
theorem report (h : Delivering v requests spoken l) (hnd : spoken.Nodup)
    (hrep : Report r.id v v' r.type) : Delivering v' requests spoken (l ++ [r]) := by
  have hself := typesOf_snoc_self (l := l) (r := r)
  cases hr : r.type with
  | start =>
      rw [hr] at hrep hself
      cases hrep with
      | start hv hv' =>
          refine h.serve hnd hv hv' (by rw [hr]; rfl) ?_
          have hnone : typesOf r.id l = [] := by
            apply h.others r.id (h.front_notMem hnd hv)
            rintro rest heq
            rw [hv] at heq
            cases heq
          rw [hself, hnone]
          exact ⟨0, rfl⟩
  | voice =>
      rw [hr] at hrep hself
      cases hrep with
      | voice hv hv' =>
          refine h.serve hnd hv (hv'.trans hv) (by rw [hr]; rfl) ?_
          rw [hself]
          exact (h.front _ _ hv).1.voice
  | end_ =>
      rw [hr] at hrep hself
      cases hrep with
      | end_ hv =>
          refine h.finish hnd hv (by rw [hr]; rfl) ?_
          rw [hself]
          exact .inr (.inr ⟨_, (h.front _ _ hv).1, .inl rfl⟩)
  | cancelled =>
      rw [hr] at hrep hself
      cases hrep with
      | cancelled hv =>
          refine h.finish hnd hv (by rw [hr]; rfl) ?_
          rw [hself]
          rcases h.front_types hnd hv with hnone | ⟨hbegun, -⟩
          · rw [hnone]
            exact .inl rfl
          · exact .inr (.inr ⟨_, hbegun, .inr (.inl rfl)⟩)
  | error =>
      rw [hr] at hrep hself
      cases hrep with
      | error hv =>
          refine h.finish hnd hv (by rw [hr]; rfl) ?_
          rw [hself]
          rcases h.front_types hnd hv with hnone | ⟨hbegun, -⟩
          · rw [hnone]
            exact .inr (.inl rfl)
          · exact .inr (.inr ⟨_, hbegun, .inr (.inr rfl)⟩)

end Delivering

/-! ### A session -/

/-- The object after `prepare`. -/
def opened : TtsImpl := ({} : TtsImpl).prepare

/-- No second session is started. -/
def OneSession (_ : TtsImpl) (a : TtsAct) : Prop := a ≠ .prepare

instance (s : TtsImpl) (a : TtsAct) : Decidable (OneSession s a) :=
  inferInstanceAs (Decidable (a ≠ .prepare))

/-- The results `poll` has returned. -/
def results (s : TtsImpl) : List TtsResult := s.polled.map Prod.snd

theorem DeliveryContract.speak {spoken : List Int} {l : List TtsResult}
    (h : DeliveryContract spoken l) (id : Int) : DeliveryContract (spoken ++ [id]) l :=
  { h with order := h.order.trans (List.prefix_append _ _) }

/-- The invariant of a session. -/
structure SessionInv (s : TtsImpl) : Prop where
  inv : Inv s
  spoken : Increasing s.nextId s.spoken
  contract : DeliveryContract s.spoken s.results
  delivering : s.initialized = true → ∃ v, Lined s.controller s.responses v ∧
    Delivering v s.requests s.spoken s.results

namespace SessionInv

variable {s t : TtsImpl}

theorem nodup (h : SessionInv s) : s.spoken.Nodup :=
  h.spoken.sorted.imp fun hlt => Int.ne_of_lt hlt

theorem opened : SessionInv opened where
  inv := inv_init.prepare rfl fun _ => ⟨rfl, rfl⟩
  spoken := ⟨.nil, by simp [TtsImpl.opened, prepare]⟩
  contract := Delivering.init.contract
  delivering := fun _ => ⟨[], .init, .init⟩

/-- A step that neither speaks nor reports nor takes a request. -/
theorem of_lined (h : SessionInv s) (hinv : Inv t) (hn : t.nextId = s.nextId)
    (hsp : t.spoken = s.spoken) (hpol : t.polled = s.polled)
    (hi : t.initialized = true → s.initialized = true)
    (hreq : t.initialized = true → t.requests.map (·.id) = s.requests.map (·.id))
    (hl : ∀ v, Lined s.controller s.responses v → Lined t.controller t.responses v) :
    SessionInv t where
  inv := hinv
  spoken := by
    rw [hn, hsp]
    exact h.spoken
  contract := by
    rw [hsp, results, hpol]
    exact h.contract
  delivering := by
    intro ht
    obtain ⟨v, hv, hd⟩ := h.delivering (hi ht)
    refine ⟨v, hl v hv, ?_⟩
    rw [hsp, results, hpol]
    exact hd.requests_congr (hreq ht)

theorem release (h : SessionInv s) (hst : s.release = some t) : SessionInv t := by
  have hinv := h.inv.release hst
  -- from here on the object is not initialized, or nothing happened
  have hfalse : t.initialized = true → t = s := by
    intro ht
    have hoff : s.releasing ≠ .idle → s.initialized ≠ true := by
      intro hrel
      rw [h.inv.releasing hrel]
      exact Bool.false_ne_true
    cases release_move hst with
    | absent hrel hinit => rfl
    | enter hrel hinit => cases ht
    | close hrel => exact absurd ht (hoff (by simp [hrel]))
    | joinReq hrel hdone => exact absurd ht (hoff (by simp [hrel]))
    | closeResp hrel => exact absurd ht (hoff (by simp [hrel]))
    | joinResp hrel hdone => exact absurd ht (hoff (by simp [hrel]))
  have hsame : t.nextId = s.nextId ∧ t.spoken = s.spoken ∧ t.polled = s.polled := by
    cases release_move hst <;> exact ⟨rfl, rfl, rfl⟩
  exact
    { inv := hinv
      spoken := by
        rw [hsame.1, hsame.2.1]
        exact h.spoken
      contract := by
        rw [hsame.2.1, results, hsame.2.2]
        exact h.contract
      delivering := by
        intro ht
        obtain rfl := hfalse ht
        exact h.delivering ht }

theorem speak (h : SessionInv s) (text : String) : SessionInv (s.speak text) where
  inv := h.inv.speak text
  spoken := by
    constructor
    · rw [TtsImpl.speak]
      simp only
      rw [List.pairwise_append]
      refine ⟨h.spoken.sorted, by simp, ?_⟩
      intro id hid id' hid'
      rw [List.mem_singleton.mp hid']
      exact Int.lt_add_one_of_le (h.spoken.le_nextId id hid)
    · intro id hid
      have hid' : id ∈ s.spoken ++ [s.nextId + 1] := hid
      rw [List.mem_append, List.mem_singleton] at hid'
      rcases hid' with hid' | rfl
      · exact Int.le_trans (h.spoken.le_nextId id hid') (Int.le_of_lt (Int.lt_succ _))
      · exact Int.le_refl _
  contract := h.contract.speak _
  delivering := by
    intro hi
    obtain ⟨v, hl, hd⟩ := h.delivering hi
    exact ⟨v, hl, hd.speak ⟨s.nextId + 1, false, text⟩⟩

theorem cancel (h : SessionInv s) (id : Int) : SessionInv (s.cancel id) := by
  have hinv := h.inv.cancel id
  obtain ⟨reqs, c, n, heq, hids, -, hl⟩ := cancel_spec id s
  rw [heq] at hinv ⊢
  exact h.of_lined hinv rfl rfl rfl (fun hi => hi) (fun _ => hids) fun v hv => hl _ v hv

theorem client (h : SessionInv s) {n : Nat} (hst : s.client n = some t) : SessionInv t := by
  have hidle : SessionInv { s with clients := Function.update s.clients n .idle } :=
    h.of_lined (h.inv.congr rfl rfl rfl rfl rfl rfl rfl rfl rfl) rfl rfl rfl (fun hi => hi)
      (fun _ => rfl) fun _ hv => hv
  unfold TtsImpl.client at hst
  split at hst
  · split at hst
    · cases hst
    · cases hst
      exact hidle.speak _
    · cases hst
      exact hidle.cancel _
  · cases hst

theorem call (h : SessionInv s) {n : Nat} {pc : ClientPc} (hst : s.call n pc = some t) :
    SessionInv t := by
  have hinv := h.inv.call hst
  unfold TtsImpl.call at hst
  split at hst
  · split at hst
    · cases hst
      exact h.of_lined hinv rfl rfl rfl (fun hi => hi) (fun _ => rfl) fun _ hv => hv
    · cases hst
      exact h
  · cases hst
    exact h.of_lined hinv rfl rfl rfl (fun hi => hi) (fun _ => rfl) fun _ hv => hv
  · cases hst

/-- **`poll`**: what it returns continues the delivery. -/
theorem pollStep (h : SessionInv s) : SessionInv s.pollStep := by
  have hinv := h.inv.pollStep
  unfold TtsImpl.pollStep at hinv ⊢
  split at hinv
  · rename_i hi
    rw [if_pos hi]
    obtain ⟨v, hl, hd⟩ := h.delivering hi
    obtain ⟨o, c, q, hpoll, -, -, hcase⟩ := poll_spec hl h.inv.noError
    rw [hpoll] at hinv ⊢
    rcases hcase with ⟨rfl, hl'⟩ | ⟨a, r, v', rfl, -, -, hl', hrep⟩
    · exact
        { inv := hinv
          spoken := h.spoken
          contract := h.contract
          delivering := fun _ => ⟨v, hl', hd⟩ }
    · have hd' : Delivering v' s.requests s.spoken (s.results ++ [r]) := hd.report h.nodup hrep
      have hres : ({ s with controller := c, responses := q, polled := s.polled ++ [(a, r)] } :
          TtsImpl).results = s.results ++ [r] := by
        simp [results]
      exact
        { inv := hinv
          spoken := h.spoken
          contract := by
            simp only [hres]
            exact hd'.contract
          delivering := by
            intro _
            refine ⟨v', hl', ?_⟩
            simp only [hres]
            exact hd' }
  · rename_i hi
    rw [if_neg hi]
    exact h

/-- The send thread takes the oldest request. -/
theorem take (h : SessionInv s) {req : TtsReqInfo} {requests : List TtsReqInfo}
    (hinit : s.initialized = true) (hreq : s.requests = req :: requests)
    {c : OpCtl TtsError} {pc : SendPc} (n : Nat)
    (hinv : Inv { s with
      requests := requests, controller := c, respNotifies := n, send := pc })
    (hl : ∀ v, Lined s.controller s.responses v → req.id ∉ v.map Prod.fst →
      Lined c s.responses (v ++ [(req.id, false)])) :
    SessionInv { s with
      requests := requests, controller := c, respNotifies := n, send := pc } where
  inv := hinv
  spoken := h.spoken
  contract := h.contract
  delivering := by
    intro _
    obtain ⟨v, hv, hd⟩ := h.delivering hinit
    rw [hreq] at hd
    have hnew : req.id ∉ v.map Prod.fst := by
      have hnd := h.nodup
      rw [← hd.order, List.nodup_append'] at hnd
      have hpend := hnd.2.1
      rw [pendingIds, List.map_cons, List.nodup_append'] at hpend
      intro hmem
      exact hpend.2.2 hmem (by simp)
    exact ⟨_, hl v hv hnew, hd.take⟩

theorem send_step (h : SessionInv s) {r : ConnectionOpResult} (hst : s.sendStep r = some t) :
    SessionInv t := by
  have hinv := h.inv.send_step hst
  have hknows := h.inv.send
  cases sendStep_move hst with
  | cancelled hpc hinit hreq hdel =>
      rw [hpc] at hknows
      exact h.take hinit hreq _ hinv fun v hv _ => hv.newOp_cancelled hknows _ _
  | start hpc hinit hreq hdel =>
      rw [hpc] at hknows
      exact h.take hinit hreq _ hinv fun v hv hnew => hv.newOp_start hknows _ hnew
  | @setError req err hpc =>
      exact h.of_lined hinv rfl rfl rfl (fun hi => hi) (fun _ => rfl)
        fun _ hv => hv.setOpError err
  | refresh hpc =>
      exact h.of_lined hinv rfl rfl rfl (fun hi => hi) (fun _ => rfl)
        fun _ hv => hv.refreshOpTime _ _
  | block hpc hwait =>
      exact h.of_lined hinv rfl rfl rfl (fun hi => hi) (fun _ => rfl)
        fun _ hv => hv.opWaiting true
  | _ => exact h.of_lined hinv rfl rfl rfl (fun hi => hi) (fun _ => rfl) fun _ hv => hv

theorem gen (h : SessionInv s) {r : ConnectionOpResult} {resp : TtsResponse}
    (hst : s.genStep r resp = some t) : SessionInv t := by
  have hinv := h.inv.gen hst
  unfold TtsImpl.genStep at hst
  split at hst
  · cases hst
    exact h.of_lined hinv rfl rfl rfl (fun hi => hi) (fun _ => rfl) fun _ hv => hv
  · split at hst
    · split at hst
      · cases hst
        exact h.of_lined hinv rfl rfl rfl (fun hi => hi) (fun _ => rfl) fun _ hv => hv
      · cases hst
        exact h.of_lined hinv rfl rfl rfl (fun hi => hi) (fun _ => rfl) fun _ hv => hv
    · cases hst
  · rename_i r' resp' _
    cases hst
    have hsec := handleResult_section r' resp' s
    have heq := hsec.eq
    have hnext : (s.handleResult r' resp').nextId = s.nextId := by rw [heq]
    have hspoken : (s.handleResult r' resp').spoken = s.spoken := by rw [heq]
    have hpolled : (s.handleResult r' resp').polled = s.polled := by rw [heq]
    have hinit : (s.handleResult r' resp').initialized = s.initialized := by rw [heq]
    have hreqs : (s.handleResult r' resp').requests = s.requests := by rw [heq]
    apply h.of_lined hinv hnext hspoken hpolled _ _ hsec.lined
    · intro hi
      exact hinit ▸ hi
    · intro _
      exact congrArg _ hreqs
  · cases hst

/-- A session is opened on an object whose queues are empty. -/
theorem prepare (hinit : s.initialized = false) (hinv : Inv s.prepare)
    (hclean : s.requests = [] ∧ s.controller.operations = []) : SessionInv s.prepare := by
  have heq : s.prepare.controller = s.controller ∧ s.prepare.responses = s.responses ∧
      s.prepare.requests = s.requests ∧ s.prepare.nextId = 0 ∧ s.prepare.spoken = [] ∧
      s.prepare.polled = [] ∧ s.prepare.initialized = true := by
    simp [TtsImpl.prepare, hinit]
  obtain ⟨hc, hq, hreq, hn, hsp, hpol, hi⟩ := heq
  have hres : s.prepare.results = [] := by rw [results, hpol, List.map_nil]
  constructor
  · exact hinv
  · rw [hn, hsp]
    exact ⟨.nil, by simp⟩
  · rw [hsp, hres]
    exact Delivering.init.contract
  · intro _
    obtain ⟨v, hv, -⟩ := hinv.lined (.inl hi)
    have hv' : v = [] := by
      have hids := hv.fst_eq
      rw [hc, OpCtl.opIds, hclean.2] at hids
      simpa using hids
    rw [hv'] at hv
    rw [hreq, hclean.1, hsp, hres]
    exact ⟨[], hv, .init⟩

/-- **One step.** -/
theorem step (h : SessionInv s) {a : TtsAct} (hok : CleanPrepare s a)
    (hst : s.step a = some t) : SessionInv t := by
  have hinv : Inv t := h.inv.step hok hst
  unfold TtsImpl.step at hst
  split at hst
  · cases hst
  · cases a with
    | prepare =>
        simp only at hst
        split at hst
        · cases hst
          cases hinit : s.initialized with
          | true =>
              have hsame : s.prepare = s := by
                unfold TtsImpl.prepare
                rw [if_pos hinit]
              rw [hsame]
              exact h
          | false => exact .prepare hinit hinv (hok rfl hinit)
        · cases hst
    | release => exact h.release hst
    | call n pc => exact h.call hst
    | client n => exact h.client hst
    | poll =>
        cases hst
        exact h.pollStep
    | config mod =>
        cases hst
        cases mod with
        | none => exact h
        | some mod =>
            exact h.of_lined hinv rfl rfl rfl (fun hi => hi) (fun _ => rfl) fun _ hv => hv
    | send r => exact h.send_step hst
    | gen r resp => exact h.gen hst
    | tick ns =>
        cases hst
        exact h.of_lined hinv rfl rfl rfl (fun hi => hi) (fun _ => rfl) fun _ hv => hv

theorem run (hrun : Run Steps CleanPrepare s t) (h : SessionInv s) : SessionInv t :=
  hrun.invariant (fun _ _ _ hinv hok hst => hinv.step hok hst) h

end SessionInv

/-- **Delivery.**  In every run of one session, whatever the threads, the server and the network
    do: the `k`-th terminal result is for the `k`-th id `speak` returned, the results of one id
    stand together and have the shape `(START VOICE*)? (END | CANCELLED | ERROR)`, the terminal
    result being still missing for ids that are not finished, and no assertion of `poll` or
    `poptype_to_restype` has failed. -/
theorem tts_delivery {s : TtsImpl} (hrun : Run Steps OneSession opened s) :
    DeliveryContract s.spoken s.results ∧ s.spoken.Nodup ∧ s.aborted = false := by
  have h := SessionInv.run (hrun.mono fun _ _ hok ha => absurd ha hok) SessionInv.opened
  exact ⟨h.contract, h.nodup, h.inv.running⟩

/-- Two requests, the second of them cancelled while it is queued; the server answers the first
    with one piece of voice data. -/
def twoRequests : List TtsAct :=
  let resp : TtsResponse := { id := 1, voice := some [7], text := none, finish := true }
  [.call 0 (.speak "a"), .client 0, .call 0 (.speak "b"), .client 0, .call 1 (.cancel 2),
    .client 1, .send .success, .send .success, .send .success, .send .success, .gen .success resp,
    .gen .success resp, .gen .success resp, .send .success, .send .success, .send .success,
    .poll, .poll, .poll, .poll]

theorem tts_delivery_twoRequests :
    ∃ s, exec step opened twoRequests = some s ∧
      s.results.map (fun r => (r.id, r.type)) =
        [(1, .start), (1, .voice), (1, .end_), (2, .cancelled)] ∧
      DeliveryContract s.spoken s.results := by
  have hok : allOk step OneSession opened twoRequests = true := by decide +kernel
  refine ⟨_, rfl, by decide +kernel, ?_⟩
  exact (tts_delivery (Run.of_exec hok rfl)).1

end TtsImpl

end OpenVoice
