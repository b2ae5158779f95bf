import OpenVoice.Speech.Requests

/-!
# The order of the voice results

Voice requests are queued in the order of their ids, they become operations in that order, and
`poll` serves the operations in that order.  A text request may slip in between, and a cancelled
voice request may get a second operation next to its first; neither brings a voice request before
an older one (`voice_order`).
-/

namespace OpenVoice

open OpenVoice.Lib

namespace SpeechImpl

/-- The results for the ids `start_voice` has returned. -/
def voiceResults (l : List SpeechEvent) : List SpeechResult :=
  (results l).filter fun r => r.id ∈ starts l

/-- Voice results come in the order of the ids, and a result comes after a terminal result for
    each older voice request. -/
structure VoiceOrder (l : List SpeechEvent) : Prop where
  ordered : (voiceResults l).Pairwise fun x y => x.id ≤ y.id
  settled : ∀ l₁ a r l₂, l = l₁ ++ .result a r :: l₂ → r.id ∈ starts l →
    ∀ j ∈ starts l, j < r.id → ∃ x ∈ results l₁, x.id = j ∧ x.type.isTerminal = true

namespace VoiceOrder

variable {l : List SpeechEvent} {e : SpeechEvent}

theorem nil : VoiceOrder [] where
  ordered := .nil
  settled := by
    intro l₁ a r l₂ heq
    simp at heq

/-- An event is recorded, `hlast` being what it has to satisfy if it is a result. -/
theorem snoc (h : VoiceOrder l)
    (hordered : (voiceResults (l ++ [e])).Pairwise fun x y => x.id ≤ y.id)
    (hstarts : ∀ j ∈ starts (l ++ [e]), j ∈ starts l ∨ ∀ r ∈ results l, r.id < j)
    (hlast : ∀ a r, e = .result a r → r.id ∈ starts l → ∀ j ∈ starts l, j < r.id →
      ∃ x ∈ results l, x.id = j ∧ x.type.isTerminal = true) : VoiceOrder (l ++ [e]) where
  ordered := hordered
  settled := by
    intro l₁ a r l₂ heq hr j hj hlt
    rcases List.eq_nil_or_concat l₂ with rfl | ⟨l₂', x, rfl⟩
    · -- the event is the result
      obtain ⟨rfl, he⟩ := List.append_inj' heq rfl
      obtain rfl := List.singleton_inj.mp he
      rw [starts_append, starts_result, List.append_nil] at hr hj
      exact hlast a r rfl hr j hj hlt
    · have hsplit : l ++ [e] = (l₁ ++ .result a r :: l₂') ++ [x] := by
        rw [heq]
        simp
      obtain ⟨hl, -⟩ := List.append_inj' hsplit rfl
      have hmem : r ∈ results l := by
        rw [hl, results_append]
        exact List.mem_append_right _ List.mem_cons_self
      -- an id that was not returned before is that of no result
      have hold : r.id ∈ starts l := by
        rcases hstarts r.id hr with hold | hnew
        · exact hold
        · exact absurd (hnew r hmem) (Int.lt_irrefl _)
      have hold' : j ∈ starts l := by
        rcases hstarts j hj with hold' | hnew
        · exact hold'
        · have hgt := hnew r hmem
          omega
      exact h.settled l₁ a r l₂' hl hold j hold' hlt

theorem quiet (h : VoiceOrder l) (hres : results [e] = []) (hst : starts [e] = []) :
    VoiceOrder (l ++ [e]) := by
  apply h.snoc
  · unfold voiceResults
    rw [results_append, hres, starts_append, hst, List.append_nil, List.append_nil]
    exact h.ordered
  · intro j hj
    rw [starts_append, hst, List.append_nil] at hj
    exact .inl hj
  · rintro a r rfl
    cases hres

/-- `start_voice` returns an id that is greater than those of all results. -/
theorem start (h : VoiceOrder l) {id : Int} (hid : ∀ r ∈ results l, r.id < id) :
    VoiceOrder (l ++ [.startVoice id]) := by
  apply h.snoc
  · have hsame : voiceResults (l ++ [.startVoice id]) = voiceResults l := by
      unfold voiceResults
      rw [results_append, results_startVoice, List.append_nil]
      apply List.filter_congr
      intro r hr
      have hne : r.id ≠ id := Int.ne_of_lt (hid r hr)
      simp [hne]
    rw [hsame]
    exact h.ordered
  · intro j hj
    rw [starts_append, starts_startVoice, List.mem_append, List.mem_singleton] at hj
    rcases hj with hj | rfl
    · exact .inl hj
    · exact .inr hid
  · rintro a r he
    cases he

/-- `poll` returns a result. -/
theorem result (h : VoiceOrder l) {a : Nat} {r : SpeechResult}
    (hle : r.id ∈ starts l → ∀ x ∈ results l, x.id ∈ starts l → x.id ≤ r.id)
    (hgone : r.id ∈ starts l → ∀ j ∈ starts l, j < r.id →
      ∃ x ∈ results l, x.id = j ∧ x.type.isTerminal = true) :
    VoiceOrder (l ++ [.result a r]) := by
  apply h.snoc
  · unfold voiceResults
    rw [results_append, results_result, starts_append, starts_result, List.append_nil,
      List.filter_append, List.pairwise_append]
    refine ⟨h.ordered, List.Pairwise.filter _ (List.pairwise_singleton _ _), ?_⟩
    intro x hx y hy
    rw [List.mem_filter] at hx hy
    obtain rfl := List.mem_singleton.mp hy.1
    exact hle (of_decide_eq_true hy.2) x hx.1 (of_decide_eq_true hx.2)
  · intro j hj
    rw [starts_append, starts_result, List.append_nil] at hj
    exact .inl hj
  · rintro b x he
    cases he
    exact hgone

end VoiceOrder

/-! ### From `start_voice` to `new_op` -/

/-- The voice requests are taken in the order of their ids, and none is passed over: an id that
    `start_voice` has returned has an operation, is in the hand of the send thread, or is queued. -/
structure InOrder (init : Bool) (starts created : List Int) (hand : Option Int)
    (keys : List Int) : Prop where
  keys_sorted : keys.Pairwise (· < ·)
  hand_le : ∀ k, hand = some k → k ∈ starts → ∀ id ∈ keys, k ≤ id
  created_le_hand : ∀ k, hand = some k → k ∈ starts → ∀ id ∈ created, id ∈ starts → id ≤ k
  created_le_keys : ∀ id ∈ created, id ∈ starts → ∀ k ∈ keys, id ≤ k
  created_sorted : created.Pairwise fun x y => x ∈ starts → y ∈ starts → x ≤ y
  before : ∀ k ∈ starts, k ∈ created ∨ hand = some k → ∀ j ∈ starts, j < k → j ∈ created
  somewhere : init = true → ∀ j ∈ starts, j ∈ created ∨ hand = some j ∨ j ∈ keys

namespace InOrder

variable {init init' : Bool} {starts created keys keys' : List Int} {hand : Option Int}

theorem opened : InOrder init [] [] none [] where
  keys_sorted := .nil
  hand_le := by simp
  created_le_hand := by simp
  created_le_keys := by simp
  created_sorted := .nil
  before := by simp
  somewhere := by simp

/-- The session ends. -/
theorem close (h : InOrder init starts created hand keys) (hsub : keys'.Sublist keys) :
    InOrder false starts created hand keys' where
  keys_sorted := h.keys_sorted.sublist hsub
  hand_le := fun k hk hks id hid => h.hand_le k hk hks id (hsub.subset hid)
  created_le_hand := h.created_le_hand
  created_le_keys := fun id hid hst k hk => h.created_le_keys id hid hst k (hsub.subset hk)
  created_sorted := h.created_sorted
  before := h.before
  somewhere := by
    intro hinit
    cases hinit

/-- `start_voice` takes a new id. -/
theorem start (h : InOrder init starts created hand keys) {n : Int} (hst : ∀ id ∈ starts, id < n)
    (hcr : ∀ id ∈ created, id < n) (hhand : ∀ k, hand = some k → k < n)
    (hkeys : ∀ id ∈ keys, id < n) :
    InOrder init (starts ++ [n]) created hand (keys ++ [n]) := by
  -- what was there before is a request of before
  have hold : ∀ id, id < n → id ∈ starts ++ [n] → id ∈ starts := by
    intro id hlt hid
    rw [List.mem_append, List.mem_singleton] at hid
    rcases hid with hid | rfl
    · exact hid
    · exact absurd hlt (Int.lt_irrefl _)
  exact
    { keys_sorted := by
        rw [List.pairwise_append]
        refine ⟨h.keys_sorted, List.pairwise_singleton _ _, ?_⟩
        intro id hid id' hid'
        rw [List.mem_singleton.mp hid']
        exact hkeys id hid
      hand_le := by
        intro k hk hks id hid
        rw [List.mem_append, List.mem_singleton] at hid
        rcases hid with hid | rfl
        · exact h.hand_le k hk (hold k (hhand k hk) hks) id hid
        · exact Int.le_of_lt (hhand k hk)
      created_le_hand := fun k hk hks id hid hids =>
        h.created_le_hand k hk (hold k (hhand k hk) hks) id hid (hold id (hcr id hid) hids)
      created_le_keys := by
        intro id hid hids k hk
        rw [List.mem_append, List.mem_singleton] at hk
        rcases hk with hk | rfl
        · exact h.created_le_keys id hid (hold id (hcr id hid) hids) k hk
        · exact Int.le_of_lt (hcr id hid)
      created_sorted := by
        apply h.created_sorted.imp_of_mem
        intro x y hx hy hle hxs hys
        exact hle (hold x (hcr x hx) hxs) (hold y (hcr y hy) hys)
      before := by
        intro k hk hwhere j hj hlt
        have hkn : k < n := by
          rcases hwhere with hmem | hk'
          · exact hcr k hmem
          · exact hhand k hk'
        exact h.before k (hold k hkn hk) hwhere j (hold j (Int.lt_trans hlt hkn) hj) hlt
      somewhere := by
        intro hinit j hj
        rw [List.mem_append, List.mem_singleton] at hj
        rcases hj with hj | rfl
        · rcases h.somewhere hinit j hj with hmem | hh | hmem
          · exact .inl hmem
          · exact .inr (.inl hh)
          · exact .inr (.inr (List.mem_append_left _ hmem))
        · exact .inr (.inr (List.mem_append_right _ List.mem_cons_self)) }

/-- The send thread takes something of the oldest stream. -/
theorem take (h : InOrder true starts created none keys) {id : Int} {rest : List Int}
    (hkeys : keys = id :: rest) (hkeys' : keys' = keys ∨ keys' = rest) :
    InOrder true starts created (some id) keys' := by
  have hsorted := h.keys_sorted
  rw [hkeys, List.pairwise_cons] at hsorted
  have hle : ∀ x ∈ keys, id ≤ x := by
    intro x hx
    rw [hkeys, List.mem_cons] at hx
    rcases hx with rfl | hx
    · exact Int.le_refl _
    · exact Int.le_of_lt (hsorted.1 x hx)
  have hsub : ∀ x ∈ keys', x ∈ keys := by
    rcases hkeys' with rfl | rfl
    · exact fun _ hx => hx
    · intro x hx
      rw [hkeys]
      exact List.mem_cons_of_mem _ hx
  have hid : id ∈ keys := by
    rw [hkeys]
    exact List.mem_cons_self
  exact
    { keys_sorted := by
        rcases hkeys' with rfl | rfl
        · exact h.keys_sorted
        · exact hsorted.2
      hand_le := by
        rintro k hk - x hx
        cases hk
        exact hle x (hsub x hx)
      created_le_hand := by
        rintro k hk - x hx hxs
        cases hk
        exact h.created_le_keys x hx hxs _ hid
      created_le_keys := fun x hx hxs k hk => h.created_le_keys x hx hxs k (hsub k hk)
      created_sorted := h.created_sorted
      before := by
        intro k hk hwhere j hj hlt
        rcases hwhere with hmem | heq
        · exact h.before k hk (.inl hmem) j hj hlt
        · cases heq
          -- everything older has been taken before
          rcases h.somewhere rfl j hj with hmem | hh | hmem
          · exact hmem
          · cases hh
          · have hge := hle j hmem
            omega
      somewhere := by
        intro _ j hj
        rcases h.somewhere rfl j hj with hmem | hh | hmem
        · exact .inl hmem
        · cases hh
        · rw [hkeys, List.mem_cons] at hmem
          rcases hmem with rfl | hmem
          · exact .inr (.inl rfl)
          · refine .inr (.inr ?_)
            rcases hkeys' with rfl | rfl
            · rw [hkeys]
              exact List.mem_cons_of_mem _ hmem
            · exact hmem }

/-- The send thread takes a text request. -/
theorem takeText (h : InOrder init starts created none keys) {id : Int} (hid : id ∉ starts) :
    InOrder init starts created (some id) keys where
  keys_sorted := h.keys_sorted
  hand_le := by
    intro k hk hks
    cases hk
    exact absurd hks hid
  created_le_hand := by
    intro k hk hks
    cases hk
    exact absurd hks hid
  created_le_keys := h.created_le_keys
  created_sorted := h.created_sorted
  before := by
    intro k hk hwhere
    rcases hwhere with hmem | heq
    · exact h.before k hk (.inl hmem)
    · cases heq
      exact absurd hk hid
  somewhere := by
    intro hinit j hj
    rcases h.somewhere hinit j hj with hmem | hh | hmem
    · exact .inl hmem
    · cases hh
    · exact .inr (.inr hmem)

/-- An operation is created for the request in hand. -/
theorem create {id : Int} (h : InOrder init starts created (some id) keys) :
    InOrder init starts (created ++ [id]) none keys where
  keys_sorted := h.keys_sorted
  hand_le := by simp
  created_le_hand := by simp
  created_le_keys := by
    intro x hx hxs k hk
    rw [List.mem_append, List.mem_singleton] at hx
    rcases hx with hx | rfl
    · exact h.created_le_keys x hx hxs k hk
    · exact h.hand_le x rfl hxs k hk
  created_sorted := by
    rw [List.pairwise_append]
    refine ⟨h.created_sorted, List.pairwise_singleton _ _, ?_⟩
    intro x hx y hy hxs hys
    obtain rfl := List.mem_singleton.mp hy
    exact h.created_le_hand y rfl hys x hx hxs
  before := by
    intro k hk hwhere j hj hlt
    have hwhere' : k ∈ created ∨ some id = some k := by
      rcases hwhere with hmem | hh
      · rw [List.mem_append, List.mem_singleton] at hmem
        rcases hmem with hmem | rfl
        · exact .inl hmem
        · exact .inr rfl
      · cases hh
    exact List.mem_append_left _ (h.before k hk hwhere' j hj hlt)
  somewhere := by
    intro hinit j hj
    rcases h.somewhere hinit j hj with hmem | hh | hmem
    · exact .inl (List.mem_append_left _ hmem)
    · cases hh
      exact .inl (List.mem_append_right _ List.mem_cons_self)
    · exact .inr (.inr hmem)

/-- The request in hand is done with; it has an operation. -/
theorem drop {id : Int} (h : InOrder init starts created (some id) keys) (hid : id ∈ created) :
    InOrder init starts created none keys where
  keys_sorted := h.keys_sorted
  hand_le := by simp
  created_le_hand := by simp
  created_le_keys := h.created_le_keys
  created_sorted := h.created_sorted
  before := by
    intro k hk hwhere
    rcases hwhere with hmem | hh
    · exact h.before k hk (.inl hmem)
    · cases hh
  somewhere := by
    intro hinit j hj
    rcases h.somewhere hinit j hj with hmem | hh | hmem
    · exact .inl hmem
    · cases hh
      exact .inl hid
    · exact .inr (.inr hmem)

end InOrder

/-- What a pop takes from the oldest stream. -/
theorem Popped.fst_cases {id : Int} {ks ks' : List (Int × Bool)} {t : PopType}
    (h : Popped id ks ks' t) : ∃ rest, ks.map Prod.fst = id :: rest ∧
      (ks'.map Prod.fst = ks.map Prod.fst ∨ ks'.map Prod.fst = rest) := by
  cases h with
  | start hks hks' => exact ⟨_, by rw [hks]; rfl, .inl (by rw [hks, hks']; rfl)⟩
  | data hks hks' => exact ⟨_, by rw [hks]; rfl, .inl (by rw [hks'])⟩
  | end_ hks => exact ⟨_, by rw [hks]; rfl, .inr rfl⟩
  | removed hks => exact ⟨_, by rw [hks]; rfl, .inr rfl⟩
  | error hks => exact ⟨_, by rw [hks]; rfl, .inr rfl⟩

/-! ### The invariant -/

structure VoiceInv (s : SpeechImpl) : Prop where
  requests : Requests s
  queued : InOrder s.initialized (starts s.log) s.created (s.send.hand.map (·.id))
    (s.voiceReqs.keys.map Prod.fst)
  /-- Results are for operations that have been created. -/
  created : ∀ r ∈ results s.log, r.id ∈ s.created
  /-- The operations that are left are not older than those that have been served. -/
  le_left : ∀ r ∈ results s.log, r.id ∈ starts s.log → ∀ x ∈ s.controller.opIds,
    x ∈ starts s.log → r.id ≤ x
  gone : ∀ j ∈ s.created, j ∈ s.controller.opIds ∨
    ∃ r ∈ results s.log, r.id = j ∧ r.type.isTerminal = true
  order : VoiceOrder s.log

namespace VoiceInv

variable {s t : SpeechImpl}

theorem opened : VoiceInv opened where
  requests := .opened
  queued := .opened
  created := by
    intro r hr
    cases hr
  le_left := by
    intro r hr
    cases hr
  gone := by
    intro j hj
    cases hj
  order := .nil

/-- No operation is created, and nothing is returned but from `cancel` or `put_text`. -/
theorem kept (h : VoiceInv s) (hreq : Requests t)
    (hqueued : InOrder t.initialized (starts s.log) s.created (t.send.hand.map (·.id))
      (t.voiceReqs.keys.map Prod.fst))
    (hlog : t.log = s.log ∨ ∃ e, t.log = s.log ++ [e] ∧ results [e] = [] ∧ starts [e] = [])
    (hcr : t.created = s.created) (hops : t.controller.opIds = s.controller.opIds) :
    VoiceInv t := by
  have hsame : results t.log = results s.log ∧ starts t.log = starts s.log ∧
      VoiceOrder t.log := by
    rcases hlog with heq | ⟨e, heq, hres, hst⟩
    · rw [heq]
      exact ⟨rfl, rfl, h.order⟩
    · rw [heq, results_append, hres, starts_append, hst, List.append_nil, List.append_nil]
      exact ⟨rfl, rfl, h.order.quiet hres hst⟩
  obtain ⟨hres, hst, horder⟩ := hsame
  constructor
  · exact hreq
  · rw [hst, hcr]
    exact hqueued
  · rw [hres, hcr]
    exact h.created
  · rw [hres, hst, hops]
    exact h.le_left
  · rw [hres, hcr, hops]
    exact h.gone
  · exact horder

/-- The same, the requests being where they were. -/
theorem still (h : VoiceInv s) (hreq : Requests t)
    (hinit : t.initialized = s.initialized ∨ t.initialized = false)
    (hsend : t.send.hand = s.send.hand) (hkeys : t.voiceReqs.keys.Sublist s.voiceReqs.keys)
    (hkeys' : t.initialized = true → t.voiceReqs.keys = s.voiceReqs.keys)
    (hlog : t.log = s.log ∨ ∃ e, t.log = s.log ++ [e] ∧ results [e] = [] ∧ starts [e] = [])
    (hcr : t.created = s.created) (hops : t.controller.opIds = s.controller.opIds) :
    VoiceInv t := by
  apply h.kept hreq _ hlog hcr hops
  rw [hsend]
  cases hi : t.initialized with
  | true =>
      rw [hkeys' hi]
      rcases hinit with heq | heq
      · have hqueued := h.queued
        rw [← heq, hi] at hqueued
        exact hqueued
      · rw [heq] at hi
        cases hi
  | false => exact h.queued.close (hkeys.map _)

theorem opIds_of {c c' : OpCtl SpeechError} (hops : c'.operations = c.operations)
    (hid : ∀ a, (c'.heap a).id = (c.heap a).id) : c'.opIds = c.opIds := by
  unfold OpCtl.opIds
  rw [hops]
  exact List.map_congr_left fun a _ => hid a

theorem release (h : VoiceInv s) (hst : s.release = some t) : VoiceInv t := by
  have hreq := h.requests.release hst
  have hclosed : s.releasing ≠ .idle → s.initialized = false := h.requests.inv.releasing
  cases release_move hst with
  | absent hrel hinit => exact h
  | enter hrel hinit =>
      exact h.still hreq (.inr rfl) rfl (.refl _) (fun _ => rfl) (.inl rfl) rfl rfl
  | close hrel =>
      apply h.still hreq (.inl rfl) rfl _ _ (.inl rfl) rfl rfl
      · rw [Streams.close_keys]
        exact List.nil_sublist _
      · intro hi
        have hi' : s.initialized = true := hi
        rw [hclosed (by simp [hrel])] at hi'
        cases hi'
  | setError hrel =>
      exact h.still hreq (.inl rfl) rfl (.refl _) (fun _ => rfl) (.inl rfl) rfl
        (opIds_of (OpCtl.setOpError_operations _ _) (OpCtl.Quiet.setOpError _ _).heap_id)
  | joinReq hrel hdone =>
      exact h.still hreq (.inl rfl) rfl (.refl _) (fun _ => rfl) (.inl rfl) rfl rfl
  | closeResp hrel hfree =>
      exact h.still hreq (.inl rfl) rfl (.refl _) (fun _ => rfl) (.inl rfl) rfl
        (opIds_of (OpCtl.finishOp_operations _) (OpCtl.Quiet.finishOp _).heap_id)
  | joinResp hrel hdone =>
      exact h.still hreq (.inl rfl) rfl (.refl _) (fun _ => rfl) (.inl rfl) rfl rfl

theorem gen (h : VoiceInv s) {r : ConnectionOpResult} {resp : SpeechResponse}
    (hst : s.genStep r resp = some t) : VoiceInv t := by
  have hreq := h.requests.gen hst
  obtain ⟨hops, -, -⟩ := genStep_more hst
  obtain ⟨c, q, v, k, pc, hquiet, hv, rfl⟩ := genStep_spec hst
  apply h.still hreq (.inl rfl) rfl _ (fun _ => hv) (.inl rfl) rfl (opIds_of hops hquiet.heap_id)
  rw [hv]

theorem call (h : VoiceInv s) {n : Nat} {c : SpeechCall} (hst : s.call n c = some t) :
    VoiceInv t := by
  have hreq := h.requests.call hst
  cases call_move hst with
  | stay => exact h
  | enter hidle hheld hpc =>
      exact h.still hreq (.inl rfl) rfl (.refl _) (fun _ => rfl) (.inl rfl) rfl rfl
  | cancel id hidle =>
      exact h.still hreq (.inl rfl) rfl (.refl _) (fun _ => rfl) (.inr ⟨_, rfl, rfl, rfl⟩) rfl rfl

/-- `start_voice` takes an id greater than all others. -/
theorem start (h : VoiceInv s) {n : Nat} {q : Streams Bytes VoiceOptions}
    (hq : q.keys = s.voiceReqs.keys ++ [(s.nextId + 1, false)])
    (hreq : Requests { s.setClient n .idle with
      holder := none
      nextId := s.nextId + 1
      voiceReqs := q
      log := s.log ++ [.startVoice (s.nextId + 1)] }) :
    VoiceInv { s.setClient n .idle with
      holder := none
      nextId := s.nextId + 1
      voiceReqs := q
      log := s.log ++ [.startVoice (s.nextId + 1)] } := by
  have hstarts : ∀ id ∈ starts s.log, id < s.nextId + 1 :=
    fun id hid => Int.lt_add_one_of_le (h.requests.labels.starts_le id hid)
  have hcreated : ∀ id ∈ s.created, id < s.nextId + 1 :=
    fun id hid => Int.lt_add_one_of_le (h.requests.inv.ids.created_le id hid)
  have hresults : ∀ r ∈ results s.log, r.id < s.nextId + 1 :=
    fun r hr => hcreated r.id (h.created r hr)
  have hold : ∀ id, id < s.nextId + 1 → id ∈ starts s.log ++ [s.nextId + 1] →
      id ∈ starts s.log := by
    intro id hlt hid
    rw [List.mem_append, List.mem_singleton] at hid
    rcases hid with hid | rfl
    · exact hid
    · exact absurd hlt (Int.lt_irrefl _)
  constructor
  · exact hreq
  · simp only [setClient, starts_append, starts_startVoice, hq, List.map_append,
      List.map_singleton]
    apply h.queued.start hstarts hcreated
    · intro k hk
      obtain ⟨info, hinfo, rfl⟩ := Option.map_eq_some_iff.mp hk
      rcases h.requests.labels.hand info hinfo with ⟨hput, -⟩ | ⟨hstart, -⟩
      · exact Int.lt_add_one_of_le (h.requests.labels.puts_pos _ hput).2
      · exact hstarts _ hstart
    · intro id hid
      exact hstarts id (h.requests.labels.keys id hid)
  · simp only [setClient, results_append, results_startVoice, List.append_nil]
    exact h.created
  · simp only [setClient, results_append, results_startVoice, List.append_nil, starts_append,
      starts_startVoice]
    intro r hr hrs x hx hxs
    have hx' : x ∈ s.created := h.requests.inv.opIds.subset hx
    exact h.le_left r hr (hold _ (hresults r hr) hrs) x hx (hold _ (hcreated x hx') hxs)
  · simp only [setClient, results_append, results_startVoice, List.append_nil]
    exact h.gone
  · exact h.order.start hresults

theorem client (h : VoiceInv s) {n : Nat} (hok : AtomicIncr s (.client n))
    (hst : s.client n = some t) : VoiceInv t := by
  have hreq := h.requests.client hok hst
  cases client_move hst with
  | load hpc => exact h.still hreq (.inl rfl) rfl (.refl _) (fun _ => rfl) (.inl rfl) rfl rfl
  | store hpc => exact h.still hreq (.inl rfl) rfl (.refl _) (fun _ => rfl) (.inl rfl) rfl rfl
  | push hpc hp htype =>
      exact h.still hreq (.inl rfl) rfl (.refl _) (fun _ => rfl) (.inr ⟨_, rfl, rfl, rfl⟩) rfl rfl
  | lock hpc => exact h.still hreq (.inl rfl) rfl (.refl _) (fun _ => rfl) (.inl rfl) rfl rfl
  | start hpc hq =>
      obtain rfl := hok.storeVoice hpc
      exact h.start hq hreq
  | startFailed hpc hq =>
      apply h.still hreq (.inl rfl) rfl _ (fun _ => hq) (.inl rfl) rfl rfl
      rw [hq]
  | voice hpc hq =>
      apply h.still hreq (.inl rfl) rfl _ (fun _ => hq) (.inl rfl) rfl rfl
      rw [hq]
  | @cancelReq id q texts more pc e hpc hreq' hq htext htype hmore =>
      apply h.still hreq (.inl rfl) rfl _ (fun _ => hq) _ rfl rfl
      · rw [hq]
      · rcases hmore with ⟨-, -, rfl⟩ | ⟨-, -, rfl⟩
        · exact .inl (List.append_nil _)
        · exact .inr ⟨_, rfl, rfl, rfl⟩
  | cancelOp hpc =>
      exact h.still hreq (.inl rfl) rfl (.refl _) (fun _ => rfl) (.inr ⟨_, rfl, rfl, rfl⟩) rfl
        (opIds_of (OpCtl.cancelOp_operations _ _) (OpCtl.Quiet.cancelOp _ _).heap_id)

/-- `do_ctl_change_op` creates an operation for the request in hand. -/
theorem create (h : VoiceInv s) (hreq : Requests t) {info : SpeechReqInfo}
    (hhand : s.send.hand = some info) (hinit : t.initialized = s.initialized)
    (hlog : t.log = s.log) (hcr : t.created = s.created ++ [info.id])
    (hsend : t.send.hand = none) (hkeys : t.voiceReqs = s.voiceReqs)
    (hops : t.controller.opIds = s.controller.opIds ++ [info.id]) : VoiceInv t := by
  have hqueued := h.queued
  rw [hhand, Option.map_some] at hqueued
  have hnew := hqueued.create
  constructor
  · exact hreq
  · rw [hinit, hlog, hcr, hsend, hkeys]
    exact hnew
  · rw [hlog, hcr]
    intro r hr
    exact List.mem_append_left _ (h.created r hr)
  · rw [hlog, hops]
    intro r hr hrs x hx hxs
    rw [List.mem_append, List.mem_singleton] at hx
    rcases hx with hx | rfl
    · exact h.le_left r hr hrs x hx hxs
    · exact hqueued.created_le_hand _ rfl hxs r.id (h.created r hr) hrs
  · rw [hlog, hcr, hops]
    intro j hj
    rw [List.mem_append, List.mem_singleton] at hj
    rcases hj with hj | rfl
    · rcases h.gone j hj with hmem | hdone
      · exact .inl (List.mem_append_left _ hmem)
      · exact .inr hdone
    · exact .inl (List.mem_append_right _ List.mem_cons_self)
  · rw [hlog]
    exact h.order

/-- The request in hand is passed on, or done with; it has an operation. -/
theorem pass (h : VoiceInv s) (hreq : Requests t) {info : SpeechReqInfo}
    (hhand : s.send.hand = some info) (hid : info.id ∈ s.created)
    (hinit : t.initialized = s.initialized) (hlog : t.log = s.log) (hcr : t.created = s.created)
    (hsend : t.send.hand = none) (hkeys : t.voiceReqs = s.voiceReqs)
    (hops : t.controller.opIds = s.controller.opIds) : VoiceInv t := by
  have hqueued := h.queued
  rw [hhand, Option.map_some] at hqueued
  apply h.kept hreq _ (.inl hlog) hcr hops
  rw [hinit, hsend, hkeys]
  exact hqueued.drop hid

theorem send_step (h : VoiceInv s) {r : ConnectionOpResult} (hst : s.sendStep r = some t) :
    VoiceInv t := by
  have hreq := h.requests.send_step hst
  cases sendStep_move hst with
  | @takeVoice info p q hpc hinit hpop htype =>
      obtain ⟨rest, hks, hks'⟩ := Popped.fst_cases hpop
      apply h.kept hreq _ (.inl rfl) rfl rfl
      have hqueued := h.queued
      rw [hpc, hinit] at hqueued
      rw [hinit]
      exact hqueued.take hks hks'
  | @takeText info texts hpc htext =>
      have hmem : info.id ∈ s.textReqs.map (·.id) := by
        rw [htext]
        exact List.mem_cons_self
      apply h.kept hreq _ (.inl rfl) rfl rfl
      have hqueued := h.queued
      rw [hpc] at hqueued
      exact hqueued.takeText (h.requests.labels.apart _ (h.requests.labels.texts _ hmem))
  | create hpc htype =>
      exact h.create hreq (by rw [hpc]; rfl) rfl rfl rfl rfl rfl
        (h.requests.inv.newOp_opIds (by simp [hpc]) _ _)
  | createCancelled hpc htype =>
      exact h.create hreq (by rw [hpc]; rfl) rfl rfl rfl rfl rfl
        (h.requests.inv.newOp_opIds (by simp [hpc]) _ _)
  | proceed hpc htype =>
      exact h.pass hreq (by rw [hpc]; rfl) (h.requests.found _ _ hpc) rfl rfl rfl rfl rfl rfl
  | cancelCurrent hpc htype =>
      exact h.pass hreq (by rw [hpc]; rfl) (h.requests.found _ _ hpc) rfl rfl rfl rfl rfl
        (opIds_of rfl (OpCtl.setStatus_heap_id _ _ _))
  | drop hpc htype =>
      have hhand := h.requests.served _ (by rw [hpc]; rfl) htype
      exact h.pass hreq (by rw [hpc]; rfl) hhand rfl rfl rfl rfl rfl rfl
  | sleep hpc hinit hq =>
      exact h.still hreq (.inl rfl) (by rw [hpc]; rfl) (by rw [hq]) (fun _ => hq) (.inl rfl) rfl rfl
  | seeText hpc hinit hq =>
      exact h.still hreq (.inl rfl) (by rw [hpc]; rfl) (by rw [hq]) (fun _ => hq) (.inl rfl) rfl rfl
  | erase hpc hq =>
      exact h.still hreq (.inl rfl) (by rw [hpc]; rfl) (by rw [hq]) (fun _ => hq) (.inl rfl) rfl rfl
  | setError hpc =>
      exact h.still hreq (.inl rfl) (by rw [hpc]; rfl) (.refl _) (fun _ => rfl) (.inl rfl) rfl
        (opIds_of (OpCtl.setOpError_operations _ _) (OpCtl.Quiet.setOpError _ _).heap_id)
  | refresh hpc =>
      apply h.still hreq (.inl rfl) _ (.refl _) (fun _ => rfl) (.inl rfl) rfl
        (opIds_of (OpCtl.refreshOpTime_operations _ _ _) (OpCtl.Quiet.refreshOpTime _ _ _).heap_id)
      rw [hpc]
      split <;> rfl
  | crash hpc htext =>
      exact h.still hreq (.inl rfl) rfl (.refl _) (fun _ => rfl) (.inl rfl) rfl rfl
  | abort hpc htype => cases hreq.inv.running
  | _ hpc =>
      exact h.still hreq (.inl rfl) (by rw [hpc]; rfl) (.refl _) (fun _ => rfl) (.inl rfl) rfl rfl

/-- **`poll`** returns a result for the oldest operation. -/
theorem report (h : VoiceInv s) (hreq : Requests t) {a : Nat} {r : SpeechResult}
    (hrep : Reported s.controller a r) (hinit : t.initialized = s.initialized)
    (hsend : t.send = s.send) (hkeys : t.voiceReqs = s.voiceReqs) (hcr : t.created = s.created)
    (hlog : t.log = s.log ++ [.result a r])
    (hc : t.controller =
      if r.type.isTerminal then s.controller.removeFrontOp else s.controller) : VoiceInv t := by
  have hids : s.controller.opIds = r.id :: s.controller.removeFrontOp.opIds := by
    rw [hrep.id_eq]
    exact OpCtl.opIds_of_front hrep.front
  have hfront : r.id ∈ s.controller.opIds := by
    rw [hids]
    exact List.mem_cons_self
  -- the operations that are left
  have hsub : t.controller.opIds <:+ s.controller.opIds := by
    rw [hc]
    split
    · exact (OpCtl.Quiet.removeFrontOp _).toKept.opIds
    · exact List.suffix_refl _
  have hsorted := h.queued.created_sorted.sublist h.requests.inv.opIds.sublist
  rw [hids, List.pairwise_cons] at hsorted
  have hle : ∀ x ∈ s.controller.opIds, r.id ∈ starts s.log → x ∈ starts s.log → r.id ≤ x := by
    intro x hx hrs hxs
    rw [hids, List.mem_cons] at hx
    rcases hx with rfl | hx
    · exact Int.le_refl _
    · exact hsorted.1 x hx hrs hxs
  have hres : results t.log = results s.log ++ [r] := by
    rw [hlog, results_append, results_result]
  have hst : starts t.log = starts s.log := by
    rw [hlog, starts_append, starts_result, List.append_nil]
  constructor
  · exact hreq
  · rw [hinit, hst, hcr, hsend, hkeys]
    exact h.queued
  · rw [hres, hcr]
    intro x hx
    rw [List.mem_append, List.mem_singleton] at hx
    rcases hx with hx | rfl
    · exact h.created x hx
    · exact h.requests.inv.opIds.subset hfront
  · rw [hres, hst]
    intro x hx hxs y hy hys
    rw [List.mem_append, List.mem_singleton] at hx
    rcases hx with hx | rfl
    · exact h.le_left x hx hxs y (hsub.subset hy) hys
    · exact hle y (hsub.subset hy) hxs hys
  · rw [hres, hcr]
    intro j hj
    rcases h.gone j hj with hmem | ⟨x, hx, hxj, hterm⟩
    · rw [hc]
      split
      · rename_i hterm
        rw [hids, List.mem_cons] at hmem
        rcases hmem with rfl | hmem
        · exact .inr ⟨r, List.mem_append_right _ List.mem_cons_self, rfl, hterm⟩
        · exact .inl hmem
      · exact .inl hmem
    · exact .inr ⟨x, List.mem_append_left _ hx, hxj, hterm⟩
  · rw [hlog]
    apply h.order.result
    · intro hrs x hx hxs
      exact h.le_left x hx hxs r.id hfront hrs
    · intro hrs j hj hlt
      -- it has an operation, which cannot be behind this one
      have hcreated := h.queued.before r.id hrs (.inl (h.requests.inv.opIds.subset hfront)) j hj hlt
      rcases h.gone j hcreated with hmem | hdone
      · have hge := hle j hmem hrs hj
        omega
      · exact hdone

theorem pollStep (h : VoiceInv s) (hst : s.pollStep = some t) : VoiceInv t := by
  have hreq := h.requests.pollStep hst
  unfold SpeechImpl.pollStep at hst
  split at hst
  · split at hst
    · rename_i hi
      obtain ⟨o, c, q, hpoll, -, -, hcase⟩ := h.requests.inv.poll hi
      rw [hpoll] at hst
      rcases hcase with ⟨rfl, rfl⟩ | ⟨a, r, rfl, hrep, hc⟩
      · cases hst
        exact h.still hreq (.inl rfl) rfl (.refl _) (fun _ => rfl) (.inl rfl) rfl rfl
      · cases hst
        exact h.report hreq hrep rfl rfl rfl rfl rfl hc
    · cases hst
      exact h
  · cases hst

/-- **One step.** -/
theorem step (h : VoiceInv s) {a : SpeechAct} (hok : OneSession s a) (hst : s.step a = some t) :
    VoiceInv t := by
  have hreq := h.requests.step hok hst
  unfold SpeechImpl.step at hst
  split at hst
  · cases hst
  · cases a with
    | prepare => exact absurd rfl hok.1
    | release => exact h.release hst
    | call n c => exact h.call hst
    | client n => exact h.client hok.2 hst
    | poll => exact h.pollStep hst
    | config mod =>
        cases hst
        cases mod with
        | none => exact h
        | some mod =>
            exact h.still hreq (.inl rfl) rfl (.refl _) (fun _ => rfl) (.inl rfl) rfl rfl
    | send r => exact h.send_step hst
    | gen r resp => exact h.gen hst
    | tick ns =>
        cases hst
        exact h.still hreq (.inl rfl) rfl (.refl _) (fun _ => rfl) (.inl rfl) rfl rfl

end VoiceInv

/-- **Voice results in request order.**  In every run of a session in which `++next_id_` is not
    interrupted, the results for voice requests come with ids that never decrease, and a result
    for one of them comes after a terminal result for each older one. -/
theorem voice_order {s : SpeechImpl} (hrun : Run Steps OneSession opened s) :
    VoiceOrder s.log := by
  have h : VoiceInv s := hrun.invariant (fun _ _ _ h hok hst => h.step hok hst) .opened
  exact h.order

/-- Of two voice requests the first is cancelled before the send thread has seen it, the second
    is answered. -/
def skippedVoice : List SpeechAct :=
  let resp : SpeechResponse := { id := 2, type := respIntermediate, result := 0, asr := "hi" }
  [.call 0 (.startVoice none), .client 0, .client 0, .call 0 (.startVoice none), .client 0, .client 0,
    .call 0 (.cancel 1), .client 0, .send .success, .send .success, .send .success, .poll,
    .send .success, .send .success, .send .success, .send .success, .send .success,
    .send .success, .gen .success resp, .gen .success resp, .gen .success resp, .poll, .poll]

theorem voice_order_skippedVoice :
    ∃ s, exec step opened skippedVoice = some s ∧
      (results s.log).map (fun r => (r.id, r.type)) =
        [(1, .cancelled), (2, .start), (2, .inter)] ∧ VoiceOrder s.log := by
  have hok : allOk step OneSession opened skippedVoice = true := by decide +kernel
  refine ⟨_, rfl, by decide +kernel, ?_⟩
  exact voice_order (Run.of_exec hok rfl)

end SpeechImpl

end OpenVoice
