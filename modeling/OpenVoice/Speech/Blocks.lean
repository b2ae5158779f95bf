import OpenVoice.Speech.Booked

/-!
# The wire protocol of `SpeechImpl`

What `send_reqs` hands to `connection_.send` is a sequence of blocks, a text request or a voice
request with its start, its chunks and its end (`wire_protocol`).  `do_ctl_change_op` does not
compare the request in hand with the current operation; that the two belong together follows from
the order of the queue and from `wait_op_finish` (`SendPc.Serves`).
-/

namespace OpenVoice

open OpenVoice.Lib

/-- The requests of one operation. -/
inductive WireBlock where
  | text (id : Int) (asr : Option Bytes) (options : Option SpeechOptionsEnc)
  | voice (id : Int) (options : Option SpeechOptionsEnc) (chunks : List (Sp Bytes)) (ended : Bool)
deriving DecidableEq, Repr

namespace WireBlock

def id : WireBlock → Int
  | text id _ _ => id
  | voice id _ _ _ => id

/-- The chunks of voice in it. -/
def chunks : WireBlock → List (Sp Bytes)
  | text _ _ _ => []
  | voice _ _ chunks _ => chunks

/-- The end of the voice request is in it. -/
def ended : WireBlock → Bool
  | text _ _ _ => false
  | voice _ _ _ ended => ended

/-- `TEXT`, or `START VOICE* END?`. -/
def requests : WireBlock → List SpeechRequest
  | text id asr options => [{ id := id, type := .text, asr := asr, options := options }]
  | voice id options chunks ended =>
      { id := id, type := .start, options := options } ::
        (chunks.map fun chunk => { id := id, type := .voice, voice := chunk }) ++
        if ended then [{ id := id, type := .end_ }] else []

end WireBlock

open Wire

/-- **The wire protocol.**  `bs` are the blocks of which the requests handed to `connection_.send`
    consist. -/
structure WireProtocol (tr : List WireEvent) (bs : List WireBlock) : Prop where
  handed : handed tr = bs.flatMap WireBlock.requests
  once : (bs.map WireBlock.id).Nodup
  payload : ∀ b ∈ bs, b.chunks <+: accepted b.id tr
  whole : ∀ b ∈ bs, b.ended = true → .cancelled b.id ∉ tr → b.chunks = accepted b.id tr

namespace SpeechImpl

/-! ### The block that is being sent -/

/-- The last block is that of a voice request, with these chunks so far. -/
def Open (bs : List WireBlock) (id : Int) (chunks : List (Sp Bytes)) : Prop :=
  ∃ bs₀ options, bs = bs₀ ++ [.voice id options chunks false]

/-- Everything taken for the current operation has been handed on. -/
def Following (init : Bool) (c : OpCtl SpeechError) (tr : List WireEvent) (bs : List WireBlock) :
    Prop :=
  init = true → ∀ a, c.currentOp = some a →
    Open bs (c.heap a).id (taken (c.heap a).id tr)

/-- The request goes on in the right block, or opens one. -/
inductive Fits (keys : List Int) (c : OpCtl SpeechError) (tr : List WireEvent)
    (bs : List WireBlock) (info : SpeechReqInfo) : Prop where
  | text (htype : info.type = .text) (hnew : info.id ∉ bs.map WireBlock.id)
  | start (htype : info.type = .voiceStart) (hnew : info.id ∉ bs.map WireBlock.id)
      (htaken : taken info.id tr = []) (honly : OnlyCurrent info.id c)
  | data {chunks : List (Sp Bytes)} (htype : info.type = .voiceData)
      (hopen : Open bs info.id chunks) (htaken : taken info.id tr = chunks ++ [info.data])
      (honly : OnlyCurrent info.id c)
  | close (htype : info.type = .voiceEnd ∨ info.type = .cancelled)
      (hopen : Open bs info.id (taken info.id tr)) (hkey : info.id ∉ keys)
      (hdrop : .dropped info.id ∉ tr)

/-- The same before `do_ctl_change_op` has looked at the operation; `found` says that there is
    one. -/
inductive MayFit (keys : List Int) (c : OpCtl SpeechError) (tr : List WireEvent)
    (bs : List WireBlock) (info : SpeechReqInfo) (found : Prop) : Prop where
  | text (htype : info.type = .text)
  | start (htype : info.type = .voiceStart) (htaken : taken info.id tr = [])
  | later (htype : opens info.type = false) (hfits : found → Fits keys c tr bs info)

/-- What has been sent, seen from each place of the send thread. -/
def SendPc.Serves (init : Bool) (keys : List Int) (c : OpCtl SpeechError) (tr : List WireEvent)
    (bs : List WireBlock) : SendPc → Prop
  | .loop | .waitReq | .textCheck | .textTake (some _) => Following init c tr bs
  | .doCtl info => MayFit keys c tr bs info (c.currentOp ≠ none)
  | .changeOp info op => MayFit keys c tr bs info (op ≠ none)
  | .request info => Fits keys c tr bs info
  | .sending info _ | .writing info _ | .sent info =>
      info.type = .voiceStart ∨ info.type = .voiceData → Following init c tr bs
  | .textTake none | .sendFailed _ _ | .eraseReq _ | .waitOp _ | .parking _ | .blocked _ | .done =>
      True

section Serves

variable {init init' : Bool} {keys keys' : List Int} {c c' : OpCtl SpeechError}
  {tr es : List WireEvent} {bs : List WireBlock} {info : SpeechReqInfo}

theorem Following.of_none (h : c.currentOp = none) : Following init c tr bs := by
  intro _ a ha
  rw [h] at ha
  cases ha

theorem Following.quiet (h : Following init c tr bs) (hq : c.Quiet c')
    (hinit : init' = true → init = true) (htaken : ∀ id, taken id es = []) :
    Following init' c' (tr ++ es) bs := by
  intro hi a ha
  have hopen := h (hinit hi) a (hq.current_some ha)
  rw [hq.heap_id, taken_append, htaken, List.append_nil]
  exact hopen

/-- Another thread takes a step: it leaves alone what is not in the queue. -/
theorem Fits.quiet (h : Fits keys c tr bs info) (hq : c.Quiet c')
    (htaken : ∀ id, taken id es = [])
    (hkeys : ∀ id ∈ bs.map WireBlock.id, id ∉ keys → id ∉ keys' ∧ .dropped id ∉ es) :
    Fits keys' c' (tr ++ es) bs info := by
  have hsame : taken info.id (tr ++ es) = taken info.id tr := by
    rw [taken_append, htaken, List.append_nil]
  cases h with
  | text htype hnew => exact .text htype hnew
  | start htype hnew htk honly => exact .start htype hnew (hsame.trans htk) (honly.quiet hq)
  | data htype hopen htk honly => exact .data htype hopen (hsame.trans htk) (honly.quiet hq)
  | close htype hopen hkey hdrop =>
      have hmem : info.id ∈ bs.map WireBlock.id := by
        obtain ⟨bs₀, options, rfl⟩ := hopen
        simp [WireBlock.id]
      obtain ⟨hkey', hdrop'⟩ := hkeys _ hmem hkey
      rw [← hsame] at hopen
      refine .close htype hopen hkey' ?_
      rw [List.mem_append, not_or]
      exact ⟨hdrop, hdrop'⟩

theorem MayFit.quiet {found found' : Prop} (h : MayFit keys c tr bs info found) (hq : c.Quiet c')
    (htaken : ∀ id, taken id es = [])
    (hkeys : ∀ id ∈ bs.map WireBlock.id, id ∉ keys → id ∉ keys' ∧ .dropped id ∉ es)
    (hfound : found' → found) : MayFit keys' c' (tr ++ es) bs info found' := by
  cases h with
  | text htype => exact .text htype
  | start htype htk =>
      refine .start htype ?_
      rw [taken_append, htaken, List.append_nil]
      exact htk
  | later htype hfits => exact .later htype fun hf => (hfits (hfound hf)).quiet hq htaken hkeys

/-- `do_ctl_change_op` has found an operation. -/
theorem MayFit.fits {found : Prop} (h : MayFit keys c tr bs info found) (hf : found)
    (htype : opens info.type = false) : Fits keys c tr bs info := by
  cases h with
  | text htext =>
      rw [htext] at htype
      cases htype
  | start hstart htaken =>
      rw [hstart] at htype
      cases htype
  | later hlater hfits => exact hfits hf

/-- Whether the operation is still current does not matter for the end. -/
theorem Fits.cancelled (h : Fits keys c tr bs info) (htype : info.type = .cancelled) :
    Fits keys c' tr bs info := by
  cases h with
  | text htext => simp [htext] at htype
  | start hstart => simp [hstart] at htype
  | data hdata => simp [hdata] at htype
  | close hclose hopen hkey hdrop => exact .close hclose hopen hkey hdrop

theorem SendPc.Serves.quiet {pc : SendPc} (h : pc.Serves init keys c tr bs) (hq : c.Quiet c')
    (hinit : init' = true → init = true) (htaken : ∀ id, Wire.taken id es = [])
    (hkeys : ∀ id ∈ bs.map WireBlock.id, id ∉ keys → id ∉ keys' ∧ .dropped id ∉ es) :
    pc.Serves init' keys' c' (tr ++ es) bs := by
  cases pc with
  | loop => exact Following.quiet h hq hinit htaken
  | waitReq => exact Following.quiet h hq hinit htaken
  | textCheck => exact Following.quiet h hq hinit htaken
  | textTake op =>
      cases op with
      | none => exact trivial
      | some a => exact Following.quiet h hq hinit htaken
  | doCtl info =>
      apply MayFit.quiet h hq htaken hkeys
      intro hne hnone
      exact hne (hq.current_none hnone)
  | changeOp info op => exact MayFit.quiet h hq htaken hkeys fun hne => hne
  | request info => exact Fits.quiet h hq htaken hkeys
  | sending info treq => exact fun htype => (h htype).quiet hq hinit htaken
  | writing info treq => exact fun htype => (h htype).quiet hq hinit htaken
  | sent info => exact fun htype => (h htype).quiet hq hinit htaken
  | _ => exact trivial

end Serves

/-! ### The invariant -/

/-- **The invariant of the wire.** -/
structure Wired (s : SpeechImpl) (tr : List WireEvent) (bs : List WireBlock) : Prop where
  booked : Booked s tr
  handed : handed tr = bs.flatMap WireBlock.requests
  once : (bs.map WireBlock.id).Nodup
  created : ∀ id ∈ bs.map WireBlock.id, id ∈ s.created
  le : ∀ b ∈ bs, b.chunks <+: taken b.id tr
  ended : ∀ b ∈ bs, b.ended = true → b.id ∉ s.voiceReqs.keys.map Prod.fst ∧
    .dropped b.id ∉ tr ∧ b.chunks = taken b.id tr
  serves : s.send.Serves s.initialized (s.voiceReqs.keys.map Prod.fst) s.controller tr bs

/-- What is handed to `connection_.send` keeps the protocol. -/
theorem Wired.protocol {s : SpeechImpl} {tr : List WireEvent} {bs : List WireBlock}
    (h : Wired s tr bs) : WireProtocol tr bs where
  handed := h.handed
  once := h.once
  payload := by
    intro b hb
    have hle := h.booked.accounts.le b.id
    exact (h.le b hb).trans ((List.prefix_append _ _).trans hle)
  whole := by
    intro b hb hended hcancel
    obtain ⟨hkey, hdrop, heq⟩ := h.ended b hb hended
    have hlost : ¬ Lost tr b.id := by
      rintro (hc | hd)
      · exact hcancel hc
      · exact hdrop hd
    have hwhole := h.booked.accounts.whole b.id hlost
    rw [Streams.keys, Fifo.keys_fst] at hkey
    simp only [Fifo.pending_of_notMem hkey, List.append_nil] at hwhole
    exact heq.trans hwhole

namespace Wired

variable {s t : SpeechImpl} {tr es : List WireEvent} {bs : List WireBlock}

theorem opened : Wired opened [] [] where
  booked := .opened
  handed := rfl
  once := .nil
  created := by
    intro id hid
    cases hid
  le := by
    intro b hb
    cases hb
  ended := by
    intro b hb
    cases hb
  serves := by
    intro _ a ha
    cases ha

/-- A step that hands nothing to `connection_.send`. -/
theorem keep (h : Wired s tr bs) (hb : Booked t (tr ++ es)) (hhanded : Wire.handed es = [])
    (hcr : ∀ id ∈ s.created, id ∈ t.created)
    (hfree : ∀ id ∈ bs.map WireBlock.id, id ∉ s.voiceReqs.keys.map Prod.fst →
      id ∉ t.voiceReqs.keys.map Prod.fst ∧ .dropped id ∉ es ∧ taken id es = [])
    (hserves : t.send.Serves t.initialized (t.voiceReqs.keys.map Prod.fst) t.controller (tr ++ es)
      bs) : Wired t (tr ++ es) bs where
  booked := hb
  handed := by
    rw [handed_append, hhanded, List.append_nil]
    exact h.handed
  once := h.once
  created := fun id hid => hcr id (h.created id hid)
  le := by
    intro b hb
    rw [taken_append]
    exact (h.le b hb).trans (List.prefix_append _ _)
  ended := by
    intro b hb hended
    obtain ⟨hkey, hdrop, heq⟩ := h.ended b hb hended
    obtain ⟨hkey', hdrop', htaken⟩ := hfree b.id (List.mem_map_of_mem hb) hkey
    refine ⟨hkey', ?_, ?_⟩
    · rw [List.mem_append, not_or]
      exact ⟨hdrop, hdrop'⟩
    · rw [taken_append, htaken, List.append_nil]
      exact heq
  serves := hserves

/-- A step of any thread but the send thread. -/
theorem others (h : Wired s tr bs) (hb : Booked t (tr ++ es))
    (hes : ∀ e ∈ es, (∃ id voice, e = .accepted id voice) ∨ (∃ id, e = .cancelled id) ∨
      ∃ id ∈ s.voiceReqs.keys.map Prod.fst, e = .dropped id)
    (hsend : t.send = s.send) (hcr : t.created = s.created)
    (hkeys : ∀ id ∈ t.voiceReqs.keys.map Prod.fst,
      id ∈ s.voiceReqs.keys.map Prod.fst ∨ id ∉ s.created)
    (hinit : t.initialized = true → s.initialized = true)
    (hquiet : s.controller.Quiet t.controller) : Wired t (tr ++ es) bs := by
  have htaken : ∀ id, taken id es = [] := by
    intro id
    apply List.filterMap_eq_nil_iff.mpr
    intro e he
    rcases hes e he with ⟨i, voice, rfl⟩ | ⟨i, rfl⟩ | ⟨i, -, rfl⟩
    · rfl
    · rfl
    · rfl
  have hfree : ∀ id ∈ bs.map WireBlock.id, id ∉ s.voiceReqs.keys.map Prod.fst →
      id ∉ t.voiceReqs.keys.map Prod.fst ∧ .dropped id ∉ es := by
    intro id hid hkey
    constructor
    · intro hmem
      rcases hkeys id hmem with hold | hnew
      · exact hkey hold
      · exact hnew (h.created id hid)
    · intro hmem
      rcases hes _ hmem with ⟨i, voice, heq⟩ | ⟨i, heq⟩ | ⟨i, hi, heq⟩
      · cases heq
      · cases heq
      · cases heq
        exact hkey hi
  apply h.keep hb
  · apply List.filterMap_eq_nil_iff.mpr
    intro e he
    rcases hes e he with ⟨i, voice, rfl⟩ | ⟨i, rfl⟩ | ⟨i, -, rfl⟩
    · rfl
    · rfl
    · rfl
  · intro id hid
    rw [hcr]
    exact hid
  · intro id hid hkey
    obtain ⟨hkey', hdrop⟩ := hfree id hid hkey
    exact ⟨hkey', hdrop, htaken id⟩
  · rw [hsend]
    exact h.serves.quiet hquiet hinit htaken hfree

theorem release (h : Wired s tr bs) (hst : s.release = some t) :
    Wired t (tr ++ s.releaseEvents) bs := by
  have hb := h.booked.release hst
  have hes : ∀ e ∈ s.releaseEvents, (∃ id voice, e = .accepted id voice) ∨
      (∃ id, e = .cancelled id) ∨ ∃ id ∈ s.voiceReqs.keys.map Prod.fst, e = .dropped id := by
    intro e he
    unfold releaseEvents at he
    split at he
    · obtain ⟨id, hid, rfl⟩ := List.mem_map.mp he
      refine .inr (.inr ⟨id, ?_, rfl⟩)
      rw [Streams.keys, Fifo.keys_fst]
      exact hid
    · cases he
  cases release_move hst with
  | absent hrel hinit =>
      exact h.others hb hes rfl rfl (fun _ hid => .inl hid) (fun hi => hi) (.refl _)
  | enter hrel hinit =>
      exact h.others hb hes rfl rfl (fun _ hid => .inl hid) (fun hi => by cases hi) (.refl _)
  | close hrel =>
      apply h.others hb hes rfl rfl _ (fun hi => hi) (.refl _)
      intro id hid
      rw [Streams.close_keys] at hid
      cases hid
  | setError hrel =>
      exact h.others hb hes rfl rfl (fun _ hid => .inl hid) (fun hi => hi) (.setOpError _ _)
  | joinReq hrel hdone =>
      exact h.others hb hes rfl rfl (fun _ hid => .inl hid) (fun hi => hi) (.refl _)
  | closeResp hrel hfree =>
      exact h.others hb hes rfl rfl (fun _ hid => .inl hid) (fun hi => hi) (.finishOp _)
  | joinResp hrel hdone =>
      exact h.others hb hes rfl rfl (fun _ hid => .inl hid) (fun hi => hi) (.refl _)

theorem call (h : Wired s tr bs) {n : Nat} {c : SpeechCall} (hst : s.call n c = some t) :
    Wired t (tr ++ []) bs := by
  have hb := h.booked.call hst
  cases call_move hst with
  | stay =>
      exact h.others hb (fun e he => by cases he) rfl rfl (fun _ hid => .inl hid) (fun hi => hi)
        (.refl _)
  | enter hidle hheld hpc =>
      exact h.others hb (fun e he => by cases he) rfl rfl (fun _ hid => .inl hid) (fun hi => hi)
        (.refl _)
  | cancel id hidle =>
      exact h.others hb (fun e he => by cases he) rfl rfl (fun _ hid => .inl hid) (fun hi => hi)
        (.refl _)

theorem client (h : Wired s tr bs) {n : Nat} (hok : AtomicIncr s (.client n))
    (hst : s.client n = some t) : Wired t (tr ++ s.clientEvents n) bs := by
  have hb := h.booked.client hok hst
  have hes : ∀ e ∈ s.clientEvents n, (∃ id voice, e = .accepted id voice) ∨
      (∃ id, e = .cancelled id) ∨ ∃ id ∈ s.voiceReqs.keys.map Prod.fst, e = .dropped id := by
    intro e he
    unfold clientEvents at he
    split at he
    · obtain ⟨voice, -, rfl⟩ := List.mem_map.mp he
      exact .inl ⟨_, voice, rfl⟩
    · obtain ⟨id, -, rfl⟩ := List.mem_map.mp he
      exact .inr (.inl ⟨id, rfl⟩)
    · cases he
  have hsame : ∀ {q : Streams Bytes VoiceOptions}, q.keys = s.voiceReqs.keys →
      ∀ id ∈ q.keys.map Prod.fst, id ∈ s.voiceReqs.keys.map Prod.fst ∨ id ∉ s.created := by
    intro q hq id hid
    rw [hq] at hid
    exact .inl hid
  cases client_move hst with
  | load hpc => exact h.others hb hes rfl rfl (hsame rfl) (fun hi => hi) (.refl _)
  | store hpc => exact h.others hb hes rfl rfl (hsame rfl) (fun hi => hi) (.refl _)
  | push hpc hp htype => exact h.others hb hes rfl rfl (hsame rfl) (fun hi => hi) (.refl _)
  | lock hpc => exact h.others hb hes rfl rfl (hsame rfl) (fun hi => hi) (.refl _)
  | start hpc hq =>
      obtain rfl := hok.storeVoice hpc
      apply h.others hb hes rfl rfl _ (fun hi => hi) (.refl _)
      intro id hid
      rw [hq, List.map_append, List.mem_append] at hid
      rcases hid with hid | hid
      · exact .inl hid
      · obtain rfl := List.mem_singleton.mp hid
        refine .inr fun hc => ?_
        have hle := h.booked.requests.inv.ids.created_le _ hc
        simp only at hle
        omega
  | startFailed hpc hq => exact h.others hb hes rfl rfl (hsame hq) (fun hi => hi) (.refl _)
  | voice hpc hq => exact h.others hb hes rfl rfl (hsame hq) (fun hi => hi) (.refl _)
  | cancelReq hpc hreq hq htext htype hmore =>
      exact h.others hb hes rfl rfl (hsame hq) (fun hi => hi) (.refl _)
  | cancelOp hpc => exact h.others hb hes rfl rfl (hsame rfl) (fun hi => hi) (.cancelOp _ _)

theorem gen (h : Wired s tr bs) {r : ConnectionOpResult} {resp : SpeechResponse}
    (hst : s.genStep r resp = some t) : Wired t (tr ++ s.genEvents) bs := by
  have hb := h.booked.gen hst
  have hes : ∀ e ∈ s.genEvents, (∃ id voice, e = .accepted id voice) ∨
      (∃ id, e = .cancelled id) ∨ ∃ id ∈ s.voiceReqs.keys.map Prod.fst, e = .dropped id := by
    intro e he
    unfold genEvents at he
    split at he
    · obtain ⟨id, hid, rfl⟩ := List.mem_map.mp he
      refine .inr (.inr ⟨id, ?_, rfl⟩)
      rw [Streams.keys, Fifo.keys_fst]
      exact (mem_erased hid).2
    · cases he
  obtain ⟨c, q, v, k, pc, hquiet, hv, rfl⟩ := genStep_spec hst
  apply h.others hb hes rfl rfl _ (fun hi => hi) hquiet
  intro id hid
  rw [hv] at hid
  exact .inl hid

theorem pollStep (h : Wired s tr bs) (hst : s.pollStep = some t) : Wired t (tr ++ []) bs := by
  have hb := h.booked.pollStep hst
  have hes : ∀ e ∈ ([] : List WireEvent), (∃ id voice, e = .accepted id voice) ∨
      (∃ id, e = .cancelled id) ∨ ∃ id ∈ s.voiceReqs.keys.map Prod.fst, e = .dropped id := by
    intro e he
    cases he
  unfold SpeechImpl.pollStep at hst
  split at hst
  · split at hst
    · split at hst
      · cases hst
        exact h.others hb hes rfl rfl (fun _ hid => .inl hid) (fun hi => hi) (.refl _)
      · rename_i u hpoll
        obtain ⟨c, q, rfl, hquiet⟩ := poll_eq hpoll
        cases hst
        exact h.others hb hes rfl rfl (fun _ hid => .inl hid) (fun hi => hi) hquiet
      · rename_i r u hpoll
        obtain ⟨c, q, rfl, hquiet⟩ := poll_eq hpoll
        cases hst
        exact h.others hb hes rfl rfl (fun _ hid => .inl hid) (fun hi => hi) hquiet
    · cases hst
      exact h.others hb hes rfl rfl (fun _ hid => .inl hid) (fun hi => hi) (.refl _)
  · cases hst

/-! #### The send thread -/

/-- Nothing is handed on, and the queue is not touched. -/
theorem calm (h : Wired s tr bs) (hb : Booked t (tr ++ s.sendEvents)) (hes : s.sendEvents = [])
    (hcr : ∀ id ∈ s.created, id ∈ t.created) (hq : t.voiceReqs = s.voiceReqs)
    (hserves : t.send.Serves t.initialized (t.voiceReqs.keys.map Prod.fst) t.controller tr bs) :
    Wired t (tr ++ s.sendEvents) bs := by
  rw [hes] at hb ⊢
  apply h.keep hb rfl hcr
  · intro id _ hkey
    rw [hq]
    exact ⟨hkey, List.not_mem_nil, rfl⟩
  · rw [List.append_nil]
    exact hserves

/-- A request that is taken from `voice_reqs_` belongs to the current operation, if there is
    one. -/
theorem mayFit (h : Wired s tr bs) (hinit : s.initialized = true) (hpc : s.send = .loop)
    {info : SpeechReqInfo} {t : PopType} {ks : List (Int × Bool)}
    (hpop : Popped info.id s.voiceReqs.keys ks t) (htype : info.type = reqtype t)
    (hes : es = if info.type = .voiceData then [.taken info.id info.data] else []) :
    MayFit (ks.map Prod.fst) s.controller (tr ++ es) bs info (s.controller.currentOp ≠ none) := by
  have hfollow : Following s.initialized s.controller tr bs := by
    have hserves := h.serves
    rw [hpc] at hserves
    exact hserves
  have hknows : Attended s.initialized s.voiceReqs.keys s.controller := by
    have hknows := h.booked.requests.inv.send
    rw [hpc] at hknows
    exact hknows
  -- the operation that is current is that of the stream in front
  have hcurrent : ∀ {b : Bool} {rest : List (Int × Bool)}, s.voiceReqs.keys = (info.id, b) :: rest →
      s.controller.currentOp ≠ none →
      Open bs info.id (taken info.id tr) ∧ .dropped info.id ∉ tr := by
    intro b rest hks hne
    obtain ⟨a, ha⟩ := Option.ne_none_iff_exists'.mp hne
    have hid := hknows.only hinit hks a ha
    rw [← hid]
    exact ⟨hfollow hinit a ha, h.booked.kept hinit a ha⟩
  have hgone : ∀ {b : Bool}, s.voiceReqs.keys = (info.id, b) :: ks → info.id ∉ ks.map Prod.fst := by
    intro b hks
    have hnd := s.voiceReqs.keys_nodup
    rw [hks] at hnd
    exact (List.nodup_cons.mp hnd).1
  have hclose : ∀ {b : Bool}, info.type = .voiceEnd ∨ info.type = .cancelled →
      s.voiceReqs.keys = (info.id, b) :: ks →
      MayFit (ks.map Prod.fst) s.controller (tr ++ es) bs info (s.controller.currentOp ≠ none) := by
    intro b htype' hks
    have hnil : es = [] := by
      rw [hes, if_neg]
      rcases htype' with heq | heq
      · simp [heq]
      · simp [heq]
    rw [hnil, List.append_nil]
    refine .later ?_ ?_
    · rcases htype' with heq | heq
      · rw [heq]
        rfl
      · rw [heq]
        rfl
    · intro hne
      obtain ⟨hopen, hdrop⟩ := hcurrent hks hne
      exact .close htype' hopen (hgone hks) hdrop
  cases hpop with
  | start hks hks' =>
      have hnil : es = [] := by
        rw [hes, htype]
        rfl
      refine .start htype ?_
      by_contra hne
      rw [hnil, List.append_nil] at hne
      have hqueued : info.id ∈ s.queuedIds := by
        rw [queuedIds, waiting, hks, unstarted_cons_false]
        exact List.mem_append_right _ List.mem_cons_self
      exact h.booked.requests.inv.ids.queued_new _ hqueued (h.booked.served _ hne)
  | data hks hks' =>
      have hcons : es = [.taken info.id info.data] := by
        rw [hes, htype]
        rfl
      refine .later (by rw [htype]; rfl) ?_
      intro hne
      obtain ⟨hopen, -⟩ := hcurrent hks hne
      refine .data htype hopen ?_ (hknows.only hinit hks)
      rw [hcons]
      simp [taken]
  | end_ hks => exact hclose (.inl htype) hks
  | removed hks => exact hclose (.inr htype) hks
  | error hks => exact hclose (.inl htype) hks

/-- A request is taken from `voice_reqs_`, or none. -/
theorem takeReq (h : Wired s tr bs) (hpc : s.send = .loop)
    (hb : Booked s.takeReq (tr ++ s.sendEvents)) : Wired s.takeReq (tr ++ s.sendEvents) bs := by
  have hfollow : Following s.initialized s.controller tr bs := by
    have hserves := h.serves
    rw [hpc] at hserves
    exact hserves
  have hknows : Attended s.initialized s.voiceReqs.keys s.controller := by
    have hknows := h.booked.requests.inv.send
    rw [hpc] at hknows
    exact hknows
  have hes : s.sendEvents =
      if s.initialized = true ∧ (s.voiceReqs.pop voiceArgs).1.1 = .data then
        [.taken (s.voiceReqs.pop voiceArgs).1.2.id (s.voiceReqs.pop voiceArgs).1.2.res] else [] := by
    unfold sendEvents
    rw [hpc]
  cases hinit : s.initialized with
  | false =>
      have hnil : s.sendEvents = [] := by
        rw [hes, hinit]
        rfl
      have hdone : s.takeReq = { s with send := .done } := by
        unfold SpeechImpl.takeReq
        rw [hinit]
        rfl
      rw [hdone] at hb ⊢
      exact h.calm hb hnil (fun _ hid => hid) rfl trivial
  | true =>
      have hsub := (takeReq_takes hinit).keys_subset
      have hcase := takeReq_takes hinit
      generalize s.takeReq = t at hb hcase hsub
      cases hcase with
      | none hempty hq hwait =>
          have hnil : s.sendEvents = [] := by
            rw [hes, if_neg]
            rintro ⟨-, hdata⟩
            rw [hempty] at hdata
            cases hdata
          rw [hnil] at hb ⊢
          apply h.keep hb rfl fun _ hid => hid
          · intro id _ hkey
            exact ⟨fun hmem => hkey (hsub id hmem), List.not_mem_nil, rfl⟩
          · rw [List.append_nil]
            rcases hwait with rfl | rfl
            · exact hfollow
            · exact hfollow
      | @voice q info hid hdata htype hpop =>
          have hin : info.id ∈ s.voiceReqs.keys.map Prod.fst := hpop.mem
          have hev : s.sendEvents =
              if info.type = .voiceData then [.taken info.id info.data] else [] := by
            rw [hes, hid, hdata, htype]
            generalize (s.voiceReqs.pop voiceArgs).1.1 = p at hpop
            cases hpop <;> simp [hinit, reqtype]
          have htaken : ∀ id, id ∉ s.voiceReqs.keys.map Prod.fst → taken id s.sendEvents = [] := by
            intro id hkey
            rw [hev]
            split
            · have hne : info.id ≠ id := fun heq => hkey (heq ▸ hin)
              simp [taken, hne]
            · rfl
          apply h.keep hb
          · rw [hev]
            split
            · rfl
            · rfl
          · exact fun _ hid' => hid'
          · intro id _ hkey
            refine ⟨fun hmem => hkey (hsub id hmem), ?_, htaken id hkey⟩
            rw [hev]
            split
            · simp
            · exact List.not_mem_nil
          · exact h.mayFit hinit hpc hpop htype hev

/-- `do_request` has made the request for `connection_.send`; the last block is now `b`. -/
theorem hand (h : Wired s tr bs) {req : SpeechRequest} (bs₀ : List WireBlock) (b : WireBlock)
    (hb : Booked t (tr ++ [.handed req]))
    (hreq : bs₀.flatMap WireBlock.requests ++ b.requests = bs.flatMap WireBlock.requests ++ [req])
    (hsub : ∀ x ∈ bs₀, x ∈ bs) (hnd : ((bs₀ ++ [b]).map WireBlock.id).Nodup)
    (hid : b.id ∈ s.created) (hle : b.chunks <+: taken b.id tr)
    (hended : b.ended = true → b.id ∉ s.voiceReqs.keys.map Prod.fst ∧ .dropped b.id ∉ tr ∧
      b.chunks = taken b.id tr)
    (hcr : t.created = s.created) (hq : t.voiceReqs = s.voiceReqs)
    (hserves : t.send.Serves t.initialized (t.voiceReqs.keys.map Prod.fst) t.controller
      (tr ++ [.handed req]) (bs₀ ++ [b])) : Wired t (tr ++ [.handed req]) (bs₀ ++ [b]) where
  booked := hb
  handed := by
    rw [handed_append, h.handed, List.flatMap_append]
    simpa [Wire.handed] using hreq.symm
  once := hnd
  created := by
    intro id hmem
    rw [hcr]
    rw [List.map_append, List.mem_append] at hmem
    rcases hmem with hmem | hmem
    · obtain ⟨x, hx, rfl⟩ := List.mem_map.mp hmem
      exact h.created _ (List.mem_map_of_mem (hsub x hx))
    · obtain rfl := List.mem_singleton.mp hmem
      exact hid
  le := by
    intro x hx
    rw [taken_append]
    rcases List.mem_append.mp hx with hx | hx
    · exact (h.le x (hsub x hx)).trans (List.prefix_append _ _)
    · obtain rfl := List.mem_singleton.mp hx
      exact hle.trans (List.prefix_append _ _)
  ended := by
    intro x hx hend
    have hsame : ∀ id, taken id (tr ++ [.handed req]) = taken id tr := by
      intro id
      rw [taken_append]
      exact List.append_nil _
    have hdrop : ∀ {id : Int}, .dropped id ∉ tr → .dropped id ∉ tr ++ [.handed req] := by
      intro id hnot
      simpa using hnot
    rw [hq, hsame]
    rcases List.mem_append.mp hx with hx | hx
    · obtain ⟨hkey, hnot, heq⟩ := h.ended x (hsub x hx) hend
      exact ⟨hkey, hdrop hnot, heq⟩
    · obtain rfl := List.mem_singleton.mp hx
      obtain ⟨hkey, hnot, heq⟩ := hended hend
      exact ⟨hkey, hdrop hnot, heq⟩
  serves := hserves

/-- The request begins a block or goes on with the last one. -/
theorem build (h : Wired s tr bs) {info : SpeechReqInfo} (hpc : s.send = .request info)
    (hb : Booked { s with send := .sending info (info.treq s.options) }
      (tr ++ [.handed (info.treq s.options)])) :
    ∃ bs', Wired { s with send := .sending info (info.treq s.options) }
      (tr ++ [.handed (info.treq s.options)]) bs' := by
  have hfits : Fits (s.voiceReqs.keys.map Prod.fst) s.controller tr bs info := by
    have hserves := h.serves
    rw [hpc] at hserves
    exact hserves
  have hcreated : info.id ∈ s.created := h.booked.requests.worked _ (by rw [hpc]; rfl)
  have hsame : taken info.id (tr ++ [.handed (info.treq s.options)]) = taken info.id tr := by
    rw [taken_append]
    exact List.append_nil _
  -- the chunks so far are those that have been taken
  have hfollow : ∀ {bs' : List WireBlock} {chunks : List (Sp Bytes)},
      OnlyCurrent info.id s.controller → Open bs' info.id chunks → chunks = taken info.id tr →
      Following s.initialized s.controller (tr ++ [.handed (info.treq s.options)]) bs' := by
    intro bs' chunks honly hopen heq _ a ha
    rw [honly a ha, hsame, ← heq]
    exact hopen
  have hnew : ∀ {b : WireBlock}, b.id = info.id → info.id ∉ bs.map WireBlock.id →
      ((bs ++ [b]).map WireBlock.id).Nodup := by
    intro b hid hnot
    rw [List.map_append, List.map_singleton, hid, List.nodup_append']
    refine ⟨h.once, List.nodup_singleton _, ?_⟩
    intro x hx hx'
    obtain rfl := List.mem_singleton.mp hx'
    exact hnot hx
  cases hfits with
  | text htype hnot =>
      let b : WireBlock := .text info.id info.data (some (reqConfig s.options info.options))
      refine ⟨_, h.hand bs b hb ?_ (fun _ hx => hx) (hnew rfl hnot) hcreated List.nil_prefix
        (fun hf => by cases hf) rfl rfl ?_⟩
      · simp [SpeechReqInfo.treq, htype, b, WireBlock.requests]
      · rintro (heq | heq)
        · simp [heq] at htype
        · simp [heq] at htype
  | start htype hnot htaken honly =>
      let b : WireBlock := .voice info.id (some (reqConfig s.options info.options)) [] false
      refine ⟨_, h.hand bs b hb ?_ (fun _ hx => hx) (hnew rfl hnot) hcreated List.nil_prefix
        (fun hf => by cases hf) rfl rfl ?_⟩
      · simp [SpeechReqInfo.treq, htype, b, WireBlock.requests]
      · exact fun _ => hfollow honly ⟨bs, _, rfl⟩ htaken.symm
  | @data chunks htype hopen htaken honly =>
      obtain ⟨bs₀, options, rfl⟩ := hopen
      let b : WireBlock := .voice info.id options (chunks ++ [info.data]) false
      have hnd : ((bs₀ ++ [b]).map WireBlock.id).Nodup := by
        have hnd := h.once
        rw [List.map_append] at hnd ⊢
        exact hnd
      have hle : b.chunks <+: taken info.id tr := by
        rw [htaken]
        exact List.prefix_rfl
      refine ⟨_, h.hand bs₀ b hb ?_ (fun _ hx => List.mem_append_left _ hx) hnd hcreated hle
        (fun hf => by cases hf) rfl rfl ?_⟩
      · simp [SpeechReqInfo.treq, htype, b, WireBlock.requests]
      · exact fun _ => hfollow honly ⟨bs₀, _, rfl⟩ htaken.symm
  | close htype hopen hkey hdrop =>
      obtain ⟨bs₀, options, rfl⟩ := hopen
      let b : WireBlock := .voice info.id options (taken info.id tr) true
      have hnd : ((bs₀ ++ [b]).map WireBlock.id).Nodup := by
        have hnd := h.once
        rw [List.map_append] at hnd ⊢
        exact hnd
      refine ⟨_, h.hand bs₀ b hb ?_ (fun _ hx => List.mem_append_left _ hx) hnd hcreated
        List.prefix_rfl (fun _ => ⟨hkey, hdrop, rfl⟩) rfl rfl ?_⟩
      · rcases htype with htype | htype
        · simp [SpeechReqInfo.treq, htype, b, WireBlock.requests]
        · simp [SpeechReqInfo.treq, htype, b, WireBlock.requests]
      · rintro (heq | heq)
        · simp [heq] at htype
        · simp [heq] at htype

/-- Nothing is observed of the send thread where it neither takes, makes nor drops requests. -/
theorem sendEvents_nil (hloop : s.send ≠ .loop) (hreq : ∀ info, s.send ≠ .request info)
    (herase : ∀ id, s.send ≠ .eraseReq id) : s.sendEvents = [] := by
  unfold sendEvents
  split
  · rename_i hpc
    exact absurd hpc hloop
  · rename_i info hpc
    exact absurd hpc (hreq info)
  · rename_i id hpc
    exact absurd hpc (herase id)
  · rfl

/-- `erase_req` drops what it marks. -/
theorem erase (h : Wired s tr bs) {id : Int} {q : Streams Bytes VoiceOptions}
    (hpc : s.send = .eraseReq id) (hq : q.keys = s.voiceReqs.keys)
    (hb : Booked { s with voiceReqs := q, send := .loop } (tr ++ s.sendEvents)) :
    Wired { s with voiceReqs := q, send := .loop } (tr ++ s.sendEvents) bs := by
  have hknows := h.booked.requests.inv.send
  rw [hpc] at hknows
  have hes : ∀ e ∈ s.sendEvents, ∃ id ∈ s.voiceReqs.keys.map Prod.fst, e = .dropped id := by
    intro e he
    unfold sendEvents at he
    rw [hpc] at he
    obtain ⟨x, hx, rfl⟩ := List.mem_map.mp he
    refine ⟨x, ?_, rfl⟩
    rw [Streams.keys, Fifo.keys_fst]
    exact (mem_erased hx).2
  refine h.keep hb ?_ (fun _ hid => hid) ?_ (.of_none hknows)
  · apply List.filterMap_eq_nil_iff.mpr
    intro e he
    obtain ⟨x, -, rfl⟩ := hes e he
    rfl
  · intro id' _ hkey
    refine ⟨by rwa [hq], ?_, ?_⟩
    · intro hmem
      obtain ⟨x, hx, heq⟩ := hes _ hmem
      cases heq
      exact hkey hx
    · apply List.filterMap_eq_nil_iff.mpr
      intro e he
      obtain ⟨x, -, rfl⟩ := hes e he
      rfl

/-- A request that opens an operation has no block yet. -/
theorem fits_create (h : Wired s tr bs) {info : SpeechReqInfo}
    (hpc : s.send = .changeOp info none) (htype : opens info.type = true) :
    Fits (s.voiceReqs.keys.map Prod.fst) (s.controller.newOp s.now info.id .start) tr bs info := by
  have hserves := h.serves
  rw [hpc] at hserves
  have hqueued : info.id ∈ s.queuedIds := by
    rw [queuedIds, SendPc.taken_of_opens (by rw [hpc]; rfl) htype]
    exact List.mem_cons_self
  have hnot : info.id ∉ bs.map WireBlock.id := fun hmem =>
    h.booked.requests.inv.ids.queued_new _ hqueued (h.created _ hmem)
  cases hserves with
  | text htext => exact .text htext hnot
  | start hstart htaken =>
      refine .start hstart hnot htaken ?_
      intro a ha
      obtain rfl : s.controller.fresh = a := by simpa using ha
      exact OpCtl.newOp_heap_id _ _ _ _
  | later hlater hfits =>
      rw [hlater] at htype
      cases htype

/-- What the send thread does after a request has been sent. -/
theorem serves_refresh (h : Wired s tr bs) {info : SpeechReqInfo} (hpc : s.send = .sent info) :
    (if info.type.isLast then SendPc.waitOp info.id else .loop).Serves s.initialized
      (s.voiceReqs.keys.map Prod.fst) (s.controller.refreshOpTime s.now false) tr bs := by
  have hserves := h.serves
  have hknows := h.booked.requests.inv.send
  rw [hpc] at hserves hknows
  have hquiet := OpCtl.Quiet.refreshOpTime s.controller s.now false
  have hnone : info.type = .cancelled → s.controller.currentOp = none := by
    intro htype
    have hsent : SentKnows s.initialized s.voiceReqs.keys s.controller info := hknows
    unfold SentKnows at hsent
    rw [htype] at hsent
    exact hsent
  have hempty : ∀ id, taken id ([] : List WireEvent) = [] := fun _ => rfl
  cases htype : info.type with
  | text => exact trivial
  | voiceEnd => exact trivial
  | cancelled => exact .of_none (hquiet.current_none (hnone htype))
  | voiceStart =>
      have hfollow := (hserves (.inl htype)).quiet hquiet (fun hi => hi) hempty
      rw [List.append_nil] at hfollow
      exact hfollow
  | voiceData =>
      have hfollow := (hserves (.inr htype)).quiet hquiet (fun hi => hi) hempty
      rw [List.append_nil] at hfollow
      exact hfollow

theorem send_step (h : Wired s tr bs) {r : ConnectionOpResult} (hst : s.sendStep r = some t) :
    ∃ bs', Wired t (tr ++ s.sendEvents) bs' := by
  have hb := h.booked.send_step hst
  have hserves := h.serves
  have hknows := h.booked.requests.inv.send
  by_cases hloop : s.send = .loop
  · have heq : s.takeReq = t := by
      unfold sendStep at hst
      rw [hloop] at hst
      simp only at hst
      split at hst
      · exact Option.some.inj hst
      · cases hst
    subst heq
    exact ⟨bs, h.takeReq hloop hb⟩
  · have hnil := sendEvents_nil hloop
    cases sendStep_move hst with
    | exit hpc hinit => exact absurd hpc hloop
    | takeVoice hpc hinit hpop htype => exact absurd hpc hloop
    | sleep hpc hinit hq => exact absurd hpc hloop
    | seeText hpc hinit hq => exact absurd hpc hloop
    | @build info hpc =>
        have hes : s.sendEvents = [.handed (info.treq s.options)] := by
          unfold sendEvents
          rw [hpc]
        rw [hes] at hb ⊢
        exact h.build hpc hb
    | erase hpc hq => exact ⟨bs, h.erase hpc hq hb⟩
    | abort hpc htype => cases hb.requests.inv.running
    | wake hpc =>
        rw [hpc] at hserves
        exact ⟨bs, h.calm hb (hnil (by simp [hpc]) (by simp [hpc])) (fun _ hid => hid) rfl hserves⟩
    | look hpc =>
        rw [hpc] at hserves
        refine ⟨bs, h.calm hb (hnil (by simp [hpc]) (by simp [hpc])) (fun _ hid => hid) rfl ?_⟩
        cases hcur : s.controller.currentOp with
        | none => exact trivial
        | some a => exact hserves
    | busy hpc =>
        rw [hpc] at hserves
        exact ⟨bs, h.calm hb (hnil (by simp [hpc]) (by simp [hpc])) (fun _ hid => hid) rfl hserves⟩
    | crash hpc htext =>
        exact ⟨bs, h.calm hb (hnil (by simp [hpc]) (by simp [hpc])) (fun _ hid => hid) rfl hserves⟩
    | @takeText info texts hpc htext =>
        rw [hpc] at hknows
        have hnone : s.controller.currentOp = none := hknows
        have htype := h.booked.requests.inv.texts info (by rw [htext]; exact List.mem_cons_self)
        refine ⟨bs, h.calm hb (hnil (by simp [hpc]) (by simp [hpc])) (fun _ hid => hid) rfl ?_⟩
        rcases htype with htype | htype
        · exact .text htype
        · exact .later (by rw [htype]; rfl) fun hne => absurd hnone hne
    | enter hpc =>
        rw [hpc] at hserves
        exact ⟨bs, h.calm hb (hnil (by simp [hpc]) (by simp [hpc])) (fun _ hid => hid) rfl hserves⟩
    | create hpc htype =>
        exact ⟨bs, h.calm hb (hnil (by simp [hpc]) (by simp [hpc]))
          (fun _ hid => List.mem_append_left _ hid) rfl (h.fits_create hpc htype)⟩
    | @proceed info a hpc htype =>
        rw [hpc] at hserves
        refine ⟨bs, h.calm hb (hnil (by simp [hpc]) (by simp [hpc])) (fun _ hid => hid) rfl ?_⟩
        apply MayFit.fits hserves (by simp)
        rcases htype with htype | htype
        · rw [htype]
          rfl
        · rw [htype]
          rfl
    | @cancelCurrent info a hpc htype =>
        rw [hpc] at hserves
        refine ⟨bs, h.calm hb (hnil (by simp [hpc]) (by simp [hpc])) (fun _ hid => hid) rfl ?_⟩
        have hfits := MayFit.fits hserves (by simp) (by rw [htype]; rfl)
        exact hfits.cancelled htype
    | createCancelled hpc htype =>
        rw [hpc] at hknows
        have hnone : s.controller.currentOp = none := hknows.changeOp_none
        refine ⟨bs, h.calm hb (hnil (by simp [hpc]) (by simp [hpc]))
          (fun _ hid => List.mem_append_left _ hid) rfl (.of_none ?_)⟩
        rw [OpCtl.newOp_currentOp_cancelled]
        exact hnone
    | drop hpc htype =>
        rw [hpc] at hknows
        exact ⟨bs, h.calm hb (hnil (by simp [hpc]) (by simp [hpc])) (fun _ hid => hid) rfl
          (.of_none hknows.changeOp_none)⟩
    | fail hpc hr =>
        exact ⟨bs, h.calm hb (hnil (by simp [hpc]) (by simp [hpc])) (fun _ hid => hid) rfl trivial⟩
    | available hpc hr hopen =>
        rw [hpc] at hserves
        exact ⟨bs, h.calm hb (hnil (by simp [hpc]) (by simp [hpc])) (fun _ hid => hid) rfl hserves⟩
    | write hpc =>
        rw [hpc] at hserves
        exact ⟨bs, h.calm hb (hnil (by simp [hpc]) (by simp [hpc])) (fun _ hid => hid) rfl hserves⟩
    | setError hpc =>
        exact ⟨bs, h.calm hb (hnil (by simp [hpc]) (by simp [hpc])) (fun _ hid => hid) rfl trivial⟩
    | refresh hpc =>
        exact ⟨bs, h.calm hb (hnil (by simp [hpc]) (by simp [hpc])) (fun _ hid => hid) rfl
          (h.serves_refresh hpc)⟩
    | test hpc hwait =>
        exact ⟨bs, h.calm hb (hnil (by simp [hpc]) (by simp [hpc])) (fun _ hid => hid) rfl trivial⟩
    | skip hpc hwait =>
        rw [hpc] at hknows
        exact ⟨bs, h.calm hb (hnil (by simp [hpc]) (by simp [hpc])) (fun _ hid => hid) rfl
          (.of_none (OnlyCurrent.none_of_mustWait hknows hwait))⟩
    | park hpc =>
        exact ⟨bs, h.calm hb (hnil (by simp [hpc]) (by simp [hpc])) (fun _ hid => hid) rfl trivial⟩
    | awake hpc hwait =>
        rw [hpc] at hknows
        exact ⟨bs, h.calm hb (hnil (by simp [hpc]) (by simp [hpc])) (fun _ hid => hid) rfl
          (.of_none (hknows.2 hwait))⟩

/-- **One step.** -/
theorem step (h : Wired s tr bs) {a : SpeechAct} (hok : OneSession s a) (hst : s.step a = some t) :
    ∃ bs', Wired t (tr ++ s.wireEvents a) bs' := by
  have hb := h.booked.step hok hst
  unfold SpeechImpl.step at hst
  split at hst
  · cases hst
  · cases a with
    | prepare => exact absurd rfl hok.1
    | release => exact ⟨bs, h.release hst⟩
    | call n c => exact ⟨bs, h.call hst⟩
    | client n => exact ⟨bs, h.client hok.2 hst⟩
    | poll => exact ⟨bs, h.pollStep hst⟩
    | config mod =>
        cases hst
        refine ⟨bs, ?_⟩
        cases mod with
        | none =>
            exact h.others hb (fun e he => by cases he) rfl rfl (fun _ hid => .inl hid)
              (fun hi => hi) (.refl _)
        | some mod =>
            exact h.others hb (fun e he => by cases he) rfl rfl (fun _ hid => .inl hid)
              (fun hi => hi) (.refl _)
    | send r => exact h.send_step hst
    | gen r resp => exact ⟨bs, h.gen hst⟩
    | tick ns =>
        cases hst
        exact ⟨bs, h.others hb (fun e he => by cases he) rfl rfl (fun _ hid => .inl hid)
          (fun hi => hi) (.refl _)⟩

end Wired

/-- The steps of a session, observed. -/
def WireSteps (u : Traced SpeechImpl WireEvent) (a : SpeechAct) (v : Traced SpeechImpl WireEvent) :
    Prop := Traced.step step wireEvents u a = some v

/-- **The wire protocol.**  In every run of a session in which `++next_id_` is not interrupted, what
    is handed to `connection_.send` consists of blocks: a text request, or a voice request with its
    start, chunks and perhaps its end.  No id has two blocks; the chunks of a block are the first of
    those accepted from `put_voice`, and all of them if the end is there and no client has cancelled
    the request. -/
theorem wire_protocol {u : Traced SpeechImpl WireEvent}
    (hrun : Run WireSteps (Traced.Lift OneSession) ⟨opened, []⟩ u) :
    ∃ bs, WireProtocol u.trace bs := by
  have h : ∃ bs, Wired u.state u.trace bs := by
    apply hrun.invariant
    · rintro t a v ⟨bs, hinv⟩ hok hst
      obtain ⟨hst', htr⟩ := Traced.step_eq_some.mp hst
      rw [htr]
      exact hinv.step hok hst'
    · exact ⟨[], .opened⟩
  obtain ⟨bs, hinv⟩ := h
  exact ⟨bs, hinv.protocol⟩

/-- A voice request in two chunks, and a text request that is sent when it is finished. -/
def spoken : List SpeechAct :=
  let finish : SpeechResponse := { id := 1, type := respFinish, result := 0 }
  [.call 0 (.startVoice none), .client 0, .client 0, .call 0 (.putVoice 1 (some [7, 8])), .client 0,
    .call 0 (.putVoice 1 (some [9])), .client 0, .call 0 (.endVoice 1), .client 0,
    .call 0 (.putText (some [5]) none), .client 0, .client 0, .client 0] ++
  List.replicate 30 (.send .success) ++ List.replicate 4 (.gen .success finish) ++
  List.replicate 10 (.send .success)

theorem wire_protocol_spoken :
    ∃ u, exec (Traced.step step wireEvents) ⟨opened, []⟩ spoken = some u ∧
      (handed u.trace).map (fun r => (r.id, r.type, r.voice)) =
        [(1, .start, none), (1, .voice, some [7, 8]), (1, .voice, some [9]), (1, .end_, none),
          (2, .text, none)] ∧ ∃ bs, WireProtocol u.trace bs := by
  have hok : allOk (Traced.step step wireEvents) (Traced.Lift OneSession) ⟨opened, []⟩ spoken =
      true := by
    decide +kernel
  refine ⟨_, rfl, by decide +kernel, ?_⟩
  exact wire_protocol (Run.of_exec hok rfl)

end SpeechImpl

end OpenVoice
