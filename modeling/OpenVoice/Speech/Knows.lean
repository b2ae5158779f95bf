import OpenVoice.Speech.Moves

/-!
# What the send thread of `SpeechImpl` relies on

The operation that is current is the one of the request the send thread works on, or of the voice
stream in front of `voice_reqs_`.  `SendPc.Knows` says so for each place of the thread, and
`SendPc.Knows.quiet` that the other threads respect it.
-/

namespace OpenVoice

namespace SpeechImpl

/-- The current operation, if there is one, is that of the request with this id. -/
def OnlyCurrent (id : Int) (c : OpCtl SpeechError) : Prop :=
  ∀ a, c.currentOp = some a → (c.heap a).id = id

/-- The current operation, if there is one, is that of the voice stream in front, whose start
    has been taken. -/
def Attended (init : Bool) (ks : List (Int × Bool)) (c : OpCtl SpeechError) : Prop :=
  init = true → ∀ a, c.currentOp = some a → ∃ rest, ks = ((c.heap a).id, true) :: rest

/-- What the send thread relies on with a request in hand, before `do_ctl_change_op` has done its
    work. -/
def TakenKnows (init : Bool) (ks : List (Int × Bool)) (c : OpCtl SpeechError)
    (info : SpeechReqInfo) : Prop :=
  match info.type with
  | .text => c.currentOp = none
  | .voiceStart => c.currentOp = none ∧ (init = true → ∃ rest, ks = (info.id, true) :: rest)
  | .voiceData => Attended init ks c
  | .voiceEnd | .cancelled => OnlyCurrent info.id c

/-- The same, after it. -/
def SentKnows (init : Bool) (ks : List (Int × Bool)) (c : OpCtl SpeechError)
    (info : SpeechReqInfo) : Prop :=
  match info.type with
  | .text | .voiceEnd => OnlyCurrent info.id c
  | .voiceStart | .voiceData => Attended init ks c
  | .cancelled => c.currentOp = none

/-- What the send thread relies on between its critical sections. -/
def SendPc.Knows (init : Bool) (ks : List (Int × Bool)) (c : OpCtl SpeechError) : SendPc → Prop
  | .loop | .waitReq | .textCheck | .textTake (some _) => Attended init ks c
  | .textTake none | .eraseReq _ => c.currentOp = none
  | .doCtl info => TakenKnows init ks c info
  | .changeOp info op =>
      TakenKnows init ks c info ∧ (∀ a, c.currentOp = some a → op = some a) ∧
        (opens info.type = true → op = none)
  | .request info | .sending info _ | .writing info _ | .sent info => SentKnows init ks c info
  | .waitOp id | .parking id => OnlyCurrent id c
  | .blocked id => OnlyCurrent id c ∧ (c.opWaiting = false → c.currentOp = none)
  | .sendFailed _ _ | .done => True

section Knows

variable {init init' : Bool} {ks ks' : List (Int × Bool)} {c c' : OpCtl SpeechError}

theorem OnlyCurrent.quiet {id : Int} (h : OnlyCurrent id c) (hq : c.Quiet c') :
    OnlyCurrent id c' := by
  intro a ha
  rw [hq.heap_id]
  exact h a (hq.current_some ha)

theorem OnlyCurrent.of_none {id : Int} (h : c.currentOp = none) : OnlyCurrent id c := by
  intro a ha
  rw [h] at ha
  cases ha

theorem Attended.of_none (h : c.currentOp = none) : Attended init ks c := by
  intro _ a ha
  rw [h] at ha
  cases ha

theorem Attended.quiet (h : Attended init ks c) (hq : c.Quiet c')
    (hi : init' = true → init = true ∧ ks <+: ks') : Attended init' ks' c' := by
  intro hinit a ha
  obtain ⟨hinit', l, rfl⟩ := hi hinit
  obtain ⟨rest, hks⟩ := h hinit' a (hq.current_some ha)
  rw [hq.heap_id, hks]
  exact ⟨rest ++ l, rfl⟩

/-- The operation of the stream in front is the only one that can be current. -/
theorem Attended.only {id : Int} {b : Bool} {rest : List (Int × Bool)}
    (h : Attended init ks c) (hi : init = true) (hks : ks = (id, b) :: rest) :
    OnlyCurrent id c := by
  intro a ha
  obtain ⟨rest', hks'⟩ := h hi a ha
  rw [hks] at hks'
  cases hks'
  rfl

/-- Nothing is current when the stream in front has not been started. -/
theorem Attended.none_of_unstarted {id : Int} {rest : List (Int × Bool)}
    (h : Attended init ks c) (hi : init = true) (hks : ks = (id, false) :: rest) :
    c.currentOp = none := by
  cases hcur : c.currentOp with
  | none => rfl
  | some a =>
      obtain ⟨rest', hks'⟩ := h hi a hcur
      rw [hks] at hks'
      cases hks'

theorem TakenKnows.quiet {info : SpeechReqInfo} (h : TakenKnows init ks c info)
    (hq : c.Quiet c') (hi : init' = true → init = true ∧ ks <+: ks') :
    TakenKnows init' ks' c' info := by
  unfold TakenKnows at h ⊢
  cases htype : info.type with
  | text =>
      rw [htype] at h
      exact hq.current_none h
  | voiceStart =>
      rw [htype] at h
      refine ⟨hq.current_none h.1, ?_⟩
      intro hinit
      obtain ⟨hinit', l, rfl⟩ := hi hinit
      obtain ⟨rest, rfl⟩ := h.2 hinit'
      exact ⟨rest ++ l, rfl⟩
  | voiceData =>
      rw [htype] at h
      exact Attended.quiet h hq hi
  | voiceEnd =>
      rw [htype] at h
      exact OnlyCurrent.quiet h hq
  | cancelled =>
      rw [htype] at h
      exact OnlyCurrent.quiet h hq

theorem SentKnows.quiet {info : SpeechReqInfo} (h : SentKnows init ks c info)
    (hq : c.Quiet c') (hi : init' = true → init = true ∧ ks <+: ks') :
    SentKnows init' ks' c' info := by
  unfold SentKnows at h ⊢
  cases htype : info.type with
  | text =>
      rw [htype] at h
      exact OnlyCurrent.quiet h hq
  | voiceEnd =>
      rw [htype] at h
      exact OnlyCurrent.quiet h hq
  | voiceStart =>
      rw [htype] at h
      exact Attended.quiet h hq hi
  | voiceData =>
      rw [htype] at h
      exact Attended.quiet h hq hi
  | cancelled =>
      rw [htype] at h
      exact hq.current_none h

/-- No other thread takes away what the send thread relies on: operations are only reset, and
    streams are only added behind the one in front until the session is over. -/
theorem SendPc.Knows.quiet {pc : SendPc} (h : pc.Knows init ks c) (hq : c.Quiet c')
    (hi : init' = true → init = true ∧ ks <+: ks') : pc.Knows init' ks' c' := by
  cases pc with
  | loop => exact Attended.quiet h hq hi
  | waitReq => exact Attended.quiet h hq hi
  | textCheck => exact Attended.quiet h hq hi
  | textTake op =>
      cases op with
      | none => exact hq.current_none h
      | some a => exact Attended.quiet h hq hi
  | doCtl info => exact TakenKnows.quiet h hq hi
  | changeOp info op =>
      exact ⟨h.1.quiet hq hi, fun a ha => h.2.1 a (hq.current_some ha), h.2.2⟩
  | request info => exact SentKnows.quiet h hq hi
  | sending info treq => exact SentKnows.quiet h hq hi
  | writing info treq => exact SentKnows.quiet h hq hi
  | sendFailed info err => exact trivial
  | eraseReq id => exact hq.current_none h
  | sent info => exact SentKnows.quiet h hq hi
  | waitOp id => exact OnlyCurrent.quiet h hq
  | parking id => exact OnlyCurrent.quiet h hq
  | blocked id =>
      refine ⟨OnlyCurrent.quiet h.1 hq, ?_⟩
      intro hwait
      rcases hq.current with ⟨hcur, hwait'⟩ | ⟨hnone, -⟩
      · rw [hcur]
        exact h.2 (hwait' ▸ hwait)
      · exact hnone
  | done => exact trivial

/-- What is known of a request taken from `voice_reqs_`, by what the pop returned. -/
theorem TakenKnows.popped {info : SpeechReqInfo} {t : PopType} (h : Attended init ks c)
    (hi : init = true) (hpop : Popped info.id ks ks' t) (htype : info.type = reqtype t) :
    TakenKnows init ks' c info := by
  unfold TakenKnows
  rw [htype]
  cases hpop with
  | start hks hks' => exact ⟨h.none_of_unstarted hi hks, fun _ => ⟨_, hks'⟩⟩
  | data hks hks' =>
      rw [hks']
      exact h
  | end_ hks => exact h.only hi hks
  | removed hks => exact h.only hi hks
  | error hks => exact h.only hi hks

/-- A request that opens an operation finds none. -/
theorem TakenKnows.opening {info : SpeechReqInfo} (h : TakenKnows init ks c info)
    (htype : opens info.type = true) : c.currentOp = none := by
  unfold TakenKnows at h
  cases ht : info.type with
  | text =>
      rw [ht] at h
      exact h
  | voiceStart =>
      rw [ht] at h
      exact h.1
  | voiceEnd =>
      rw [ht] at htype
      cases htype
  | cancelled =>
      rw [ht] at htype
      cases htype
  | voiceData =>
      rw [ht] at htype
      cases htype

/-- A request to which no operation is current. -/
theorem TakenKnows.of_none {info : SpeechReqInfo} (h : c.currentOp = none)
    (htype : info.type = .text ∨ info.type = .cancelled) : TakenKnows init ks c info := by
  unfold TakenKnows
  rcases htype with htype | htype
  · rw [htype]
    exact h
  · rw [htype]
    exact OnlyCurrent.of_none h

/-- The operation that is created for a request is the current one. -/
theorem SentKnows.newOp {info : SpeechReqInfo} {now : Int} (h : TakenKnows init ks c info)
    (htype : opens info.type = true) : SentKnows init ks (c.newOp now info.id .start) info := by
  have honly : OnlyCurrent info.id (c.newOp now info.id .start) := by
    intro a ha
    obtain rfl : c.fresh = a := by simpa using ha
    exact OpCtl.newOp_heap_id _ _ _ _
  unfold TakenKnows at h
  unfold SentKnows
  cases ht : info.type with
  | text => exact honly
  | voiceStart =>
      rw [ht] at h
      intro hinit a ha
      rw [honly a ha]
      exact h.2 hinit
  | voiceEnd =>
      rw [ht] at htype
      cases htype
  | cancelled =>
      rw [ht] at htype
      cases htype
  | voiceData =>
      rw [ht] at htype
      cases htype

theorem SentKnows.proceed {info : SpeechReqInfo} (h : TakenKnows init ks c info)
    (htype : info.type = .voiceEnd ∨ info.type = .voiceData) : SentKnows init ks c info := by
  unfold TakenKnows at h
  unfold SentKnows
  rcases htype with htype | htype
  · rw [htype] at h ⊢
    exact h
  · rw [htype] at h ⊢
    exact h

/-- After the last request for an operation the send thread waits, else it goes on. -/
theorem SentKnows.next {info : SpeechReqInfo} (h : SentKnows init ks c info) :
    (if info.type.isLast then SendPc.waitOp info.id else .loop).Knows init ks c := by
  unfold SentKnows at h
  cases ht : info.type with
  | text =>
      rw [ht] at h
      exact h
  | voiceEnd =>
      rw [ht] at h
      exact h
  | voiceStart =>
      rw [ht] at h
      exact h
  | voiceData =>
      rw [ht] at h
      exact h
  | cancelled =>
      rw [ht] at h
      exact Attended.of_none h

/-- With nothing to wait for, nothing is current. -/
theorem OnlyCurrent.none_of_mustWait {id : Int} (h : OnlyCurrent id c)
    (hwait : c.mustWait id = false) : c.currentOp = none := by
  cases hcur : c.currentOp with
  | none => rfl
  | some a =>
      have hid := h a hcur
      rw [OpCtl.mustWait, hcur] at hwait
      simp [hid] at hwait

end Knows

/-- Nothing is current while a request that opens an operation, or one without an operation to
    cancel, is in `do_ctl_change_op`. -/
theorem SendPc.Knows.changeOp_none {init : Bool} {ks : List (Int × Bool)}
    {c : OpCtl SpeechError} {info : SpeechReqInfo}
    (h : (SendPc.changeOp info none).Knows init ks c) : c.currentOp = none := by
  cases hcur : c.currentOp with
  | none => rfl
  | some a => cases h.2.1 a hcur

/-- **A step of the send thread** leaves it with what it has to know at its new place. -/
theorem SendMove.knows {s t : SpeechImpl} {r : ConnectionOpResult} (hmove : SendMove s r t)
    (h : s.send.Knows s.initialized s.voiceReqs.keys s.controller)
    (htexts : ∀ p ∈ s.textReqs, p.type = .text ∨ p.type = .cancelled) :
    t.send.Knows t.initialized t.voiceReqs.keys t.controller := by
  have hstay := h
  cases hmove with
  | exit hpc hinit => exact trivial
  | takeVoice hpc hinit hpop htype =>
      rw [hpc] at h
      exact TakenKnows.popped h hinit hpop htype
  | sleep hpc hinit hq =>
      rw [hpc] at h
      simp only [hq]
      exact h
  | seeText hpc hinit hq =>
      rw [hpc] at h
      simp only [hq]
      exact h
  | wake hpc =>
      rw [hpc] at h
      exact h
  | look hpc =>
      rw [hpc] at h
      cases hcur : s.controller.currentOp with
      | none => exact hcur
      | some a => exact h
  | busy hpc =>
      rw [hpc] at h
      exact h
  | crash hpc htext => exact hstay
  | @takeText info texts hpc htext =>
      rw [hpc] at h
      have htype := htexts info (by rw [htext]; exact List.mem_cons_self)
      exact TakenKnows.of_none h htype
  | enter hpc =>
      rw [hpc] at h
      exact ⟨h, fun a ha => ha, fun hopens => TakenKnows.opening h hopens⟩
  | abort hpc htype => exact hstay
  | create hpc htype =>
      rw [hpc] at h
      exact SentKnows.newOp h.1 htype
  | proceed hpc htype =>
      rw [hpc] at h
      exact SentKnows.proceed h.1 htype
  | @cancelCurrent info a hpc htype =>
      have hsent : SentKnows s.initialized s.voiceReqs.keys
          (s.controller.setStatus a .cancelled).clearCurrentOp info := by
        unfold SentKnows
        rw [htype]
        rfl
      exact hsent
  | createCancelled hpc htype =>
      rw [hpc] at h
      exact Attended.of_none h.changeOp_none
  | drop hpc htype =>
      rw [hpc] at h
      exact Attended.of_none h.changeOp_none
  | build hpc =>
      rw [hpc] at h
      exact h
  | fail hpc hr => exact trivial
  | available hpc hr hopen =>
      rw [hpc] at h
      exact h
  | write hpc =>
      rw [hpc] at h
      exact h
  | setError hpc => exact OpCtl.setOpError_current _ _
  | erase hpc hq =>
      rw [hpc] at h
      exact Attended.of_none h
  | refresh hpc =>
      rw [hpc] at h
      have hquiet := OpCtl.Quiet.refreshOpTime s.controller s.now false
      exact (SentKnows.quiet h hquiet fun hi => ⟨hi, List.prefix_rfl⟩).next
  | test hpc hwait =>
      rw [hpc] at h
      exact h
  | skip hpc hwait =>
      rw [hpc] at h
      exact Attended.of_none (OnlyCurrent.none_of_mustWait h hwait)
  | park hpc =>
      rw [hpc] at h
      exact ⟨h, fun hf => by cases hf⟩
  | awake hpc hwait =>
      rw [hpc] at h
      exact Attended.of_none (h.2 hwait)

/-- The send thread touches neither `initialized_` nor `release`, and it has not ended. -/
theorem SendMove.frame {s t : SpeechImpl} {r : ConnectionOpResult} (h : SendMove s r t) :
    t.initialized = s.initialized ∧ t.releasing = s.releasing ∧ s.send ≠ .done := by
  cases h with
  | _ hpc => exact ⟨rfl, rfl, by simp [hpc]⟩

/-- It only takes text requests away. -/
theorem SendMove.texts {s t : SpeechImpl} {r : ConnectionOpResult} (h : SendMove s r t) :
    ∀ p ∈ t.textReqs, p ∈ s.textReqs := by
  cases h with
  | takeText hpc htext =>
      intro p hp
      rw [htext]
      exact List.mem_cons_of_mem _ hp
  | _ => exact fun p hp => hp

end SpeechImpl

end OpenVoice
