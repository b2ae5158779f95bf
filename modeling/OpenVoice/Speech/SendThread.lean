import OpenVoice.Speech.Invariant

/-!
# The send thread keeps the invariant

`send_reqs` is the only thread that creates operations.  Every place where it goes on with other
knowledge than it had, or with another request in hand, is one of the cases of
`Inv.send_step`; with the other threads this makes the invariant hold in every run.
-/

namespace OpenVoice

open OpenVoice.Lib

namespace SpeechImpl

namespace Inv

variable {s t : SpeechImpl}

/-- The send thread goes on without creating an operation. -/
theorem advance (h : Inv s) {c : OpCtl SpeechError} {q : Streams Bytes VoiceOptions}
    {texts : List SpeechReqInfo} {pc : SendPc} (n : Nat) (l : List SpeechRequest)
    (hne : s.send ≠ .done) (hc : s.controller.Kept c)
    (hl : ∀ v, Lined s.controller s.responses v → Lined c s.responses v)
    (hknows : pc.Knows s.initialized q.keys c) (htext : ∀ p ∈ texts, p ∈ s.textReqs)
    (hstarted : ∀ id, (id, true) ∈ q.keys → id ∈ s.created ∨ id ∈ pc.starting)
    (hids : (waiting (pc.taken s.created) texts q.keys).Subperm s.queuedIds) :
    Inv { s with
      controller := c, voiceReqs := q, textReqs := texts, respNotifies := n, sent := l
      send := pc } where
  running := h.running
  releasing := h.releasing
  lined := by
    intro hs
    obtain ⟨v, hv⟩ := h.lined hs
    exact ⟨v, hl v hv⟩
  opIds := hc.opIds.trans h.opIds
  plain := h.plain
  closed := fun hs => absurd (h.sendDone (.inr hs)) hne
  send := hknows
  sendDone := fun hs => absurd (h.sendDone hs) hne
  texts := fun p hp => h.texts p (htext p hp)
  started := hstarted
  ids := h.ids.sublist hids
  epoch := fun a ha => h.epoch a (hc.operations.subset ha)
  fresh := by
    rw [hc.fresh]
    exact h.fresh

/-- The send thread goes to another place with the same request in hand. -/
theorem move (h : Inv s) {q : Streams Bytes VoiceOptions} {pc : SendPc}
    (l : List SpeechRequest) (hne : s.send ≠ .done) (hks : q.keys = s.voiceReqs.keys)
    (hhand : pc.taken s.created = s.send.taken s.created ∧ pc.starting = s.send.starting)
    (hknows : pc.Knows s.initialized q.keys s.controller) :
    Inv { s with voiceReqs := q, sent := l, send := pc } := by
  refine h.advance s.respNotifies l hne (.refl _) (fun _ hv => hv) hknows (fun _ hp => hp) ?_ ?_
  · rw [hks, hhand.2]
    exact h.started
  · rw [hks, hhand.1]
    exact List.Subperm.refl _

/-- A request is taken from `voice_reqs_`. -/
theorem takeVoice (h : Inv s) {info : SpeechReqInfo} {r : PopType}
    {q : Streams Bytes VoiceOptions} (hpc : s.send = .loop)
    (hpop : Popped info.id s.voiceReqs.keys q.keys r) (htype : info.type = reqtype r)
    (hknows : (SendPc.doCtl info).Knows s.initialized q.keys s.controller) :
    Inv { s with voiceReqs := q, send := .doCtl info } := by
  have hne : s.send ≠ .done := by simp [hpc]
  have hqueued : s.queuedIds = s.textReqs.map (·.id) ++ unstarted s.voiceReqs.keys := by
    rw [queuedIds, hpc]
    rfl
  have hstarted : ∀ id, (id, true) ∈ s.voiceReqs.keys → id ∈ s.created := by
    intro id hid
    rcases h.started id hid with hc | ht
    · exact hc
    · rw [hpc] at ht
      cases ht
  refine h.advance s.respNotifies s.sent hne (.refl _) (fun _ hv => hv) hknows (fun _ hp => hp) ?_ ?_
  · -- a started stream has its operation, unless it is the one in hand
    intro id hid
    cases hpop with
    | start hks hks' =>
        rw [hks', List.mem_cons] at hid
        rcases hid with heq | hid
        · cases heq
          refine .inr ?_
          simp [SendPc.starting, htype, reqtype]
        · refine .inl (hstarted id ?_)
          rw [hks]
          exact List.mem_cons_of_mem _ hid
    | data hks hks' => exact .inl (hstarted id (hks' ▸ hid))
    | end_ hks => exact .inl (hstarted id (hks ▸ List.mem_cons_of_mem _ hid))
    | removed hks => exact .inl (hstarted id (hks ▸ List.mem_cons_of_mem _ hid))
    | error hks => exact .inl (hstarted id (hks ▸ List.mem_cons_of_mem _ hid))
  · -- the request in hand was in the queue
    rw [hqueued]
    cases hpop with
    | start hks hks' =>
        have htaken : SendPc.taken s.created (.doCtl info) = [info.id] := by
          simp [SendPc.taken, htype, reqtype, opens]
        rw [waiting, htaken, hks, hks', unstarted_cons_true, unstarted_cons_false]
        exact List.perm_middle.symm.subperm
    | @removed b hks =>
        rw [hks]
        by_cases hc : info.id ∈ s.created
        · have htaken : SendPc.taken s.created (.doCtl info) = [] := by
            simp [SendPc.taken, htype, reqtype, opens, hc]
          rw [waiting, htaken, List.nil_append]
          have hsub : (unstarted q.keys).Sublist (unstarted ((info.id, b) :: q.keys)) := by
            cases b <;> simp
          exact (hsub.append_left _).subperm
        · -- it has not been started
          have htaken : SendPc.taken s.created (.doCtl info) = [info.id] := by
            simp [SendPc.taken, htype, reqtype, opens, hc]
          cases b with
          | true =>
              apply absurd (hstarted info.id _) hc
              rw [hks]
              exact List.mem_cons_self
          | false =>
              rw [waiting, htaken, unstarted_cons_false]
              exact List.perm_middle.symm.subperm
    | data hks hks' =>
        have htaken : SendPc.taken s.created (.doCtl info) = [] := by
          simp [SendPc.taken, htype, reqtype, opens]
        rw [waiting, htaken, hks']
        exact List.Subperm.refl _
    | end_ hks =>
        have htaken : SendPc.taken s.created (.doCtl info) = [] := by
          simp [SendPc.taken, htype, reqtype, opens]
        rw [waiting, htaken, hks, unstarted_cons_true]
        exact List.Subperm.refl _
    | @error b hks =>
        have htaken : SendPc.taken s.created (.doCtl info) = [] := by
          simp [SendPc.taken, htype, reqtype, opens]
        rw [waiting, htaken, hks, List.nil_append]
        have hsub : (unstarted q.keys).Sublist (unstarted ((info.id, b) :: q.keys)) := by
          cases b <;> simp
        exact (hsub.append_left _).subperm

/-- The oldest text request is taken. -/
theorem takeText (h : Inv s) {info : SpeechReqInfo} {texts : List SpeechReqInfo}
    (hpc : s.send = .textTake none) (htext : s.textReqs = info :: texts)
    (hknows : (SendPc.doCtl info).Knows s.initialized s.voiceReqs.keys s.controller) :
    Inv { s with textReqs := texts, send := .doCtl info } := by
  have hne : s.send ≠ .done := by simp [hpc]
  have hqueued : s.queuedIds =
      info.id :: (texts.map (·.id) ++ unstarted s.voiceReqs.keys) := by
    rw [queuedIds, hpc, htext]
    rfl
  have htype : info.type = .text ∨ info.type = .cancelled :=
    h.texts info (by rw [htext]; exact List.mem_cons_self)
  have hnew : info.id ∉ s.created :=
    h.ids.queued_new info.id (by rw [hqueued]; exact List.mem_cons_self)
  have htaken : SendPc.taken s.created (.doCtl info) = [info.id] := by
    rcases htype with htype | htype
    · simp [SendPc.taken, htype, opens]
    · simp [SendPc.taken, htype, hnew]
  refine h.advance s.respNotifies s.sent hne (.refl _) (fun _ hv => hv) hknows ?_ ?_ ?_
  · intro p hp
    rw [htext]
    exact List.mem_cons_of_mem _ hp
  · intro id hid
    rcases h.started id hid with hc | ht
    · exact .inl hc
    · rw [hpc] at ht
      cases ht
  · rw [hqueued, waiting, htaken]
    exact List.Subperm.refl _

/-- An operation is created. -/
theorem newOp (h : Inv s) {id : Int} {st : SpeechStatus} {pc : SendPc} (n : Nat)
    (hne : s.send ≠ .done)
    (hl : ∀ v, Lined s.controller s.responses v →
      Lined (s.controller.newOp s.now id st) s.responses (v ++ [(id, false)]))
    (hknows : pc.Knows s.initialized s.voiceReqs.keys (s.controller.newOp s.now id st))
    (hstarted : ∀ x ∈ s.send.starting, x = id)
    (hids : Ids s.nextId (s.created ++ [id])
      (waiting (pc.taken (s.created ++ [id])) s.textReqs s.voiceReqs.keys) s.clients) :
    Inv { s with
      controller := s.controller.newOp s.now id st, created := s.created ++ [id]
      respNotifies := n, send := pc } where
  running := h.running
  releasing := h.releasing
  lined := by
    intro hs
    obtain ⟨v, hv⟩ := h.lined hs
    exact ⟨_, hl v hv⟩
  opIds := by
    have hstr : s.Streaming := by
      by_contra hs
      exact hne (h.sendDone (.inr hs))
    obtain ⟨v, hv⟩ := h.lined hstr
    obtain ⟨l, hl'⟩ := h.opIds
    refine ⟨l, ?_⟩
    rw [← hl', List.append_assoc]
    exact congrArg (l ++ ·) (hv.newOp_opIds s.now id st)
  plain := h.plain
  closed := fun hs => absurd (h.sendDone (.inr hs)) hne
  send := hknows
  sendDone := fun hs => absurd (h.sendDone hs) hne
  texts := h.texts
  started := by
    intro x hx
    refine .inl (List.mem_append.mpr ?_)
    rcases h.started x hx with hc | ht
    · exact .inl hc
    · exact .inr (List.mem_singleton.mpr (hstarted x ht))
  ids := hids
  epoch := by
    intro a ha
    have ha' : a ∈ s.controller.operations ++ [s.controller.fresh] := ha
    rcases List.mem_append.mp ha' with ha' | ha'
    · exact h.epoch a ha'
    · rw [List.mem_singleton.mp ha']
      exact h.fresh
  fresh := Nat.le_trans h.fresh (Nat.le_succ _)

theorem create (h : Inv s) {info : SpeechReqInfo} (hpc : s.send = .changeOp info none)
    (htype : opens info.type = true)
    (hknows : (SendPc.request info).Knows s.initialized s.voiceReqs.keys
      (s.controller.newOp s.now info.id .start)) :
    Inv { s with
      controller := s.controller.newOp s.now info.id .start
      created := s.created ++ [info.id]
      send := .request info } := by
  have hcur : s.controller.currentOp = none := by
    have hk := h.send
    rw [hpc] at hk
    exact hk.changeOp_none
  have htaken : s.send.taken s.created = [info.id] := by
    rw [hpc]
    simp [SendPc.taken, htype]
  have hqueued : s.queuedIds =
      info.id :: (s.textReqs.map (·.id) ++ unstarted s.voiceReqs.keys) := by
    rw [queuedIds, htaken]
    rfl
  have hnew : info.id ∉ s.created :=
    h.ids.queued_new info.id (by rw [hqueued]; exact List.mem_cons_self)
  refine h.newOp s.respNotifies (by simp [hpc]) ?_ hknows ?_ ?_
  · intro v hv
    apply hv.newOp_start hcur
    rw [hv.fst_eq]
    exact fun hmem => hnew (h.opIds.subset hmem)
  · intro x hx
    rw [hpc] at hx
    simp only [SendPc.starting] at hx
    split at hx
    · exact List.mem_singleton.mp hx
    · cases hx
  · have hids := h.ids
    rw [hqueued] at hids
    exact hids.create

theorem createCancelled (h : Inv s) {info : SpeechReqInfo} (hpc : s.send = .changeOp info none)
    (htype : info.type = .cancelled) :
    Inv { s with
      controller := s.controller.newOp s.now info.id .cancelled
      created := s.created ++ [info.id]
      respNotifies := s.respNotifies + 1
      send := .loop } := by
  have hcur : s.controller.currentOp = none := by
    have hk := h.send
    rw [hpc] at hk
    exact hk.changeOp_none
  have htaken : s.send.taken s.created = if info.id ∉ s.created then [info.id] else [] := by
    rw [hpc]
    simp [SendPc.taken, htype, opens]
  refine h.newOp _ (by simp [hpc]) (fun v hv => hv.newOp_cancelled hcur _ _)
    (Attended.of_none hcur) ?_ ?_
  · rw [hpc]
    simp [SendPc.starting, htype]
  · have hids := h.ids
    rw [queuedIds, htaken] at hids
    by_cases hc : info.id ∈ s.created
    · rw [if_neg (not_not_intro hc)] at hids
      exact hids.recreate hc
    · rw [if_pos hc] at hids
      exact hids.create

/-- **A step of the send thread.** -/
theorem send_step (h : Inv s) {r : ConnectionOpResult} (hst : s.sendStep r = some t) :
    Inv t := by
  have hmove := sendStep_move hst
  have hknows := hmove.knows h.send h.texts
  cases hmove with
  | exit hpc hinit =>
      exact h.move s.sent (by simp [hpc]) rfl (by rw [hpc]; exact ⟨rfl, rfl⟩) hknows
  | takeVoice hpc hinit hpop htype => exact h.takeVoice hpc hpop htype hknows
  | sleep hpc hinit hq =>
      exact h.move s.sent (by simp [hpc]) hq (by rw [hpc]; exact ⟨rfl, rfl⟩) hknows
  | seeText hpc hinit hq =>
      exact h.move s.sent (by simp [hpc]) hq (by rw [hpc]; exact ⟨rfl, rfl⟩) hknows
  | wake hpc =>
      exact h.move s.sent (by simp [hpc]) rfl (by rw [hpc]; exact ⟨rfl, rfl⟩) hknows
  | look hpc =>
      exact h.move s.sent (by simp [hpc]) rfl (by rw [hpc]; exact ⟨rfl, rfl⟩) hknows
  | busy hpc =>
      exact h.move s.sent (by simp [hpc]) rfl (by rw [hpc]; exact ⟨rfl, rfl⟩) hknows
  | crash hpc htext =>
      exact h.unseen rfl rfl rfl rfl rfl rfl rfl rfl rfl rfl rfl rfl
  | takeText hpc htext => exact h.takeText hpc htext hknows
  | enter hpc =>
      exact h.move s.sent (by simp [hpc]) rfl (by rw [hpc]; exact ⟨rfl, rfl⟩) hknows
  | abort hpc htype =>
      -- `do_ctl_change_op` never finds an operation here
      have hbefore := h.send
      rw [hpc] at hbefore
      cases hbefore.2.2 htype
  | create hpc htype => exact h.create hpc htype hknows
  | proceed hpc htype =>
      refine h.move s.sent (by simp [hpc]) rfl ?_ hknows
      rw [hpc]
      rcases htype with htype | htype
      · simp [SendPc.taken, SendPc.starting, htype, opens]
      · simp [SendPc.taken, SendPc.starting, htype, opens]
  | @cancelCurrent info a hpc htype =>
      -- the operation may have been finished in the meantime, but no other one is current
      have honly : ∀ b, s.controller.currentOp = some b → b = a := by
        have hbefore := h.send
        rw [hpc] at hbefore
        intro b hb
        exact Option.some.inj (hbefore.2.1 b hb).symm
      refine h.advance _ s.sent (by simp [hpc]) (.cancelStale _ a _)
        (fun v hv => hv.cancelStale honly) hknows (fun _ hp => hp) ?_ ?_
      · intro id hid
        rcases h.started id hid with hc | ht
        · exact .inl hc
        · rw [hpc] at ht
          simp [SendPc.starting, htype] at ht
      · apply List.Sublist.subperm
        rw [queuedIds, hpc]
        exact ((List.nil_sublist _).append (.refl _)).append (.refl _)
  | createCancelled hpc htype => exact h.createCancelled hpc htype
  | drop hpc htype =>
      refine h.move s.sent (by simp [hpc]) rfl ?_ hknows
      rw [hpc]
      rcases htype with htype | htype
      · simp [SendPc.taken, SendPc.starting, htype, opens]
      · simp [SendPc.taken, SendPc.starting, htype, opens]
  | build hpc =>
      exact h.move s.sent (by simp [hpc]) rfl (by rw [hpc]; exact ⟨rfl, rfl⟩) hknows
  | fail hpc hr =>
      exact h.move s.sent (by simp [hpc]) rfl (by rw [hpc]; exact ⟨rfl, rfl⟩) hknows
  | available hpc hr hopen =>
      exact h.move s.sent (by simp [hpc]) rfl (by rw [hpc]; exact ⟨rfl, rfl⟩) hknows
  | write hpc =>
      exact h.move _ (by simp [hpc]) rfl (by rw [hpc]; exact ⟨rfl, rfl⟩) hknows
  | @setError info err hpc =>
      refine h.advance _ s.sent (by simp [hpc]) (OpCtl.Quiet.setOpError _ err).toKept
        (fun _ hv => hv.setOpError err) hknows (fun _ hp => hp) ?_ ?_
      · have hstarted := h.started
        rw [hpc] at hstarted
        exact hstarted
      · rw [queuedIds, hpc]
        exact List.Subperm.refl _
  | erase hpc hq =>
      exact h.move s.sent (by simp [hpc]) hq (by rw [hpc]; exact ⟨rfl, rfl⟩) hknows
  | @refresh info hpc =>
      have hquiet := OpCtl.Quiet.refreshOpTime s.controller s.now false
      refine h.advance s.respNotifies s.sent (by simp [hpc]) hquiet.toKept
        (fun _ hv => hv.refreshOpTime _ _) hknows (fun _ hp => hp) ?_ ?_
      · intro id hid
        rcases h.started id hid with hc | ht
        · exact .inl hc
        · rw [hpc] at ht
          cases ht
      · have hnone : ∀ b : Bool, (if b then SendPc.waitOp info.id else .loop).taken s.created =
            [] := by
          intro b
          cases b <;> rfl
        rw [queuedIds, hpc, hnone]
        exact List.Subperm.refl _
  | test hpc hwait =>
      exact h.move s.sent (by simp [hpc]) rfl (by rw [hpc]; exact ⟨rfl, rfl⟩) hknows
  | skip hpc hwait =>
      exact h.move s.sent (by simp [hpc]) rfl (by rw [hpc]; exact ⟨rfl, rfl⟩) hknows
  | park hpc =>
      have hstarted := h.started
      rw [hpc] at hstarted
      refine h.advance s.respNotifies s.sent (by simp [hpc])
        ⟨rfl, List.suffix_refl _, fun _ => rfl⟩ (fun _ hv => hv.opWaiting true) hknows
        (fun _ hp => hp) hstarted ?_
      rw [queuedIds, hpc]
      exact List.Subperm.refl _
  | awake hpc hwait =>
      exact h.move s.sent (by simp [hpc]) rfl (by rw [hpc]; exact ⟨rfl, rfl⟩) hknows

/-- **One step.** -/
theorem step (h : Inv s) {a : SpeechAct} (hclean : CleanPrepare s a) (hincr : AtomicIncr s a)
    (hst : s.step a = some t) : Inv t := by
  unfold SpeechImpl.step at hst
  split at hst
  · cases hst
  · cases a with
    | prepare =>
        simp only at hst
        split at hst
        · rename_i hidle
          cases hst
          exact h.prepare hidle.1 (hclean rfl)
        · cases hst
    | release => exact h.release hst
    | call n c => exact h.call hst
    | client n => exact h.client hincr hst
    | poll => exact h.pollStep hst
    | config mod =>
        cases hst
        cases mod with
        | none => exact h
        | some mod => exact h.unseen rfl rfl rfl rfl rfl rfl rfl rfl rfl rfl rfl rfl
    | send r => exact h.send_step hst
    | gen r resp => exact h.gen hst
    | tick ns =>
        cases hst
        exact h.unseen rfl rfl rfl rfl rfl rfl rfl rfl rfl rfl rfl rfl

end Inv

/-- The step relation of the object. -/
def Steps (s : SpeechImpl) (a : SpeechAct) (t : SpeechImpl) : Prop := s.step a = some t

/-- Sessions start clean and `++next_id_` is not interrupted. -/
def Orderly (s : SpeechImpl) (a : SpeechAct) : Prop := CleanPrepare s a ∧ AtomicIncr s a

/-- **Every run** of sessions that start clean keeps the invariant. -/
theorem Inv.run {s t : SpeechImpl} (hrun : Run Steps Orderly s t) (h : Inv s) : Inv t :=
  hrun.invariant (fun _ _ _ hinv hok hst => hinv.step hok.1 hok.2 hst) h

end SpeechImpl

end OpenVoice
