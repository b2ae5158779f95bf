import OpenVoice.Lib.Traced
import OpenVoice.Speech.Alignment

/-!
# Closing a voice request towards the server

A voice request whose start has been sent is closed by `VOICE_END`, also when it is cancelled or
times out: `sqtype_to_reqtype` maps both results of a pop to an end.  `do_ctl_change_op` lets the
end pass only while the operation is current.  So the end is sent if the operation is ended by
`do_ctl_change_op` itself, or after it has let the end pass (`abandoned_ended`), and is not sent
if `cancel_op` or the timeout comes first (`abandoned_open`).
-/

namespace OpenVoice

open OpenVoice.Lib

inductive CloseEvent where
  /-- `connection_.send` has returned `SUCCESS` -/
  | sent (req : SpeechRequest)
  /-- `connection_.send` has returned an error -/
  | failed (req : SpeechRequest)
  /-- a voice request whose start has been sent is no longer current, because it was cancelled or
      timed out -/
  | abandoned (id : Int)
deriving DecidableEq, Repr

/-- The end of a voice request. -/
def endRequest (id : Int) : SpeechRequest := { id := id, type := .end_ }

/-- The end has been sent, unless the connection failed just then. -/
def Settled (tr : List CloseEvent) (id : Int) : Prop :=
  .sent (endRequest id) ∈ tr ∨ .failed (endRequest id) ∈ tr

/-- Before a `START` or a `TEXT` is sent, every voice request abandoned so far is ended. -/
def EndsAbandoned (tr : List CloseEvent) : Prop :=
  ∀ l req l', tr = l ++ .sent req :: l' → req.type = .start ∨ req.type = .text →
    ∀ id, .abandoned id ∈ l → Settled l id

section EndsAbandoned

variable {tr : List CloseEvent}

theorem Settled.append {id : Int} (h : Settled tr id) (es : List CloseEvent) :
    Settled (tr ++ es) id :=
  h.imp (List.mem_append_left _) (List.mem_append_left _)

theorem EndsAbandoned.nil : EndsAbandoned [] := by
  intro l req l' heq
  simp at heq

/-- An event is recorded; if it opens something, `hlast` says that nothing is owed. -/
theorem EndsAbandoned.snoc (h : EndsAbandoned tr) {e : CloseEvent}
    (hlast : ∀ req, e = .sent req → req.type = .start ∨ req.type = .text →
      ∀ id, .abandoned id ∈ tr → Settled tr id) : EndsAbandoned (tr ++ [e]) := by
  intro l req l' heq htype id hid
  rcases List.eq_nil_or_concat l' with rfl | ⟨l'', x, rfl⟩
  · obtain ⟨rfl, he⟩ := List.append_inj' heq rfl
    exact hlast req (List.singleton_inj.mp he) htype id hid
  · have hsplit : tr ++ [e] = (l ++ .sent req :: l'') ++ [x] := by
      rw [heq]
      simp
    obtain ⟨htr, -⟩ := List.append_inj' hsplit rfl
    exact h l req l'' htr htype id hid

/-- Operations are abandoned. -/
theorem EndsAbandoned.abandon (h : EndsAbandoned tr) (ids : List Int) :
    EndsAbandoned (tr ++ ids.map .abandoned) := by
  induction ids generalizing tr with
  | nil =>
      rw [List.map_nil, List.append_nil]
      exact h
  | cons id ids ih =>
      have hone : EndsAbandoned (tr ++ [.abandoned id]) := by
        apply h.snoc
        intro req heq
        cases heq
      have hrest := ih hone
      rw [List.append_assoc] at hrest
      exact hrest

end EndsAbandoned

namespace SpeechImpl

/-! ### Observing the steps -/

/-- `current_op_->id` -/
def currentId (s : SpeechImpl) : Option Int := s.controller.current.map (·.id)

/-- The id of the operation that stops being current because it is cancelled or times out. -/
def stops (s : SpeechImpl) : SpeechAct → Option Int
  | .client n =>
      match s.clients n with
      | .cancelOp id =>
          if (s.cancelOp id).controller.currentOp = none then s.currentId else none
      | _ => none
  | .send _ =>
      match s.send with
      | .changeOp info (some _) => if info.type = .cancelled then s.currentId else none
      | _ => none
  | .gen _ _ =>
      match s.gen with
      | .handle .timeout _ => if s.controller.opTimeout s.now = 0 then s.currentId else none
      | _ => none
  | _ => none

/-- The connection has not failed, as far as the threads have seen. -/
def connected (s : SpeechImpl) : Bool :=
  !s.connClosed &&
    (match s.send with
      | .sendFailed _ _ => false
      | _ => true) &&
    match s.gen with
      | .handle r _ => r = .success ∨ r = .timeout
      | _ => true

/-- The final response for the request has been received. -/
def finishReceived (id : Int) (s : SpeechImpl) : Bool :=
  match s.gen with
  | .handle .success resp => resp.id = id ∧ resp.type = respFinish
  | _ => false

/-- The voice requests a step leaves open towards the server, unless their end is sent. -/
def abandons (s : SpeechImpl) (a : SpeechAct) : List Int :=
  (s.stops a).toList.filter fun id =>
    s.sent.any (fun req => req.id = id ∧ req.type = .start) && s.connected &&
      !s.finishReceived id

/-- What is observed in a step. -/
def closeEvents (s : SpeechImpl) (a : SpeechAct) : List CloseEvent :=
  (s.abandons a).map .abandoned ++
    match a, s.send with
    | .send r, .sending _ treq => if r ≠ .success then [.failed treq] else []
    | .send _, .writing _ treq => [.sent treq]
    | _, _ => []

/-- `do_ctl_change_op` has let the end of the voice request pass. -/
def SendPc.closing (id : Int) : SendPc → Bool
  | .changeOp info (some _) | .request info | .sending info _ | .writing info _ =>
      info.id = id ∧ (info.type = .voiceEnd ∨ info.type = .cancelled)
  | _ => false

/-- When `cancel_op` or the timeout ends a voice request, its end has been sent, or
    `do_ctl_change_op` has let it pass. -/
def endFirst (s : SpeechImpl) : SpeechAct → Bool
  | .send _ => true
  | a => (s.abandons a).all fun id => s.send.closing id || decide (endRequest id ∈ s.sent)

def EndFirst (s : SpeechImpl) (a : SpeechAct) : Prop := s.endFirst a = true

instance (s : SpeechImpl) (a : SpeechAct) : Decidable (EndFirst s a) :=
  inferInstanceAs (Decidable (s.endFirst a = true))

/-! ### The invariant -/

theorem treq_end {info : SpeechReqInfo} (o : SpeechOptionsHolder)
    (htype : info.type = .voiceEnd ∨ info.type = .cancelled) :
    info.treq o = endRequest info.id := by
  unfold SpeechReqInfo.treq
  rcases htype with htype | htype
  · rw [htype]
    rfl
  · rw [htype]
    rfl

/-- What is abandoned has been ended, or its end is on the way. -/
structure Closes (s : SpeechImpl) (tr : List CloseEvent) : Prop where
  inv : Inv s
  ends : EndsAbandoned tr
  owed : ∀ id, .abandoned id ∈ tr → Settled tr id ∨ s.send.closing id = true
  sent : ∀ req ∈ s.sent, .sent req ∈ tr
  made : ∀ info treq, s.send = .sending info treq ∨ s.send = .writing info treq →
    ∃ o, treq = info.treq o

namespace Closes

variable {s t : SpeechImpl} {tr : List CloseEvent}

theorem opened : Closes opened [] where
  inv := inv_opened
  ends := .nil
  owed := by
    intro id hid
    cases hid
  sent := by
    intro req hreq
    cases hreq
  made := by
    rintro info treq (hpc | hpc)
    · cases hpc
    · cases hpc

/-- A step of any thread but the send thread. -/
theorem others (h : Closes s tr) (hinv : Inv t) {a : SpeechAct} (hsend : t.send = s.send)
    (hsent : t.sent = s.sent) (hok : EndFirst s a) (ha : ∀ r, a ≠ .send r) :
    Closes t (tr ++ s.closeEvents a) := by
  have hes : s.closeEvents a = (s.abandons a).map .abandoned := by
    unfold closeEvents
    cases a with
    | send r => exact absurd rfl (ha r)
    | _ => exact List.append_nil _
  rw [hes]
  constructor
  · exact hinv
  · exact h.ends.abandon _
  · intro id hid
    rw [hsend]
    rcases List.mem_append.mp hid with hid | hid
    · exact (h.owed id hid).imp_left fun hs => hs.append _
    · -- the condition is about this operation
      obtain ⟨x, hx, heq⟩ := List.mem_map.mp hid
      cases heq
      have hall : (s.abandons a).all
          (fun id => s.send.closing id || decide (endRequest id ∈ s.sent)) = true := by
        unfold EndFirst endFirst at hok
        cases a with
        | send r => exact absurd rfl (ha r)
        | _ => exact hok
      have hone := List.all_eq_true.mp hall id hx
      rw [Bool.or_eq_true, decide_eq_true_iff] at hone
      rcases hone with hclosing | hmem
      · exact .inr hclosing
      · exact .inl (.inl (List.mem_append_left _ (h.sent _ hmem)))
  · intro req hreq
    rw [hsent] at hreq
    exact List.mem_append_left _ (h.sent req hreq)
  · rw [hsend]
    exact h.made

/-- The send thread goes on, and nothing is observed. -/
theorem silent (h : Closes s tr) (hinv : Inv t) {r : ConnectionOpResult}
    (hes : s.closeEvents (.send r) = []) (hsent : t.sent = s.sent)
    (howed : ∀ id, s.send.closing id = true → t.send.closing id = true)
    (hmade : ∀ info treq, t.send = .sending info treq ∨ t.send = .writing info treq →
      ∃ o, treq = info.treq o) : Closes t (tr ++ s.closeEvents (.send r)) := by
  rw [hes, List.append_nil]
  constructor
  · exact hinv
  · exact h.ends
  · exact fun id hid => (h.owed id hid).imp_right (howed id)
  · rw [hsent]
    exact h.sent
  · exact hmade

/-- Only `cancelCurrent`, and what `connection_.send` returns, is observed of the send thread. -/
theorem closeEvents_nil {r : ConnectionOpResult} (hsend : ∀ info treq, s.send ≠ .sending info treq)
    (hwrite : ∀ info treq, s.send ≠ .writing info treq)
    (htype : ∀ info a, s.send = .changeOp info (some a) → info.type ≠ .cancelled) :
    s.closeEvents (.send r) = [] := by
  have hstops : s.stops (.send r) = none := by
    unfold stops
    simp only
    split
    · rename_i info a hpc
      exact if_neg (htype info a hpc)
    · rfl
  unfold closeEvents abandons
  rw [hstops]
  simp only [Option.toList_none, List.filter_nil, List.map_nil, List.nil_append]
  split
  · rename_i info treq _ hpc
    exact absurd hpc (hsend info treq)
  · rename_i info treq _ hpc
    exact absurd hpc (hwrite info treq)
  · rfl

/-- The operation that `do_ctl_change_op` cancels is that of the request. -/
theorem id_of_stops (h : Closes s tr) {r : ConnectionOpResult} {info : SpeechReqInfo} {a : Nat}
    (hpc : s.send = .changeOp info (some a)) (htype : info.type = .cancelled) {id : Int}
    (hstop : s.stops (.send r) = some id) : info.id = id := by
  unfold stops currentId OpCtl.current at hstop
  simp only [hpc, htype, if_true] at hstop
  have hknows := h.inv.send
  rw [hpc] at hknows
  have honly : OnlyCurrent info.id s.controller := by
    have htaken := hknows.1
    unfold TakenKnows at htaken
    rw [htype] at htaken
    exact htaken
  cases hcur : s.controller.currentOp with
  | none =>
      rw [hcur] at hstop
      cases hstop
  | some b =>
      rw [hcur] at hstop
      have heq : (s.controller.heap b).id = id := by simpa using hstop
      exact (honly b hcur).symm.trans heq

/-- The current operation is cancelled by its own request, whose end comes next. -/
theorem cancelCurrent (h : Closes s tr) (hinv : Inv t) {r : ConnectionOpResult}
    {info : SpeechReqInfo} {a : Nat} (hpc : s.send = .changeOp info (some a))
    (htype : info.type = .cancelled) (hsend : t.send = .request info) (hsent : t.sent = s.sent) :
    Closes t (tr ++ s.closeEvents (.send r)) := by
  have hes : s.closeEvents (.send r) = (s.abandons (.send r)).map .abandoned := by
    unfold closeEvents
    rw [hpc]
    exact List.append_nil _
  have hclosing : (SendPc.request info).closing info.id = true :=
    decide_eq_true ⟨rfl, .inr htype⟩
  rw [hes]
  constructor
  · exact hinv
  · exact h.ends.abandon _
  · intro id hid
    rw [hsend]
    rcases List.mem_append.mp hid with hid | hid
    · rcases h.owed id hid with hsettled | hold
      · exact .inl (hsettled.append _)
      · rw [hpc] at hold
        exact .inr hold
    · obtain ⟨x, hx, heq⟩ := List.mem_map.mp hid
      cases heq
      have hstop : s.stops (.send r) = some id :=
        Option.mem_toList.mp (List.mem_of_mem_filter hx)
      rw [← h.id_of_stops hpc htype hstop]
      exact .inr hclosing
  · rw [hsent]
    exact fun req hreq => List.mem_append_left _ (h.sent req hreq)
  · rw [hsend]
    rintro info' treq (heq | heq)
    · cases heq
    · cases heq

/-- `connection_.send` fails; if it was an end, that is the end of it. -/
theorem fail (h : Closes s tr) (hinv : Inv t) {r : ConnectionOpResult} {info : SpeechReqInfo}
    {treq : SpeechRequest} {err : SpeechError} (hpc : s.send = .sending info treq)
    (hr : r ≠ .success) (hsend : t.send = .sendFailed info err) (hsent : t.sent = s.sent) :
    Closes t (tr ++ s.closeEvents (.send r)) := by
  have hes : s.closeEvents (.send r) = [.failed treq] := by
    unfold closeEvents abandons stops
    simp [hpc, hr]
  rw [hes]
  constructor
  · exact hinv
  · apply h.ends.snoc
    intro req heq
    cases heq
  · intro id hid
    have hold : .abandoned id ∈ tr := by simpa using hid
    rcases h.owed id hold with hsettled | hclosing
    · exact .inl (hsettled.append _)
    · -- it is the end that has failed
      rw [hpc] at hclosing
      obtain ⟨rfl, htype⟩ := of_decide_eq_true hclosing
      obtain ⟨o, rfl⟩ := h.made info treq (.inl hpc)
      refine .inl (.inr ?_)
      rw [treq_end o htype]
      exact List.mem_append_right _ List.mem_cons_self
  · rw [hsent]
    exact fun req hreq => List.mem_append_left _ (h.sent req hreq)
  · rw [hsend]
    rintro info' treq' (heq | heq)
    · cases heq
    · cases heq

/-- A request is handed over; if it is an end, it settles its operation. -/
theorem write (h : Closes s tr) (hinv : Inv t) {r : ConnectionOpResult} {info : SpeechReqInfo}
    {treq : SpeechRequest} (hpc : s.send = .writing info treq) (hsend : t.send = .sent info)
    (hsent : t.sent = s.sent ++ [treq]) : Closes t (tr ++ s.closeEvents (.send r)) := by
  have hes : s.closeEvents (.send r) = [.sent treq] := by
    unfold closeEvents abandons stops
    simp [hpc]
  obtain ⟨o, rfl⟩ := h.made info treq (.inr hpc)
  rw [hes]
  have hsettled : ∀ id, .abandoned id ∈ tr →
      Settled tr id ∨ info.id = id ∧ (info.type = .voiceEnd ∨ info.type = .cancelled) := by
    intro id hid
    rcases h.owed id hid with hsettled | hclosing
    · exact .inl hsettled
    · rw [hpc] at hclosing
      exact .inr (of_decide_eq_true hclosing)
  constructor
  · exact hinv
  · apply h.ends.snoc
    intro req heq htype id hid
    cases heq
    rcases hsettled id hid with hs | ⟨-, hend⟩
    · exact hs
    · -- the end opens nothing
      rw [treq_end o hend] at htype
      rcases htype with htype | htype
      · cases htype
      · cases htype
  · intro id hid
    have hold : .abandoned id ∈ tr := by simpa using hid
    rcases hsettled id hold with hs | ⟨rfl, hend⟩
    · exact .inl (hs.append _)
    · refine .inl (.inl ?_)
      rw [treq_end o hend]
      exact List.mem_append_right _ List.mem_cons_self
  · intro req hreq
    rw [hsent] at hreq
    rcases List.mem_append.mp hreq with hreq | hreq
    · exact List.mem_append_left _ (h.sent req hreq)
    · obtain rfl := List.mem_singleton.mp hreq
      exact List.mem_append_right _ List.mem_cons_self
  · rw [hsend]
    rintro info' treq' (heq | heq)
    · cases heq
    · cases heq

theorem send_step (h : Closes s tr) {r : ConnectionOpResult} (hst : s.sendStep r = some t) :
    Closes t (tr ++ s.closeEvents (.send r)) := by
  have hinv := h.inv.send_step hst
  cases sendStep_move hst with
  | @proceed info a hpc htype =>
      apply h.silent hinv
      · apply closeEvents_nil
        · simp [hpc]
        · simp [hpc]
        · intro info' a' heq
          rw [hpc] at heq
          cases heq
          rcases htype with htype | htype
          · simp [htype]
          · simp [htype]
      · rfl
      · intro id hid
        rw [hpc] at hid
        exact hid
      · rintro info' treq (heq | heq)
        · cases heq
        · cases heq
  | cancelCurrent hpc htype => exact h.cancelCurrent hinv hpc htype rfl rfl
  | @build info hpc =>
      apply h.silent hinv
      · apply closeEvents_nil <;> simp [hpc]
      · rfl
      · intro id hid
        rw [hpc] at hid
        exact hid
      · rintro info' treq (heq | heq)
        · cases heq
          exact ⟨_, rfl⟩
        · cases heq
  | fail hpc hr => exact h.fail hinv hpc hr rfl rfl
  | @available info treq hpc hr hopen =>
      apply h.silent hinv
      · unfold closeEvents abandons stops
        simp [hpc, hr]
      · rfl
      · intro id hid
        rw [hpc] at hid
        exact hid
      · rintro info' treq' (heq | heq)
        · cases heq
        · cases heq
          exact h.made info treq (.inl hpc)
  | write hpc => exact h.write hinv hpc rfl rfl
  | abort hpc htype => cases hinv.running
  | @refresh info hpc =>
      apply h.silent hinv
      · apply closeEvents_nil <;> simp [hpc]
      · rfl
      · intro id hid
        rw [hpc] at hid
        cases hid
      · intro info' treq' heq
        split at heq
        · rcases heq with heq | heq
          · cases heq
          · cases heq
        · rcases heq with heq | heq
          · cases heq
          · cases heq
  | crash hpc htext =>
      apply h.silent hinv
      · apply closeEvents_nil <;> simp [hpc]
      · rfl
      · exact fun id hid => hid
      · exact h.made
  | _ hpc =>
      apply h.silent hinv
      · apply closeEvents_nil <;> simp [hpc]
      · rfl
      · intro id hid
        rw [hpc] at hid
        cases hid
      · rintro info treq (heq | heq)
        · cases heq
        · cases heq

/-- **One step.** -/
theorem step (h : Closes s tr) {a : SpeechAct} (hok : OneSession s a) (hend : EndFirst s a)
    (hst : s.step a = some t) : Closes t (tr ++ s.closeEvents a) := by
  have hinv : Inv t := h.inv.step hok.orderly.1 hok.2 hst
  by_cases hsend : ∃ r, a = .send r
  · obtain ⟨r, rfl⟩ := hsend
    unfold SpeechImpl.step at hst
    split at hst
    · cases hst
    · exact h.send_step hst
  · have ha : ∀ r, a ≠ .send r := fun r heq => hsend ⟨r, heq⟩
    cases step_move hst with
    | prepared hinit => exact absurd rfl hok.1
    | prepare hrel hinit => exact absurd rfl hok.1
    | release hmove =>
        cases hmove with
        | _ => exact h.others hinv rfl rfl hend ha
    | send hmove => exact absurd rfl (ha _)
    | gen hgen =>
        obtain ⟨c, q, v, k, pc, -, -, rfl⟩ := genStep_spec hgen
        exact h.others hinv rfl rfl hend ha
    | client hquiet hkeys htexts => exact h.others hinv rfl rfl hend ha

end Closes

/-- The steps of a session, observed. -/
def CloseSteps (u : Traced SpeechImpl CloseEvent) (a : SpeechAct)
    (v : Traced SpeechImpl CloseEvent) : Prop := Traced.step step closeEvents u a = some v

/-- **A voice request is closed towards the server.**  In every run of a session in which
    `++next_id_` is not interrupted and `cancel_op` and the timeout end a voice request only after
    its end has passed `do_ctl_change_op`, the end of a cancelled or timed out voice request is sent
    before the next start or text. -/
theorem abandoned_ended {u : Traced SpeechImpl CloseEvent}
    (hrun : Run CloseSteps (Traced.Lift fun s a => OneSession s a ∧ EndFirst s a) ⟨opened, []⟩ u) :
    EndsAbandoned u.trace := by
  have h : Closes u.state u.trace := by
    apply hrun.invariant
    · intro t a v hinv hok hst
      obtain ⟨hst', htr⟩ := Traced.step_eq_some.mp hst
      rw [htr]
      exact hinv.step hok.1 hok.2 hst'
    · exact .opened
  exact h.ends

/-- `start_voice`, and the start is sent. -/
def startedVoice : List SpeechAct :=
  [.call 0 (.startVoice none), .client 0, .client 0] ++ List.replicate 7 (.send .success)

/-- `cancel(0)`, and a text request. -/
def cancelAll : List SpeechAct := [.call 0 (.cancel 0), .client 0]

def nextText : List SpeechAct :=
  [.call 1 (.putText (some [5]) none), .client 1, .client 1, .client 1]

/-- The send thread gets to the cancelled request before `cancel` gets to the controller. -/
theorem abandoned_ended_cancelled :
    ∃ u, exec (Traced.step step closeEvents) ⟨opened, []⟩
        (startedVoice ++ cancelAll ++ List.replicate 7 (.send .success) ++ [.client 0] ++ nextText ++
          List.replicate 9 (.send .success)) = some u ∧
      u.trace.map (fun e => match e with
        | .sent req => some (req.id, req.type)
        | _ => none) =
        [some (1, .start), none, some (1, .end_), some (2, .text)] ∧ EndsAbandoned u.trace := by
  have hok : allOk (Traced.step step closeEvents)
      (Traced.Lift fun s a => OneSession s a ∧ EndFirst s a) ⟨opened, []⟩
        (startedVoice ++ cancelAll ++ List.replicate 7 (.send .success) ++ [.client 0] ++ nextText ++
          List.replicate 9 (.send .success)) = true := by
    decide +kernel
  refine ⟨_, rfl, by decide +kernel, ?_⟩
  exact abandoned_ended (Run.of_exec hok rfl)

/-- Otherwise it finds no current operation, and the text is sent without the end. -/
theorem abandoned_open :
    ∃ u, Run CloseSteps (Traced.Lift OneSession) ⟨opened, []⟩ u ∧ ¬ EndsAbandoned u.trace := by
  have hok : allOk (Traced.step step closeEvents) (Traced.Lift OneSession) ⟨opened, []⟩
      (startedVoice ++ cancelAll ++ [.client 0] ++ nextText ++ List.replicate 12 (.send .success)) =
        true := by
    decide +kernel
  let start : SpeechRequest :=
    { id := 1, type := .start, options := some (reqConfig {} none) }
  let text : SpeechRequest :=
    { id := 2, type := .text, asr := some [5], options := some (reqConfig {} none) }
  obtain ⟨u, hu, htr⟩ : ∃ u, exec (Traced.step step closeEvents) ⟨opened, []⟩
      (startedVoice ++ cancelAll ++ [.client 0] ++ nextText ++ List.replicate 12 (.send .success)) =
        some u ∧ u.trace = [.sent start, .abandoned 1, .sent text] :=
    ⟨_, rfl, by decide +kernel⟩
  refine ⟨u, Run.of_exec hok hu, ?_⟩
  intro h
  have hsettled := h [.sent start, .abandoned 1] text [] htr (.inr rfl) 1 (by simp)
  rcases hsettled with hsent | hfailed
  · simp [endRequest, start] at hsent
  · simp at hfailed

end SpeechImpl

end OpenVoice
