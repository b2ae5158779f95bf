import OpenVoice.Speech.Alignment
import OpenVoice.Speech.History

/-!
# One terminal result for each request

Every operation that is created is polled to the end at most once, so an id gets at most one
terminal result as long as only one operation is created for it.  `do_ctl_change_op` may create
a second one, when it finds a voice request cancelled whose start has been sent already and whose
operation is not current any more (`cancelled_twice`).  In every run where this does not happen,
and where the ids are different because `++next_id_` is not interrupted, there is one terminal
result for an id, and nothing after it (`terminal_once`).
-/

namespace OpenVoice

open OpenVoice.Lib

namespace SpeechImpl

/-- At most one terminal result for each id, and no result after it. -/
structure TerminalOnce (l : List SpeechResult) : Prop where
  once : ∀ id, (l.filter fun r => r.id = id ∧ r.type.isTerminal).length ≤ 1
  last : ∀ l₁ r l₂, l = l₁ ++ r :: l₂ → r.type.isTerminal = true → ∀ x ∈ l₂, x.id ≠ r.id

/-- The same, said of each pair of results. -/
def Settled (l : List SpeechResult) : Prop :=
  l.Pairwise fun x y => x.type.isTerminal = true → y.id ≠ x.id

theorem Settled.terminalOnce {l : List SpeechResult} (h : Settled l) : TerminalOnce l where
  once id := by
    have hpair := h.sublist (List.filter_sublist (p := fun r => r.id = id ∧ r.type.isTerminal))
    generalize hl : l.filter (fun r => decide (r.id = id ∧ r.type.isTerminal)) = l' at hpair
    have hmem : ∀ r ∈ l', r.id = id ∧ r.type.isTerminal = true := by
      intro r hr
      rw [← hl, List.mem_filter] at hr
      exact of_decide_eq_true hr.2
    match l', hpair, hmem with
    | [], _, _ => exact Nat.zero_le _
    | [_], _, _ => exact Nat.le_refl _
    | x :: y :: _, hpair, hmem =>
        -- two terminal results with one id contradict each other
        obtain ⟨hx, hterm⟩ := hmem x List.mem_cons_self
        obtain ⟨hy, -⟩ := hmem y (List.mem_cons_of_mem _ List.mem_cons_self)
        have hne := (List.pairwise_cons.mp hpair).1 y List.mem_cons_self hterm
        exact absurd (hy.trans hx.symm) hne
  last l₁ r l₂ heq hterm x hx := by
    rw [Settled, heq, List.pairwise_append] at h
    exact (List.pairwise_cons.mp h.2.1).1 x hx hterm

/-- `do_ctl_change_op` creates no second operation for an id. -/
def onlyOp (s : SpeechImpl) : SpeechAct → Bool
  | .send _ =>
      match s.send with
      | .changeOp info none => info.type ≠ .cancelled ∨ info.id ∉ s.created
      | _ => true
  | _ => true

def OnlyOp (s : SpeechImpl) (a : SpeechAct) : Prop := s.onlyOp a = true

instance (s : SpeechImpl) (a : SpeechAct) : Decidable (OnlyOp s a) :=
  inferInstanceAs (Decidable (s.onlyOp a = true))

theorem OnlyOp.fresh {s : SpeechImpl} {r : ConnectionOpResult} (h : OnlyOp s (.send r))
    {info : SpeechReqInfo} (hpc : s.send = .changeOp info none) (htype : info.type = .cancelled) :
    info.id ∉ s.created := by
  unfold OnlyOp onlyOp at h
  simp only [hpc, htype] at h
  simpa using h

/-- What makes terminal results unique: the operations have different ids, and the ids that have
    been settled are those of operations that are gone. -/
structure TerminalInv (s : SpeechImpl) : Prop where
  inv : Inv s
  nodup : s.created.Nodup
  gone : ∀ r ∈ results s.log, r.type.isTerminal = true →
    r.id ∈ s.created ∧ r.id ∉ s.controller.opIds
  settled : Settled (results s.log)

namespace TerminalInv

variable {s t : SpeechImpl}

theorem opened : TerminalInv opened where
  inv := inv_opened
  nodup := .nil
  gone := by
    intro r hr
    cases hr
  settled := .nil

/-- No operation is created and nothing is polled. -/
theorem kept (h : TerminalInv s) (hinv : Inv t) (hcr : t.created = s.created)
    (hlog : results t.log = results s.log) (hc : s.controller.Kept t.controller) :
    TerminalInv t where
  inv := hinv
  nodup := by
    rw [hcr]
    exact h.nodup
  gone := by
    intro r hr hterm
    rw [hlog] at hr
    obtain ⟨hmem, hnot⟩ := h.gone r hr hterm
    rw [hcr]
    exact ⟨hmem, fun hop => hnot (hc.opIds.subset hop)⟩
  settled := by
    rw [hlog]
    exact h.settled

/-- An operation is created for a new id. -/
theorem create (h : TerminalInv s) (hinv : Inv t) {id : Int} (hnew : id ∉ s.created)
    (hcr : t.created = s.created ++ [id]) (hlog : t.log = s.log)
    (hops : t.controller.opIds = s.controller.opIds ++ [id]) : TerminalInv t where
  inv := hinv
  nodup := by
    rw [hcr, List.nodup_append']
    refine ⟨h.nodup, by simp, ?_⟩
    intro x hx hx'
    rw [List.mem_singleton.mp hx'] at hx
    exact hnew hx
  gone := by
    intro r hr hterm
    rw [hlog] at hr
    obtain ⟨hmem, hnot⟩ := h.gone r hr hterm
    rw [hcr, hops, List.mem_append, List.mem_append, List.mem_singleton, not_or]
    refine ⟨.inl hmem, hnot, ?_⟩
    rintro rfl
    exact hnew hmem
  settled := by
    rw [hlog]
    exact h.settled

/-- A result is polled. -/
theorem report (h : TerminalInv s) (hinv : Inv t) {a : Nat} {r : SpeechResult}
    (hrep : Reported s.controller a r) (hcr : t.created = s.created)
    (hlog : t.log = s.log ++ [.result a r])
    (hc : t.controller =
      if r.type.isTerminal then s.controller.removeFrontOp else s.controller) :
    TerminalInv t := by
  have hids : s.controller.opIds = r.id :: s.controller.removeFrontOp.opIds := by
    rw [hrep.id_eq]
    exact OpCtl.opIds_of_front hrep.front
  have hfront : r.id ∈ s.controller.opIds := by
    rw [hids]
    exact List.mem_cons_self
  have hkept : s.controller.Kept t.controller := by
    rw [hc]
    split
    · exact (OpCtl.Quiet.removeFrontOp _).toKept
    · exact .refl _
  exact
    { inv := hinv
      nodup := by
        rw [hcr]
        exact h.nodup
      gone := by
        intro x hx hterm
        rw [hlog, results_append, results_result, List.mem_append, List.mem_singleton] at hx
        rw [hcr]
        rcases hx with hx | rfl
        · obtain ⟨hmem, hnot⟩ := h.gone x hx hterm
          exact ⟨hmem, fun hop => hnot (hkept.opIds.subset hop)⟩
        · -- the operation in front is removed, and no other has its id
          refine ⟨h.inv.opIds.subset hfront, ?_⟩
          rw [hc, if_pos hterm]
          have hnd := h.nodup.sublist h.inv.opIds.sublist
          rw [hids] at hnd
          exact (List.nodup_cons.mp hnd).1
      settled := by
        rw [hlog, results_append, results_result, Settled, List.pairwise_append]
        refine ⟨h.settled, by simp, ?_⟩
        intro x hx y hy hterm heq
        rw [List.mem_singleton.mp hy] at heq
        rw [heq] at hfront
        exact (h.gone x hx hterm).2 hfront }

theorem send_step (h : TerminalInv s) {r : ConnectionOpResult} (hok : OnlyOp s (.send r))
    (hst : s.sendStep r = some t) : TerminalInv t := by
  have hinv := h.inv.send_step hst
  -- creating an operation appends its id
  have hops : ∀ pc, s.send = pc → pc ≠ .done → ∀ id st,
      (s.controller.newOp s.now id st).opIds = s.controller.opIds ++ [id] := by
    rintro _ rfl hne id st
    have hstr : s.Streaming := by
      by_contra hs
      exact hne (h.inv.sendDone (.inr hs))
    obtain ⟨v, hv⟩ := h.inv.lined hstr
    exact hv.newOp_opIds s.now id st
  cases sendStep_move hst with
  | @create info hpc htype =>
      refine h.create hinv ?_ rfl rfl (hops _ hpc (by simp) _ _)
      apply h.inv.ids.queued_new
      rw [queuedIds, hpc]
      simp [waiting, SendPc.taken, htype]
  | createCancelled hpc htype =>
      exact h.create hinv (hok.fresh hpc htype) rfl rfl (hops _ hpc (by simp) _ _)
  | cancelCurrent hpc htype => exact h.kept hinv rfl rfl (.cancelStale _ _ _)
  | @setError info err hpc =>
      exact h.kept hinv rfl rfl (OpCtl.Quiet.setOpError s.controller err).toKept
  | refresh hpc => exact h.kept hinv rfl rfl (OpCtl.Quiet.refreshOpTime _ _ _).toKept
  | park hpc => exact h.kept hinv rfl rfl ⟨rfl, List.suffix_refl _, fun _ => rfl⟩
  | _ => exact h.kept hinv rfl rfl (.refl _)

theorem pollStep (h : TerminalInv s) (hst : s.pollStep = some t) : TerminalInv t := by
  have hinv := h.inv.pollStep hst
  unfold SpeechImpl.pollStep at hst
  split at hst
  · split at hst
    · rename_i hi
      obtain ⟨o, c, q, hpoll, -, hquiet, hcase⟩ := h.inv.poll hi
      rw [hpoll] at hst
      rcases hcase with ⟨rfl, -⟩ | ⟨a, r, rfl, hrep, hc⟩
      · cases hst
        exact h.kept hinv rfl rfl hquiet.toKept
      · cases hst
        exact h.report hinv hrep rfl rfl hc
    · cases hst
      exact h
  · cases hst

theorem release (h : TerminalInv s) (hst : s.release = some t) : TerminalInv t := by
  have hinv := h.inv.release hst
  unfold SpeechImpl.release at hst
  split at hst
  · split at hst
    · split at hst
      · cases hst
        exact h.kept hinv rfl rfl (.refl _)
      · cases hst
        exact h
    · cases hst
  · cases hst
    exact h.kept hinv rfl rfl (.refl _)
  · cases hst
    exact h.kept hinv rfl rfl (OpCtl.Quiet.setOpError _ _).toKept
  · split at hst
    · cases hst
      exact h.kept hinv rfl rfl (.refl _)
    · cases hst
  · split at hst
    · cases hst
      exact h.kept hinv rfl rfl (OpCtl.Quiet.finishOp _).toKept
    · cases hst
  · split at hst
    · cases hst
      exact h.kept hinv rfl rfl (.refl _)
    · cases hst

theorem call (h : TerminalInv s) {n : Nat} {c : SpeechCall} (hst : s.call n c = some t) :
    TerminalInv t := by
  have hinv := h.inv.call hst
  cases call_move hst with
  | stay => exact h
  | enter hidle hheld hpc => exact h.kept hinv rfl rfl (.refl _)
  | cancel id hidle => exact h.kept hinv rfl (by simp [results, record, setClient]) (.refl _)

theorem client (h : TerminalInv s) {n : Nat} (hok : AtomicIncr s (.client n))
    (hst : s.client n = some t) : TerminalInv t := by
  have hinv := h.inv.client hok hst
  cases client_move hst with
  | push hpc hp htype => exact h.kept hinv rfl (by simp [results]) (.refl _)
  | start hpc hq => exact h.kept hinv rfl (by simp [results]) (.refl _)
  | cancelReq hpc hreq hq htext htype hmore =>
      refine h.kept hinv rfl ?_ (.refl _)
      rcases hmore with ⟨-, -, rfl⟩ | ⟨-, -, rfl⟩
      · simp
      · simp [results]
  | cancelOp hpc =>
      exact h.kept hinv rfl (by simp [results]) (OpCtl.Quiet.cancelOp _ _).toKept
  | _ => exact h.kept hinv rfl rfl (.refl _)

theorem gen (h : TerminalInv s) {r : ConnectionOpResult} {resp : SpeechResponse}
    (hst : s.genStep r resp = some t) : TerminalInv t := by
  have hinv := h.inv.gen hst
  obtain ⟨c, q, v, k, pc, hquiet, -, rfl⟩ := genStep_spec hst
  exact h.kept hinv rfl rfl hquiet.toKept

/-- **One step.** -/
theorem step (h : TerminalInv s) {a : SpeechAct} (hok : OneSession s a) (honly : OnlyOp s a)
    (hst : s.step a = some t) : TerminalInv t := by
  have hinv : Inv t := h.inv.step hok.orderly.1 hok.2 hst
  unfold SpeechImpl.step at hst
  split at hst
  · cases hst
  · cases a with
    | prepare => exact absurd rfl hok.1
    | release => exact h.release hst
    | call n c => exact h.call hst
    | client n => exact h.client hok.2 hst
    | poll => exact h.pollStep hst
    | config mod =>
        cases hst
        cases mod with
        | none => exact h
        | some mod => exact h.kept hinv rfl rfl (.refl _)
    | send r => exact h.send_step honly hst
    | gen r resp => exact h.gen hst
    | tick ns =>
        cases hst
        exact h.kept hinv rfl rfl (.refl _)

end TerminalInv

/-- **One terminal result.**  In every run of a session in which `++next_id_` is not interrupted
    and `do_ctl_change_op` creates no second operation for an id, each id gets at most one
    terminal result and no result after it. -/
theorem terminal_once {s : SpeechImpl}
    (hrun : Run Steps (fun s a => OneSession s a ∧ OnlyOp s a) opened s) :
    TerminalOnce (results s.log) := by
  have h : TerminalInv s :=
    hrun.invariant (fun _ _ _ hinv hok hst => hinv.step hok.1 hok.2 hst) .opened
  exact h.settled.terminalOnce

/-- A voice request is cancelled together with everything else after its start has been sent. -/
def cancelledVoice : List SpeechAct :=
  [.call 0 (.startVoice none), .client 0, .client 0, .send .success, .send .success, .send .success,
    .send .success, .send .success, .send .success, .send .success, .call 0 (.cancel 0),
    .client 0]

/-- While the send thread handles the cancelled request before `cancel` reaches the controller
    there is one operation, and one result. -/
theorem terminal_once_cancelledVoice :
    ∃ s, exec step opened (cancelledVoice ++ [.send .success, .send .success, .send .success,
        .client 0, .poll]) = some s ∧
      (results s.log).map (fun r => (r.id, r.type)) = [(1, .cancelled)] ∧
      TerminalOnce (results s.log) := by
  have hok : allOk step (fun s a => OneSession s a ∧ OnlyOp s a) opened
      (cancelledVoice ++ [.send .success, .send .success, .send .success, .client 0, .poll]) =
      true := by
    decide +kernel
  refine ⟨_, rfl, by decide +kernel, ?_⟩
  exact terminal_once (Run.of_exec hok rfl)

/-- Otherwise `do_ctl_change_op` finds no current operation and creates another one. -/
theorem cancelled_twice :
    ∃ s, Run Steps OneSession opened s ∧
      (results s.log).map (fun r => (r.id, r.type)) = [(1, .cancelled), (1, .cancelled)] ∧
      ¬ TerminalOnce (results s.log) := by
  have hok : allOk step OneSession opened (cancelledVoice ++ [.client 0, .send .success,
      .send .success, .send .success, .poll, .poll]) = true := by
    decide +kernel
  refine ⟨_, Run.of_exec hok rfl, by decide +kernel, ?_⟩
  intro h
  have honce := h.once 1
  revert honce
  decide +kernel

/-- A voice and a text request with one id, and the answers. -/
def sharedId : List SpeechAct :=
  let last : SpeechResponse := { id := 1, type := respFinish, result := 0 }
  let answer : List SpeechAct := List.replicate 4 (.gen .success last) ++ [.poll, .poll]
  overlapped ++ List.replicate 7 (.send .success) ++ answer ++ List.replicate 8 (.send .success) ++
    answer

/-- The condition on `++next_id_` is needed as well: `put_text` increments it outside the lock
    that `start_voice` holds, and two requests that have got one id are both answered. -/
theorem sharedId_ended_twice :
    ∃ s, Run Steps (fun s a => a ≠ .prepare ∧ OnlyOp s a) opened s ∧
      (results s.log).map (fun r => (r.id, r.type)) =
        [(1, .start), (1, .end_), (1, .start), (1, .end_)] ∧
      ¬ TerminalOnce (results s.log) := by
  have hok : allOk step (fun s a => a ≠ .prepare ∧ OnlyOp s a) opened sharedId = true := by
    decide +kernel
  refine ⟨_, Run.of_exec hok rfl, by decide +kernel, ?_⟩
  intro h
  have honce := h.once 1
  revert honce
  decide +kernel

end SpeechImpl

end OpenVoice
