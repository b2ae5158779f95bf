import OpenVoice.Speech.Alignment
import OpenVoice.Tts.Moves

/-!
# Sessions and what is left of them

`release` empties the request queues and `responses_`, but `operations_` keeps what has not been
polled, and a request may still come in while the session is being closed.  A later session on the
same object takes over what is there (`leftover_polled`).  When nothing is, `poll` reports the
operations of its own session only (`session_isolation`).
-/

namespace OpenVoice

open OpenVoice.Lib

namespace TtsImpl

/-- Since `prepare`, `poll` has reported operations of this session only, and no assertion has
    failed. -/
structure Isolated (s : TtsImpl) : Prop where
  polled : ∀ p ∈ s.polled, s.epoch ≤ p.1
  running : s.aborted = false

/-- Nobody but `poll` reports results. -/
theorem step_polled {s t : TtsImpl} {a : TtsAct} (hst : s.step a = some t) (hprep : a ≠ .prepare)
    (hpoll : a ≠ .poll) : t.polled = s.polled ∧ t.epoch = s.epoch := by
  unfold TtsImpl.step at hst
  split at hst
  · cases hst
  · cases a with
    | prepare => exact absurd rfl hprep
    | poll => exact absurd rfl hpoll
    | release =>
        unfold TtsImpl.release at hst
        simp only at hst
        split at hst
        · split at hst
          · cases hst
            exact ⟨rfl, rfl⟩
          · cases hst
            exact ⟨rfl, rfl⟩
        · cases hst
          exact ⟨rfl, rfl⟩
        · split at hst
          · cases hst
            exact ⟨rfl, rfl⟩
          · cases hst
        · cases hst
          exact ⟨rfl, rfl⟩
        · split at hst
          · cases hst
            exact ⟨rfl, rfl⟩
          · cases hst
    | call n pc =>
        unfold TtsImpl.call at hst
        simp only at hst
        split at hst
        · split at hst
          · cases hst
            exact ⟨rfl, rfl⟩
          · cases hst
            exact ⟨rfl, rfl⟩
        · cases hst
          exact ⟨rfl, rfl⟩
        · cases hst
    | client n =>
        unfold TtsImpl.client at hst
        simp only at hst
        split at hst
        · split at hst
          · cases hst
          · cases hst
            exact ⟨rfl, rfl⟩
          · rename_i id _
            cases hst
            obtain ⟨reqs, c, k, heq, -⟩ :=
              cancel_spec id { s with clients := Function.update s.clients n .idle }
            rw [heq]
            exact ⟨rfl, rfl⟩
        · cases hst
    | config mod =>
        cases hst
        cases mod with
        | none => exact ⟨rfl, rfl⟩
        | some mod => exact ⟨rfl, rfl⟩
    | send r => cases sendStep_move hst <;> exact ⟨rfl, rfl⟩
    | gen r resp =>
        unfold TtsImpl.genStep at hst
        simp only at hst
        split at hst
        · cases hst
          exact ⟨rfl, rfl⟩
        · split at hst
          · split at hst
            · cases hst
              exact ⟨rfl, rfl⟩
            · cases hst
              exact ⟨rfl, rfl⟩
          · cases hst
        · rename_i r' resp' _
          cases hst
          rw [(handleResult_section r' resp' s).eq]
          exact ⟨rfl, rfl⟩
        · cases hst
    | tick ns =>
        cases hst
        exact ⟨rfl, rfl⟩

/-- **One step.**  `poll` reports the operation in front, and the operations are all of this
    session. -/
theorem Isolated.step {s t : TtsImpl} {a : TtsAct} (h : Isolated s) (hinv : Inv s)
    (hinv' : Inv t) (hst : s.step a = some t) : Isolated t where
  running := hinv'.running
  polled := by
    by_cases hprep : a = .prepare
    · subst hprep
      unfold TtsImpl.step at hst
      split at hst
      · cases hst
      · simp only at hst
        split at hst
        · cases hst
          unfold TtsImpl.prepare
          split
          · exact h.polled
          · simp
        · cases hst
    · by_cases hpoll : a = .poll
      · subst hpoll
        unfold TtsImpl.step at hst
        split at hst
        · cases hst
        · cases hst
          unfold TtsImpl.pollStep
          split
          · rename_i hi
            obtain ⟨v, hv, -⟩ := hinv.lined (.inl hi)
            obtain ⟨o, c, q, hp, -, -, hcase⟩ := poll_spec hv hinv.noError
            rw [hp]
            rcases hcase with ⟨rfl, -⟩ | ⟨a, r, v', rfl, hfront, -⟩
            · exact h.polled
            · intro p hmem
              rcases List.mem_append.mp hmem with hmem | hmem
              · exact h.polled p hmem
              · rw [List.mem_singleton.mp hmem]
                exact hinv.epoch a (List.mem_of_mem_head? hfront)
          · exact h.polled
      · obtain ⟨hpol, hep⟩ := step_polled hst hprep hpoll
        rw [hpol, hep]
        exact h.polled

theorem Isolated.run {s : TtsImpl} (hrun : Run Steps CleanPrepare {} s) : Isolated s := by
  have hstep : ∀ t a u, Inv t ∧ Isolated t → CleanPrepare t a → Steps t a u →
      Inv u ∧ Isolated u := by
    intro t a u ht hok hst
    have hinv := ht.1.step hok hst
    exact ⟨hinv, ht.2.step ht.1 hinv hst⟩
  have hinit : Isolated {} := ⟨by simp, rfl⟩
  exact (hrun.invariant hstep ⟨inv_init, hinit⟩).2

end TtsImpl

namespace SpeechImpl

/-- Since `prepare`, `poll` has reported operations of this session only, and no assertion has
    failed. -/
structure Isolated (s : SpeechImpl) : Prop where
  polled : ∀ a r, .result a r ∈ s.log → s.epoch ≤ a
  running : s.aborted = false

/-- Nobody but `poll` reports results. -/
theorem step_reported {s t : SpeechImpl} {a : SpeechAct} (hst : s.step a = some t)
    (hprep : a ≠ .prepare) (hpoll : a ≠ .poll) :
    t.epoch = s.epoch ∧ ∀ b r, .result b r ∈ t.log → .result b r ∈ s.log := by
  have hsame : ∀ b r, SpeechEvent.result b r ∈ s.log → .result b r ∈ s.log := fun _ _ h => h
  unfold SpeechImpl.step at hst
  split at hst
  · cases hst
  · cases a with
    | prepare => exact absurd rfl hprep
    | poll => exact absurd rfl hpoll
    | release =>
        cases release_move hst with
        | _ => exact ⟨rfl, hsame⟩
    | call n c =>
        cases call_move hst with
        | stay => exact ⟨rfl, hsame⟩
        | enter hidle hheld hpc => exact ⟨rfl, hsame⟩
        | cancel id hidle => exact ⟨rfl, by simp [record, setClient]⟩
    | client n =>
        cases client_move hst with
        | push hpc hp htype => exact ⟨rfl, by simp⟩
        | start hpc hq => exact ⟨rfl, by simp⟩
        | cancelReq hpc hreq hq htext htype hmore =>
            refine ⟨rfl, ?_⟩
            rcases hmore with ⟨-, -, rfl⟩ | ⟨-, -, rfl⟩
            · simp
            · simp
        | cancelOp hpc => exact ⟨rfl, by simp⟩
        | _ => exact ⟨rfl, hsame⟩
    | config mod =>
        cases hst
        cases mod with
        | none => exact ⟨rfl, hsame⟩
        | some mod => exact ⟨rfl, hsame⟩
    | send r => cases sendStep_move hst <;> exact ⟨rfl, hsame⟩
    | gen r resp =>
        obtain ⟨c, q, v, k, pc, -, -, rfl⟩ := genStep_spec hst
        exact ⟨rfl, hsame⟩
    | tick ns =>
        cases hst
        exact ⟨rfl, hsame⟩

/-- **One step.** -/
theorem Isolated.step {s t : SpeechImpl} {a : SpeechAct} (h : Isolated s) (hinv : Inv s)
    (hinv' : Inv t) (hst : s.step a = some t) : Isolated t where
  running := hinv'.running
  polled := by
    by_cases hprep : a = .prepare
    · subst hprep
      unfold SpeechImpl.step at hst
      split at hst
      · cases hst
      · simp only at hst
        split at hst
        · cases hst
          unfold SpeechImpl.prepare
          split
          · exact h.polled
          · simp
        · cases hst
    · by_cases hpoll : a = .poll
      · subst hpoll
        unfold SpeechImpl.step at hst
        split at hst
        · cases hst
        · simp only at hst
          unfold SpeechImpl.pollStep at hst
          split at hst
          · split at hst
            · rename_i hi
              obtain ⟨o, c, q, hp, -, -, hcase⟩ := hinv.poll hi
              rw [hp] at hst
              rcases hcase with ⟨rfl, -⟩ | ⟨b, r, rfl, hrep, -⟩
              · cases hst
                exact h.polled
              · cases hst
                intro x r' hmem
                rcases List.mem_append.mp hmem with hmem | hmem
                · exact h.polled x r' hmem
                · cases List.mem_singleton.mp hmem
                  exact hinv.epoch b (List.mem_of_mem_head? hrep.front)
            · cases hst
              exact h.polled
          · cases hst
      · obtain ⟨hep, hlog⟩ := step_reported hst hprep hpoll
        intro b r hmem
        rw [hep]
        exact h.polled b r (hlog b r hmem)

theorem Isolated.run {s : SpeechImpl} (hrun : Run Steps Orderly {} s) : Isolated s := by
  have hstep : ∀ t a u, Inv t ∧ Isolated t → Orderly t a → Steps t a u →
      Inv u ∧ Isolated u := by
    intro t a u ht hok hst
    have hinv := ht.1.step hok.1 hok.2 hst
    exact ⟨hinv, ht.2.step ht.1 hinv hst⟩
  have hinit : Isolated {} := ⟨by simp, rfl⟩
  exact (hrun.invariant hstep ⟨inv_init, hinit⟩).2

end SpeechImpl

/-- **Isolation.**  In every run, over any number of sessions, that opens its sessions on clean
    objects and does not interrupt `++next_id_`, `poll` reports only operations of the session it
    is called in, and no assertion fails. -/
theorem session_isolation (s : TtsImpl) (u : SpeechImpl) :
    (Run TtsImpl.Steps TtsImpl.CleanPrepare {} s → s.Isolated) ∧
      (Run SpeechImpl.Steps SpeechImpl.Orderly {} u → u.Isolated) :=
  ⟨fun hrun => TtsImpl.Isolated.run hrun, fun hrun => SpeechImpl.Isolated.run hrun⟩

/-! ### Runs -/

namespace SpeechImpl

/-- A text request that is served and polled, and the end of the session. -/
def polledText : List SpeechAct :=
  let last : SpeechResponse := { id := 1, type := respFinish, result := 0 }
  [.call 0 (.putText (some [104]) none), .client 0, .client 0, .client 0] ++
    List.replicate 6 (.send .success) ++ List.replicate 4 (.gen .success last) ++ [.poll, .poll] ++
    List.replicate 4 (.send .success) ++ closed

/-- The object after a first session of which nothing is left. -/
def reusable : SpeechImpl := (exec step opened polledText).getD {}

theorem clean_reusable : CleanPrepare reusable .prepare := by
  intro _ _
  refine ⟨by decide +kernel, by decide +kernel, by decide +kernel, ?_⟩
  intro n
  cases n with
  | zero => rfl
  | succ n => rfl

end SpeechImpl

/-- Two sessions, everything being polled in the first one. -/
theorem session_isolation_polled :
    (∃ s, exec TtsImpl.step {} (.prepare :: TtsImpl.served 1 ++ [.poll, .poll] ++ TtsImpl.closed ++
        .prepare :: TtsImpl.served 1 ++ [.poll]) = some s ∧
      s.polled.map (fun p => (p.1, p.2.type)) = [(1, .start)] ∧ s.epoch = 1 ∧ s.Isolated) ∧
      ∃ s, exec SpeechImpl.step SpeechImpl.opened (SpeechImpl.polledText ++
          .prepare :: SpeechImpl.answeredVoice) = some s ∧
        s.log = [.startVoice 1, .result 1 (SpeechImpl.bareResult 1 .start SpeechError.success)] ∧
        s.epoch = 1 ∧ s.Isolated := by
  constructor
  · have hok : allOk TtsImpl.step TtsImpl.CleanPrepare {}
        (.prepare :: TtsImpl.served 1 ++ [.poll, .poll] ++ TtsImpl.closed ++
          .prepare :: TtsImpl.served 1 ++ [.poll]) = true := by
      decide +kernel
    refine ⟨_, rfl, by decide +kernel, by decide +kernel, ?_⟩
    exact (session_isolation _ {}).1 (Run.of_exec hok rfl)
  · have hclean : SpeechImpl.CleanPrepare {} .prepare := fun _ _ => ⟨rfl, rfl, rfl, fun _ => rfl⟩
    have hopen : Run SpeechImpl.Steps SpeechImpl.Orderly {} SpeechImpl.opened :=
      (Run.refl _).snoc ⟨hclean, rfl⟩ rfl
    have hfirst : allOk SpeechImpl.step SpeechImpl.OneSession SpeechImpl.opened
        SpeechImpl.polledText = true := by
      decide +kernel
    have hused : Run SpeechImpl.Steps SpeechImpl.Orderly {} SpeechImpl.reusable :=
      hopen.trans ((Run.of_exec hfirst rfl).mono fun _ _ hone => hone.orderly)
    have hagain : Run SpeechImpl.Steps SpeechImpl.Orderly {} SpeechImpl.reusable.prepare :=
      hused.snoc ⟨SpeechImpl.clean_reusable, rfl⟩ rfl
    have hsecond : allOk SpeechImpl.step SpeechImpl.OneSession SpeechImpl.reusable.prepare
        SpeechImpl.answeredVoice = true := by
      decide +kernel
    have hrun := hagain.trans ((Run.of_exec hsecond rfl).mono fun _ _ hone => hone.orderly)
    exact ⟨_, rfl, by decide +kernel, by decide +kernel, (session_isolation {} _).2 hrun⟩

/-- What was not polled is reported in the next session, as the result of a request that happens
    to have the same id; or it meets the result of a request with another id, and the assertion of
    `poll` fails. -/
theorem leftover_polled :
    (∃ s, Run TtsImpl.Steps Always {} s ∧ s.epoch = 1 ∧
      s.polled.map (fun p => (p.1, p.2.type)) = [(0, .cancelled)] ∧ ¬ s.Isolated) ∧
      (∃ s, Run TtsImpl.Steps Always {} s ∧ s.epoch = 2 ∧ s.aborted = true ∧ ¬ s.Isolated) ∧
      ∃ s, Run SpeechImpl.Steps Always {} s ∧ s.epoch = 1 ∧ ¬ s.Isolated := by
  refine ⟨?_, ?_, ?_⟩
  · have hok : allOk TtsImpl.step Always {} ([.prepare, .call 0 (.speak "a"), .client 0,
        .call 0 (.cancel 1), .client 0, .send .success] ++ TtsImpl.closed ++
        [.prepare, .poll]) = true := by
      decide +kernel
    refine ⟨_, Run.of_exec hok rfl, by decide +kernel, by decide +kernel, ?_⟩
    intro h
    have hle := h.polled _ List.mem_cons_self
    revert hle
    decide +kernel
  · have hok : allOk TtsImpl.step Always {} (.prepare :: TtsImpl.served 1 ++ [.poll, .poll] ++
        TtsImpl.served 2 ++ TtsImpl.closed ++ .prepare :: TtsImpl.served 1 ++ [.poll]) = true := by
      decide +kernel
    refine ⟨_, Run.of_exec hok rfl, by decide +kernel, by decide +kernel, ?_⟩
    intro h
    have hrunning := h.running
    revert hrunning
    decide +kernel
  · have hok : allOk SpeechImpl.step Always {} (.prepare :: [.call 0 (.putText (some [104]) none),
        .client 0, .client 0, .client 0, .call 0 (.cancel 1), .client 0, .send .success,
        .send .success, .send .success, .send .success, .send .success] ++ SpeechImpl.closed ++
        [.prepare, .poll]) = true := by
      decide +kernel
    refine ⟨_, Run.of_exec hok rfl, by decide +kernel, ?_⟩
    intro h
    have hle := h.polled _ _ List.mem_cons_self
    revert hle
    decide +kernel

end OpenVoice
