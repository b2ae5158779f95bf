import OpenVoice.Connection.Refinement

/-!
# CLOSED

`release` closes the connection for good, unless a handler has tested the stage before and writes
it afterwards (`closed_overwritten`).
-/

namespace OpenVoice

open OpenVoice.Lib

namespace SpeechConnection

/-- A test that finds the stage CLOSED leads to no write. -/
theorem Passes.late {pc pc' : WorkPc} (h : Passes .closed pc pc') (hpc : pc.late = false) :
    pc'.late = false ∧ pc' ≠ .deadlock := by
  cases h with
  | authorizing h => cases h
  | data h => cases h
  | notClosed h => exact absurd rfl h
  | errorOpen h => exact absurd rfl h
  | pushError => cases hpc
  | testReady => cases hpc
  | reconnTp => cases hpc
  | failed h =>
      rcases h with rfl | rfl
      · exact ⟨rfl, by decide⟩
      · exact ⟨rfl, by decide⟩
  | _ => exact ⟨rfl, by simp⟩

/-- The work thread exits at the head of its loop only. -/
theorem Passes.ne_done {stage : ConnectStage} {pc pc' : WorkPc} (h : Passes stage pc pc') :
    pc' ≠ .done := by
  cases h with
  | failed h =>
      rcases h with rfl | rfl
      · simp
      · simp
  | _ => simp

namespace Link

/-- The connection that has been closed stays closed. -/
def Shut (c : Link) : Prop :=
  c.released = true → c.stage = .closed ∧ c.work.late = false ∧ c.work ≠ .deadlock

/-- `release` waits for a thread that does not exit. -/
structure Hung (c : Link) : Prop where
  joining : c.releasing = .joinWork
  running : c.work ≠ .done
  stage : c.stage ≠ .closed

variable {c c' : Link} {l : Label}

theorem ne_deadlock_of_free (h : c.free = true) : c.work ≠ .deadlock := by
  simp only [free, decide_eq_true_eq] at h
  exact h.2.1

/-- **One move.** -/
theorem Shut.move (h : c.Shut) (hok : l = .close → c.work.late = false) (hmove : Move c l c') :
    c'.Shut := by
  intro hrel
  cases hmove with
  | stay => exact h hrel
  | prepare hidle => cases hrel
  | proceed hdone => exact h hrel
  | close hl hpc hfree hws => exact ⟨rfl, hok hl, ne_deadlock_of_free hfree⟩
  | hangUp hws =>
      rw [disconnect_released] at hrel
      obtain ⟨hstage, hlate, hdead⟩ := h hrel
      rw [disconnect_of_idle (.inr hstage)]
      exact ⟨hstage, hlate, hdead⟩
  | want hfree hstage => cases (h hrel).1.symm.trans hstage
  | lock hfree hpc => exact ⟨(h hrel).1, rfl, by simp⟩
  | exit hpc hstage => exact ⟨hstage, rfl, by simp⟩
  | connect hpc hstage => cases (h hrel).1.symm.trans hstage
  | deadlock hpc hstage => cases (h hrel).1.symm.trans hstage
  | unlock hpc hstage hpc' => exact absurd (h hrel).1 hstage
  | pass hpass =>
      obtain ⟨hstage, hlate, -⟩ := h hrel
      rw [hstage] at hpass
      exact ⟨hstage, Passes.late hpass hlate⟩
  | connected hfree hpc hstage => exact absurd (.inl (h hrel).1) hstage
  | accept hl hfree hpc hacc =>
      -- the response is accepted: the thread was late
      have hlate := (h hrel).2.1
      rw [hpc] at hlate
      exact absurd (hacc.symm.trans hlate) (by decide)
  | hangUpPass hfree hws hpass =>
      have hrel' : c.released = true := by
        rw [← disconnect_released]
        exact hrel
      obtain ⟨hstage, hlate, -⟩ := h hrel'
      rw [hstage] at hpass
      rw [disconnect_of_idle (.inr hstage)]
      exact ⟨hstage, Passes.late hpass hlate⟩
  | lose hl hpc => exact ⟨(h hrel).1, rfl, by simp⟩
  | disconn hpc =>
      have hlate := (h hrel).2.1
      rcases hpc with hpc | hpc
      · rw [hpc] at hlate
        cases hlate
      · rw [hpc] at hlate
        cases hlate
  | keep hfree => exact h hrel
  | pause hkept hstage hws => cases (h hrel).1.symm.trans hstage
  | unkeep hkept hstage => exact h hrel
  | rest hl hkept hstage => exact h hrel

/-- Nobody but `release` closes the connection, and the work thread exits when it is closed. -/
theorem Hung.move (h : c.Hung) (hmove : Move c l c') : c'.Hung := by
  have hdisc : c.disconnect.Hung := by
    unfold disconnect
    split
    · exact ⟨h.joining, h.running, h.stage⟩
    · exact ⟨h.joining, h.running, by simp⟩
  cases hmove with
  | stay => exact h
  | prepare hidle => cases h.joining.symm.trans hidle
  | proceed hdone => exact absurd (hdone h.joining) h.running
  | close hl hpc hfree hws => cases h.joining.symm.trans hpc
  | hangUp hws => exact hdisc
  | hangUpPass hfree hws hpass => exact ⟨hdisc.joining, hpass.ne_done, hdisc.stage⟩
  | lock hfree hpc => exact ⟨h.joining, by simp, h.stage⟩
  | exit hpc hstage => exact absurd hstage h.stage
  | deadlock hpc hstage => exact ⟨h.joining, by simp, by simp⟩
  | unlock hpc hstage hpc' =>
      refine ⟨h.joining, ?_, h.stage⟩
      rcases hpc' with rfl | rfl <;> simp
  | pass hpass => exact ⟨h.joining, hpass.ne_done, h.stage⟩
  | connected hfree hpc hstage => exact ⟨h.joining, by simp, by simp⟩
  | accept hl hfree hpc hacc => exact ⟨h.joining, by simp, by simp⟩
  | lose hl hpc => exact ⟨h.joining, by simp, h.stage⟩
  | disconn hpc => exact ⟨h.joining, by simp, by simp⟩
  | want hfree hstage => exact ⟨h.joining, h.running, by simp⟩
  | connect hpc hstage => exact ⟨h.joining, h.running, by simp⟩
  | pause hkept hstage hws => exact ⟨h.joining, h.running, by simp⟩
  | keep hfree => exact ⟨h.joining, h.running, h.stage⟩
  | unkeep hkept hstage => exact ⟨h.joining, h.running, h.stage⟩
  | rest hl hkept hstage => exact ⟨h.joining, h.running, h.stage⟩

end Link

/-! ### The work thread exits -/

/-- The connection is closed, and no handler is about to open it again. -/
structure Leaving (s : SpeechConnection) : Prop where
  alive : s.crashed = false
  stage : s.stage = .closed
  late : s.work.late = false
  free : s.work ≠ .deadlock

/-- How many steps the work thread is from `hub_.run()`, or from its end. -/
def WorkPc.steps : WorkPc → Nat
  | .done => 0
  | .locked => 1
  | .relock | .waiting _ => 2
  | .running => 3
  | .recvTp _ | .testPaused | .errorReconnTp => 5
  | .errorPush => 6
  | _ => 4

/-- What is left to do before the work thread exits. -/
def left (s : SpeechConnection) : Nat :=
  20 * (s.attempts + s.sockets.length) + 2 * s.work.steps +
    if s.keepalive = .locked then 1 else 0

variable {s : SpeechConnection}

theorem step_of_alive (h : s.crashed = false) (fails : Bool) (e : HubEvent) :
    s.step (.work fails) = s.workStep fails ∧ s.step (.hub e) = s.hub e ∧
      s.step .keepalive = s.keepaliveStep := by
  simp [step, h]

theorem close_of_closed (h : s.stage = .closed) (w : Nat) :
    s.close w = (s.removeSocket w).setWs none :=
  onDisconnection_of_idle (s := s.removeSocket w) (.inr h)

theorem closeWs_of_closed (h : s.stage = .closed) :
    ∃ ws sockets, s.closeWs = { s with ws := ws, sockets := sockets } ∧
      sockets.length ≤ s.sockets.length := by
  unfold closeWs
  split
  · exact ⟨s.ws, s.sockets, rfl, Nat.le_refl _⟩
  · rename_i w hws
    rw [close_of_closed h w]
    exact ⟨none, s.sockets.erase w, rfl, List.erase_sublist.length_le⟩

/-- A step after which the connection is still closed and there is less to do. -/
theorem left_lt {u : SpeechConnection} (hlocked : s.keepalive ≠ .locked) (halive : u.crashed = false)
    (hstage : u.stage = .closed) (hlate : u.work.late = false) (hdead : u.work ≠ .deadlock)
    (hkeep : u.keepalive ≠ .locked)
    (hless : 20 * (u.attempts + u.sockets.length) + 2 * u.work.steps <
      20 * (s.attempts + s.sockets.length) + 2 * s.work.steps) :
    u.crashed = true ∨ u.Leaving ∧ u.left < s.left := by
  refine .inr ⟨⟨halive, hstage, hlate, hdead⟩, ?_⟩
  unfold left
  rw [if_neg hkeep, if_neg hlocked]
  omega

/-- In `hub_.run()` the attempts fail, the sockets end, and the call returns. -/
theorem Leaving.hub_progress (h : s.Leaving) (hpc : s.work = .running)
    (hlocked : s.keepalive ≠ .locked) :
    ∃ a t, s.step a = some t ∧ (t.crashed = true ∨ t.Leaving ∧ t.left < s.left) := by
  obtain ⟨halive, hstage, -, -⟩ := h
  have hhub : ∀ e, s.step (.hub e) = s.hub e := fun e => (step_of_alive halive false e).2.1
  rcases Nat.eq_zero_or_pos s.attempts with hatt | hatt
  · cases hsock : s.sockets with
    | nil =>
        refine ⟨.hub .finished, s.setWork .relock, ?_,
          left_lt hlocked halive hstage rfl (by simp [setWork]) hlocked ?_⟩
        · rw [hhub]
          simp [hub, hpc, hatt, hsock]
        · simp [setWork, hpc, WorkPc.steps]
    | cons w ws =>
        refine ⟨.hub (.disconnected w), ((s.removeSocket w).setWs none).setWork .testPaused,
          ?_, left_lt hlocked halive hstage rfl (by simp [setWork]) hlocked ?_⟩
        · rw [hhub]
          simp [hub, hpc, hsock]
        · simp [setWork, setWs, removeSocket, hpc, hsock, WorkPc.steps]
          omega
  · refine ⟨.hub .failed, ({ s with attempts := s.attempts - 1 } : SpeechConnection).setWork
        (if s.ws.isSome then .errorClose else .errorPush), ?_,
      left_lt hlocked halive hstage ?_ ?_ hlocked ?_⟩
    · rw [hhub]
      simp only [hub, if_pos hpc, if_neg (Nat.ne_of_gt hatt)]
    · simp only [setWork]
      split <;> rfl
    · simp only [setWork]
      split <;> simp
    · have hsteps : (if s.ws.isSome then WorkPc.errorClose else .errorPush).steps ≤ 6 := by
        split <;> decide
      simp only [setWork]
      omega

/-- **Somebody can take a step** that brings the work thread closer to its end. -/
theorem Leaving.progress (h : s.Leaving) (hdone : s.work ≠ .done) :
    ∃ a t, s.step a = some t ∧ (t.crashed = true ∨ t.Leaving ∧ t.left < s.left) := by
  have hleaving := h
  obtain ⟨halive, hstage, hlate, hdead⟩ := h
  obtain ⟨hwork, -, hkeep⟩ := step_of_alive halive false .connected
  -- the keepalive thread leaves its critical section first
  rcases Decidable.em (s.keepalive = .locked) with hlocked | hlocked
  · refine ⟨.keepalive, s.setKeepalive .done, ?_, .inr ⟨⟨halive, hstage, hlate, hdead⟩, ?_⟩⟩
    · rw [hkeep]
      simp [keepaliveStep, hlocked, keepaliveRun, hstage]
    · simp [left, setKeepalive, hlocked]
  · have hfree : s.work ≠ .locked → s.stageFree = true := by
      intro hne
      simp [stageFree, hne, hdead, hlocked]
    have hgo := fun u : SpeechConnection => left_lt (u := u) hlocked
    cases hpc : s.work with
    | done => exact absurd hpc hdone
    | deadlock => exact absurd hpc hdead
    | locked =>
        refine ⟨.work false, s.setWork .done, ?_, hgo _ halive hstage rfl (by simp [setWork]) hlocked ?_⟩
        · rw [hwork]
          simp [workStep, hpc, run, hstage]
        · simp [setWork, hpc, WorkPc.steps]
    | relock =>
        refine ⟨.work false, s.setWork .locked, ?_,
          hgo _ halive hstage rfl (by simp [setWork]) hlocked ?_⟩
        · rw [hwork]
          simp [workStep, hpc, hfree (by simp [hpc])]
        · simp [setWork, hpc, WorkPc.steps]
    | waiting w =>
        refine ⟨.work false, s.setWork .locked, ?_,
          hgo _ halive hstage rfl (by simp [setWork]) hlocked ?_⟩
        · rw [hwork]
          simp [workStep, hpc, hfree (by simp [hpc])]
        · simp [setWork, hpc, WorkPc.steps]
    | running => exact hleaving.hub_progress hpc hlocked
    | onConnection w =>
        refine ⟨.work false, (s.onConnection w).setWork .running, ?_, ?_⟩
        · rw [hwork]
          simp [workStep, hpc, hfree (by simp [hpc])]
        · have heq : s.onConnection w = s := if_pos (.inl hstage)
          rw [heq]
          exact hgo _ halive hstage rfl (by simp [setWork]) hlocked (by simp [setWork, hpc, WorkPc.steps])
    | authResult w msg =>
        rw [hpc] at hlate
        obtain ⟨ws, sockets, heq, hlen⟩ :=
          closeWs_of_closed (s := s.updateReconnTp s.options.reconnInterval) hstage
        refine ⟨.work false, ((s.updateReconnTp s.options.reconnInterval).closeWs).setWork .running,
          ?_, ?_⟩
        · rw [hwork]
          have hacc : msg.accepted = false := hlate
          simp [workStep, hpc, hfree (by simp [hpc]), onAuthResult, hacc]
        · rw [heq]
          refine hgo _ halive hstage rfl (by simp [setWork]) hlocked ?_
          have hlen' : sockets.length ≤ s.sockets.length := hlen
          simp only [setWork, updateReconnTp, hpc, WorkPc.steps]
          omega
    | errorClose =>
        cases hws : s.ws with
        | none =>
            refine ⟨.work false, { s with crashed := true }, ?_, .inl rfl⟩
            rw [hwork]
            simp [workStep, hpc, hfree (by simp [hpc]), hws]
        | some w =>
            refine ⟨.work false, (s.close w).setWork .running, ?_, ?_⟩
            · rw [hwork]
              simp [workStep, hpc, hfree (by simp [hpc]), hws]
            · rw [close_of_closed hstage w]
              refine hgo _ halive hstage rfl (by simp [setWork]) hlocked ?_
              have hlen : (s.sockets.erase w).length ≤ s.sockets.length :=
                List.erase_sublist.length_le
              simp only [setWork, setWs, removeSocket, hpc, WorkPc.steps]
              omega
    | recvTp msg =>
        exact ⟨.work false, s.updateRecvTp.setWork (.pushData msg), by rw [hwork]; simp [workStep, hpc],
          hgo _ halive hstage rfl (by simp [setWork]) hlocked
            (by simp [setWork, updateRecvTp, hpc, WorkPc.steps])⟩
    | pushData msg =>
        exact ⟨.work false, (s.pushRespData msg.data).setWork .running,
          by rw [hwork]; simp [workStep, hpc],
          hgo _ halive hstage rfl (by simp [setWork]) hlocked
            (by simp [setWork, pushRespData, hpc, WorkPc.steps])⟩
    | testPaused =>
        exact ⟨.work false, s.setWork .testClosed, by rw [hwork]; simp [workStep, hpc, hstage],
          hgo _ halive hstage rfl (by simp [setWork]) hlocked (by simp [setWork, hpc, WorkPc.steps])⟩
    | testClosed =>
        exact ⟨.work false, s.setWork .running, by rw [hwork]; simp [workStep, hpc, hstage],
          hgo _ halive hstage rfl (by simp [setWork]) hlocked (by simp [setWork, hpc, WorkPc.steps])⟩
    | errorPush =>
        exact ⟨.work false, (s.pushStatusResp .error).setWork .errorReconnTp,
          by rw [hwork]; simp [workStep, hpc],
          hgo _ halive hstage rfl (by simp [setWork]) hlocked
            (by simp [setWork, pushStatusResp, hpc, WorkPc.steps])⟩
    | errorReconnTp =>
        exact ⟨.work false, (s.updateReconnTp s.options.reconnInterval).setWork .errorTest,
          by rw [hwork]; simp [workStep, hpc],
          hgo _ halive hstage rfl (by simp [setWork]) hlocked
            (by simp [setWork, updateReconnTp, hpc, WorkPc.steps])⟩
    | errorTest =>
        exact ⟨.work false, s.setWork .running, by rw [hwork]; simp [workStep, hpc, hstage],
          hgo _ halive hstage rfl (by simp [setWork]) hlocked (by simp [setWork, hpc, WorkPc.steps])⟩
    | notify =>
        have hkeep' : s.keepalive.notified ≠ .locked := by
          cases hk : s.keepalive with
          | locked => exact absurd hk hlocked
          | _ => simp [KeepalivePc.notified]
        exact ⟨.work false, s.notifyAll.setWork .running, by rw [hwork]; simp [workStep, hpc],
          hgo _ halive hstage rfl (by simp [setWork]) hkeep'
            (by simp [setWork, notifyAll, hpc, WorkPc.steps])⟩
    | pushError | testReady | reconnTp ms | setDisconn | errorDisconn =>
        rw [hpc] at hlate
        cases hlate

/-- From a connection that is closed the work thread can get to its end. -/
theorem Leaving.exits (h : s.Leaving) :
    ∃ t, Run Steps Always s t ∧ (t.work = .done ∨ t.crashed = true) := by
  have hall : ∀ n (u : SpeechConnection), u.Leaving → u.left ≤ n →
      ∃ t, Run Steps Always u t ∧ (t.work = .done ∨ t.crashed = true) := by
    intro n
    induction n with
    | zero =>
        intro u hu hn
        refine ⟨u, .refl _, .inl ?_⟩
        by_contra hdone
        obtain ⟨a, t, hst, hcrash | ⟨hleave, hlt⟩⟩ := hu.progress hdone
        · cases hpc : u.work with
          | done => exact hdone hpc
          | _ => simp [left, hpc, WorkPc.steps] at hn
        · omega
    | succ n ih =>
        intro u hu hn
        rcases Decidable.em (u.work = .done) with hdone | hdone
        · exact ⟨u, .refl _, .inl hdone⟩
        · obtain ⟨a, t, hst, hcrash | ⟨hleave, hlt⟩⟩ := hu.progress hdone
          · exact ⟨t, .snoc (.refl _) trivial hst, .inr hcrash⟩
          · obtain ⟨v, hrun, hv⟩ := ih t hleave (by omega)
            have hfirst : Run Steps Always u t := .snoc (.refl _) trivial hst
            exact ⟨v, hfirst.trans hrun, hv⟩
  exact hall s.left s h (Nat.le_refl _)

/-! ### Every run -/

/-- `release` does not close the connection between the last test of the stage in a handler and
    the write that follows. -/
def settled (s : SpeechConnection) : ConnectionAct → Bool
  | .release => s.releasing ≠ .closing || !s.work.late
  | _ => true

def Settled (s : SpeechConnection) (a : ConnectionAct) : Prop := s.settled a = true

instance (s : SpeechConnection) (a : ConnectionAct) : Decidable (Settled s a) :=
  inferInstanceAs (Decidable (_ = true))

/-- What the condition says about the link. -/
theorem Settled.label {a : ConnectionAct} (h : Settled s a) (hl : s.label a = .close) :
    s.link.work.late = false := by
  cases a with
  | release =>
      have hpc : s.releasing = .closing := by
        by_contra hne
        simp [SpeechConnection.label, hne] at hl
      have hlate : s.work.late = false := by
        simpa [Settled, settled, hpc] using h
      exact s.work.forget_late.trans hlate
  | hub e => cases e <;> cases hl
  | keepalive =>
      simp only [SpeechConnection.label] at hl
      split at hl
      · cases hl
      · cases hl
  | _ => cases hl

/-- **CLOSED is absorbing** in every run in which `release` closes the connection while no handler
    is about to write the stage; and the work thread can always exit. -/
theorem closed_absorbing {s : SpeechConnection} (hrun : Run Steps Settled {} s)
    (hrel : s.released = true) :
    s.stage = .closed ∧
      (∀ fails t, s.work = .locked → s.step (.work fails) = some t → t.work = .done) ∧
      ∃ t, Run Steps Always s t ∧ (t.work = .done ∨ t.crashed = true) := by
  have hstep : ∀ t a u, t.link.Shut → Settled t a → Steps t a u → u.link.Shut :=
    fun t a u h hok hst => h.move hok.label (step_move hst)
  have hopen : ({} : SpeechConnection).link.Shut := fun h => by cases h
  have hshut := hrun.invariant hstep hopen
  obtain ⟨hstage, hlate, hdead⟩ := hshut hrel
  refine ⟨hstage, ?_, ?_⟩
  · intro fails t hpc hst
    have hstage' : s.stage = .closed := hstage
    unfold step workStep run at hst
    split at hst
    · cases hst
    · simp only [hpc, hstage'] at hst
      cases hst
      rfl
  · cases hcrash : s.crashed with
    | true => exact ⟨s, .refl _, .inr hcrash⟩
    | false =>
        have hlate' : s.work.late = false := by
          rw [← s.work.forget_late]
          exact hlate
        have hdead' : s.work ≠ .deadlock := by
          intro h
          exact hdead (by rw [show s.link.work = s.work.forget from rfl, h]; rfl)
        exact Leaving.exits ⟨hcrash, hstage, hlate', hdead'⟩

/-! ### Runs -/

/-- The options of a client that can be authorized. -/
def clientOptions : PrepareOptions :=
  { key := ascii "k", deviceTypeId := ascii "t", deviceId := ascii "d", secret := ascii "s" }

/-- The server accepts. -/
def acceptance : Message := { data := [], authResult := some 0 }

/-- A connection is made and its authorization is answered; the answer waits for
    `stage_mutex_`. -/
def answered : List ConnectionAct :=
  [.prepare clientOptions, .send 0 (some [1]) 0, .sender 0 false, .work false, .work false,
    .work false, .hub .connected, .work false, .hub (.message 0 acceptance)]

theorem closed_absorbing_ready :
    ∃ s, exec step {} (answered ++ [.work false, .release, .release]) = some s ∧
      s.released = true ∧ s.stage = .closed := by
  have hok : allOk step Settled {} (answered ++ [.work false, .release, .release]) = true := by
    decide +kernel
  exact ⟨_, rfl, rfl, (closed_absorbing (Run.of_exec hok rfl) rfl).1⟩

/-- The answer is handled after `release` has closed the connection: `release` never returns. -/
theorem closed_overwritten :
    ∃ s, Run Steps Always {} s ∧ s.released = true ∧ s.stage = .ready ∧
      ∀ t, Run Steps Always s t → t.releasing = .joinWork ∧ t.work ≠ .done := by
  have hok : allOk step Always {} (answered ++ [.release, .release, .work false]) = true := by
    decide +kernel
  refine ⟨_, Run.of_exec hok rfl, rfl, rfl, ?_⟩
  intro t hrun
  have hstep : ∀ t a u, t.link.Hung → Always t a → Steps t a u → u.link.Hung :=
    fun t a u h _ hst => h.move (step_move hst)
  have hhung := hrun.invariant hstep ⟨rfl, by decide +kernel, by decide +kernel⟩
  refine ⟨hhung.joining, ?_⟩
  intro hdone
  exact hhung.running (by rw [show t.link.work = t.work.forget from rfl, hdone]; rfl)

end SpeechConnection

end OpenVoice
