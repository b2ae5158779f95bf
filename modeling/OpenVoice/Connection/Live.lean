import OpenVoice.Connection.Closed

/-!
# READY

While the stage is READY and nobody holds `stage_mutex_`, `ws_` is the socket the server has
accepted, unless a response is accepted for a socket that has been given up, or a socket ends on
its own (`ready_without_socket`).
-/

namespace OpenVoice

open OpenVoice.Lib

namespace SpeechConnection

namespace Link

/-- READY comes with the socket that was accepted.  The keepalive thread may hold `stage_mutex_`
    while the socket is lost. -/
def Live (c : Link) : Prop :=
  c.stage = .ready →
    (∃ w, c.ws = some w ∧ c.accepted = some w) ∨ c.kept = true ∧ c.work.losing = true

/-- What a run must not do. -/
structure Vouched (c : Link) (l : Label) : Prop where
  accept : l = .work → ∀ w msg, c.work = .authResult w msg → msg.accepted = true → c.ws = some w
  lose : l = .lose → c.stage = .ready → c.kept = true
  rest : l = .rest → c.work.losing = false

variable {c c' : Link} {l : Label}

theorem kept_of_free (h : c.free = true) : c.kept = false := by
  simp only [free, decide_eq_true_eq] at h
  exact h.2.2

theorem disconnect_not_ready (c : Link) : c.disconnect.stage ≠ .ready := by
  unfold disconnect
  split
  · rename_i h
    rcases h with h | h
    · simp [h]
    · simp [h]
  · simp

/-- The socket is there when somebody else can take `stage_mutex_`. -/
theorem Live.socket (h : c.Live) (hready : c.stage = .ready) (hfree : c.free = true) :
    ∃ w, c.ws = some w ∧ c.accepted = some w := by
  rcases h hready with hws | ⟨hkept, -⟩
  · exact hws
  · rw [kept_of_free hfree] at hkept
    cases hkept

end Link

/-- A thread that has lost the socket goes on to set the stage to DISCONN. -/
theorem Passes.losing {pc pc' : WorkPc} (h : Passes .ready pc pc') (hpc : pc.losing = true) :
    pc'.losing = true := by
  cases h with
  | idle h => cases h
  | «over» h => cases h
  | notPaused h => rfl
  | notClosed h => rfl
  | pushError => rfl
  | testReady => rfl
  | reconnTp => rfl
  | _ => cases hpc

namespace Link

variable {c c' : Link} {l : Label}

/-- **One move.** -/
theorem Live.move (h : c.Live) (hok : c.Vouched l) (hmove : Move c l c') : c'.Live := by
  intro hready
  cases hmove with
  | stay => exact h hready
  | prepare hidle => cases hready
  | proceed hdone => exact h hready
  | close hl hpc hfree hws => cases hready
  | hangUp hws => exact absurd hready (disconnect_not_ready c)
  | want hfree hstage => cases hready
  | lock hfree hpc => exact .inl (h.socket hready hfree)
  | exit hpc hstage => cases hstage.symm.trans hready
  | connect hpc hstage => cases hready
  | deadlock hpc hstage => cases hready
  | unlock hpc hstage hpc' =>
      rcases h hready with hws | ⟨-, hlosing⟩
      · exact .inl hws
      · rw [hpc] at hlosing
        cases hlosing
  | pass hpass =>
      have hstage : c.stage = .ready := hready
      rcases h hready with hws | ⟨hkept, hlosing⟩
      · exact .inl hws
      · rw [hstage] at hpass
        exact .inr ⟨hkept, hpass.losing hlosing⟩
  | connected hfree hpc hstage => cases hready
  | accept hl hfree hpc hacc => exact .inl ⟨_, hok.accept hl _ _ hpc hacc, rfl⟩
  | hangUpPass hfree hws hpass => exact absurd hready (disconnect_not_ready c)
  | lose hl hpc => exact .inr ⟨hok.lose hl hready, rfl⟩
  | disconn hpc => cases hready
  | keep hfree => exact .inl (h.socket hready hfree)
  | pause hkept hstage hws => cases hready
  | unkeep hkept hstage => exact absurd hready hstage
  | rest hl hkept hstage =>
      rcases h hready with hws | ⟨-, hlosing⟩
      · exact .inl hws
      · exact absurd (hlosing.symm.trans (hok.rest hl)) (by decide)

end Link

/-! ### Every run -/

/-- A response is accepted for the socket in `ws_`; a socket ends on its own only while the stage
    is not READY or while the keepalive thread holds `stage_mutex_`; and that thread then does not
    go to wait before the stage is DISCONN. -/
def vouched (s : SpeechConnection) : ConnectionAct → Bool
  | .work _ =>
      match s.work with
      | .authResult w msg => !msg.accepted || s.ws = some w
      | _ => true
  | .hub (.disconnected _) => s.stage ≠ .ready || s.keepalive = .locked
  | .keepalive =>
      s.keepalive ≠ .locked || s.stage ≠ .ready || s.noResponse || s.noVoice || !s.work.losing
  | _ => true

def Vouched (s : SpeechConnection) (a : ConnectionAct) : Prop := s.vouched a = true

instance (s : SpeechConnection) (a : ConnectionAct) : Decidable (Vouched s a) :=
  inferInstanceAs (Decidable (_ = true))

variable {s : SpeechConnection}

/-- What the condition says about the link. -/
theorem Vouched.link {a : ConnectionAct} (h : Vouched s a) : s.link.Vouched (s.label a) where
  accept := by
    intro hl w msg hpc hacc
    cases a with
    | work fails =>
        have hpc' : s.work = .authResult w msg := WorkPc.of_forget hpc (by simp)
        have hws : s.ws = some w := by
          simpa [Vouched, vouched, hpc', hacc] using h
        exact hws
    | release =>
        simp only [label] at hl
        split at hl
        · cases hl
        · cases hl
    | hub e => cases e <;> cases hl
    | keepalive =>
        simp only [label] at hl
        split at hl
        · cases hl
        · cases hl
    | _ => cases hl
  lose := by
    intro hl hready
    cases a with
    | hub e =>
        cases e with
        | disconnected w =>
            have hstage : s.stage = .ready := hready
            have hlocked : s.keepalive = .locked := by
              simpa [Vouched, vouched, hstage] using h
            simp [SpeechConnection.link, hlocked, KeepalivePc.holds]
        | _ => cases hl
    | release =>
        simp only [label] at hl
        split at hl
        · cases hl
        · cases hl
    | keepalive =>
        simp only [label] at hl
        split at hl
        · cases hl
        · cases hl
    | _ => cases hl
  rest := by
    intro hl
    cases a with
    | keepalive =>
        simp only [label] at hl
        split at hl
        · rename_i hrest
          obtain ⟨hlocked, hstage, hresp, hvoice⟩ := hrest
          have hlosing : s.work.losing = false := by
            simpa [Vouched, vouched, hlocked, hstage, hresp, hvoice] using h
          exact s.work.forget_losing.trans hlosing
        · cases hl
    | release =>
        simp only [label] at hl
        split at hl
        · cases hl
        · cases hl
    | hub e => cases e <;> cases hl
    | _ => cases hl

/-- **READY means a live socket** in every run that meets the condition. -/
theorem ready_live {s : SpeechConnection} (hrun : Run Steps Vouched {} s)
    (hfree : s.stageFree = true) (hready : s.stage = .ready) :
    ∃ w, s.ws = some w ∧ s.accepted = some w := by
  have hstep : ∀ t a u, t.link.Live → Vouched t a → Steps t a u → u.link.Live :=
    fun t a u h hok hst => h.move hok.link (step_move hst)
  have hopen : ({} : SpeechConnection).link.Live := fun h => by cases h
  have hlive := hrun.invariant hstep hopen
  exact hlive.socket hready (by rwa [link_free])

/-! ### Runs -/

theorem ready_live_accepted :
    ∃ s, exec step {} (answered ++ [.work false]) = some s ∧ s.stage = .ready ∧
      ∃ w, s.ws = some w ∧ s.accepted = some w := by
  have hok : allOk step Vouched {} (answered ++ [.work false]) = true := by
    decide +kernel
  exact ⟨_, rfl, rfl, ready_live (Run.of_exec hok rfl) (by decide +kernel) rfl⟩

/-- `reconn` gives the socket up before its authorization is accepted; or the server ends the
    connection, and `ws_` is null before the stage is DISCONN. -/
theorem ready_without_socket :
    (∃ s, exec step {} (answered ++ [.reconn, .work false]) = some s ∧
      s.stageFree = true ∧ s.stage = .ready ∧ s.ws = none) ∧
    ∃ s, exec step {} (answered ++ [.work false, .hub (.disconnected 0)]) = some s ∧
      s.stageFree = true ∧ s.stage = .ready ∧ s.ws = none := by
  constructor
  · exact ⟨_, rfl, by decide +kernel, rfl, rfl⟩
  · exact ⟨_, rfl, by decide +kernel, rfl, rfl⟩

end SpeechConnection

end OpenVoice
