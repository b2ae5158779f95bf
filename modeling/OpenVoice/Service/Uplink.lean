import OpenVoice.Connection.Uplink
import OpenVoice.Service.Listening

/-!
# From the requests of a client to the frames the server reads

A client hands its requests to `connection_.send` one by one.  A request waits there until the
stage is READY, and is written if there is a socket.  The frames written are the requests for which
`send` has returned SUCCESS, in the same order, but for those whose socket was taken away at the
last moment.
-/

namespace OpenVoice

open OpenVoice.Lib

/-- Where a client is with a request. -/
inductive Phase (τ : Type) where
  | away
  /-- in `connection_.send`, which has not found the connection available yet -/
  | sending (r : τ)
  /-- in `connection_.send`, which has -/
  | writing (r : τ)

/-- A step of `send_reqs`, in which `connection_.send` returns `res`: what becomes of the request,
    and of the requests for which SUCCESS was returned. -/
inductive Speaks {τ : Type} (request : Option τ) (res : ConnectionOpResult) (p : Phase τ)
    (l : List τ) (p' : Phase τ) (l' : List τ) : Prop where
  | idle (hp : p = .away) (hreq : request = none) (hp' : p' = .away) (hl : l' = l) :
      Speaks request res p l p' l'
  | hand {r : τ} (hp : p = .away) (hreq : request = some r) (hp' : p' = .sending r) (hl : l' = l) :
      Speaks request res p l p' l'
  | pass {r : τ} (hp : p = .sending r) (hres : res = .success) (hp' : p' = .writing r)
      (hl : l' = l) : Speaks request res p l p' l'
  | fail {r : τ} (hp : p = .sending r) (hres : res ≠ .success) (hp' : p' = .away) (hl : l' = l) :
      Speaks request res p l p' l'
  | finish {r : τ} (hp : p = .writing r) (hp' : p' = .away) (hl : l' = l ++ [r]) :
      Speaks request res p l p' l'

/-- The request in hand. -/
def Phase.hand {τ : Type} : Phase τ → List τ
  | .away => []
  | .sending r | .writing r => [r]

/-- No request is sent that was not handed over, or sent twice. -/
theorem Speaks.sublist {τ : Type} {request : Option τ} {res : ConnectionOpResult} {p p' : Phase τ}
    {l l' : List τ} (h : Speaks request res p l p' l') :
    (l' ++ p'.hand).Sublist (l ++ p.hand ++ request.toList) := by
  cases h with
  | idle hp hreq hp' hl =>
      subst hp hreq hp' hl
      simp [Phase.hand]
  | hand hp hreq hp' hl =>
      subst hp hreq hp' hl
      simp [Phase.hand]
  | pass hp hres hp' hl =>
      subst hp hp' hl
      simp [Phase.hand]
  | fail hp hres hp' hl =>
      subst hp hp' hl
      simp [Phase.hand]
  | finish hp hp' hl =>
      subst hp hp' hl
      simp [Phase.hand]

/-- How a client sends its requests, in a session.  `request` is the one it hands to
    `connection_.send` next; `sent` are those for which SUCCESS was returned.  By the events that
    are observed its requests can be followed. -/
structure Speaker {σ α ρ E : Type} (C : ServiceClient σ α ρ E) (τ ε : Type) where
  ok : σ → α → Prop
  observe : σ → α → List ε
  request : σ → Option τ
  phase : σ → Phase τ
  sent : σ → List τ
  /-- `SerializeToString` -/
  serialize : τ → Option Bytes
  session : ∀ s, ¬ ok s C.prepare
  ok_called : ∀ s {a}, C.role a ≠ .prepare → C.role a ≠ .other → ok s a
  quiet_tick : ∀ s ns, observe s (C.tick ns) = []
  quiet_gen : ∀ {s}, C.receives s = true → ∀ r resp, observe s (C.gen r resp) = []
  quiet_send : ∀ {s}, C.sends s ≠ none → ∀ r, observe s (C.send r) = []
  requests : ∀ s, C.requests s = none ↔ request s = none
  others : ∀ {s a t}, C.step s a = some t → C.role a ≠ .prepare → C.role a ≠ .send →
    phase t = phase s ∧ sent t = sent s
  sends : ∀ s, C.sends s = none ↔ phase s = .away
  request_away : ∀ {s r}, request s = some r → phase s = .away
  send_only : ∀ {a}, C.role a = .send → ∃ res, a = C.send res
  speaks : ∀ {s t res}, C.step s (C.send res) = some t →
    Speaks (request s) res (phase s) (sent s) (phase t) (sent t)

namespace Speaker

variable {σ α ρ E τ ε : Type} {C : ServiceClient σ α ρ E} (S : Speaker C τ ε) {s t : σ} {r : τ}
  {res : ConnectionOpResult}

theorem alone {a : α} (hst : C.step s a = some t) (hrole : C.role a = .send)
    (hreq : C.requests s = none) (haway : S.phase s = .away) :
    S.phase t = .away ∧ S.sent t = S.sent s := by
  obtain ⟨res, rfl⟩ := S.send_only hrole
  have hnone := (S.requests s).mp hreq
  cases S.speaks hst with
  | idle hp hreq' hp' hl => exact ⟨hp', hl⟩
  | hand hp hreq' hp' hl =>
      rw [hnone] at hreq'
      cases hreq'
  | pass hp hres hp' hl =>
      rw [haway] at hp
      cases hp
  | fail hp hres hp' hl =>
      rw [haway] at hp
      cases hp
  | finish hp hp' hl =>
      rw [haway] at hp
      cases hp

theorem hands (hst : C.step s (C.send res) = some t) (hreq : S.request s = some r) :
    S.phase t = .sending r ∧ S.sent t = S.sent s := by
  cases S.speaks hst with
  | idle hp hreq' hp' hl =>
      rw [hreq] at hreq'
      cases hreq'
  | hand hp hreq' hp' hl =>
      rw [hreq] at hreq'
      cases hreq'
      exact ⟨hp', hl⟩
  | pass hp hres hp' hl =>
      rw [S.request_away hreq] at hp
      cases hp
  | fail hp hres hp' hl =>
      rw [S.request_away hreq] at hp
      cases hp
  | finish hp hp' hl =>
      rw [S.request_away hreq] at hp
      cases hp

theorem passes (hst : C.step s (C.send .success) = some t) (hphase : S.phase s = .sending r) :
    S.phase t = .writing r ∧ S.sent t = S.sent s := by
  cases S.speaks hst with
  | idle hp hreq hp' hl =>
      rw [hphase] at hp
      cases hp
  | hand hp hreq hp' hl =>
      rw [hphase] at hp
      cases hp
  | pass hp hres hp' hl =>
      rw [hphase] at hp
      cases hp
      exact ⟨hp', hl⟩
  | fail hp hres hp' hl => exact absurd rfl hres
  | finish hp hp' hl =>
      rw [hphase] at hp
      cases hp

theorem fails (hst : C.step s (C.send res) = some t) (hphase : S.phase s = .sending r)
    (hres : res ≠ .success) : S.phase t = .away ∧ S.sent t = S.sent s := by
  cases S.speaks hst with
  | idle hp hreq hp' hl =>
      rw [hphase] at hp
      cases hp
  | hand hp hreq hp' hl =>
      rw [hphase] at hp
      cases hp
  | pass hp hres' hp' hl => exact absurd hres' hres
  | fail hp hres' hp' hl => exact ⟨hp', hl⟩
  | finish hp hp' hl =>
      rw [hphase] at hp
      cases hp

theorem returns (hst : C.step s (C.send res) = some t) (hphase : S.phase s = .writing r) :
    S.phase t = .away ∧ S.sent t = S.sent s ++ [r] := by
  cases S.speaks hst with
  | idle hp hreq hp' hl =>
      rw [hphase] at hp
      cases hp
  | hand hp hreq hp' hl =>
      rw [hphase] at hp
      cases hp
  | pass hp hres hp' hl =>
      rw [hphase] at hp
      cases hp
  | fail hp hres hp' hl =>
      rw [hphase] at hp
      cases hp
  | finish hp hp' hl =>
      rw [hphase] at hp
      cases hp
      exact ⟨hp', hl⟩

end Speaker

section

open SpeechConnection

variable {τ : Type}

/-! ### The client and its call of `send` -/

/-- Where the call is, when the client is there. -/
def Phase.Fits (serialize : τ → Option Bytes) (pc : SendPc) : Phase τ → Prop
  | .away => pc.buf = none
  | .sending r => pc.past = false ∧ pc ≠ .returned .success ∧ ∀ b, pc.buf = some b →
      serialize r = some b
  | .writing r => pc = .returned .success ∨ pc.past = true ∧ pc.buf = serialize r

/-- The request that has been written, or dropped, when the client has not been told yet. -/
def Phase.done (pc : SendPc) : Phase τ → List τ
  | .writing r => if pc = .returned .success then [r] else []
  | .away | .sending _ => []

theorem Phase.done_sublist (pc : SendPc) (phase : Phase τ) : (phase.done pc).Sublist phase.hand := by
  unfold Phase.done
  cases phase with
  | away => exact .slnil
  | sending r => exact List.nil_sublist _
  | writing r =>
      simp only
      split
      · exact .refl _
      · exact List.nil_sublist _

/-- **What the server can read.**  `steady` says that no socket was taken away between the test of
    the stage and `ws_->send`. -/
structure Coupled (serialize : τ → Option Bytes) (steady : Prop) (c : SpeechConnection)
    (phase : Phase τ) (sent : List τ) : Prop where
  fits : phase.Fits serialize (c.senders 0)
  sound : ∀ r ∈ sent ++ phase.done (c.senders 0), (serialize r).isSome = true
  sub : c.uplink.Sublist ((sent ++ phase.done (c.senders 0)).filterMap serialize)
  whole : steady → c.uplink = (sent ++ phase.done (c.senders 0)).filterMap serialize

namespace Coupled

variable {serialize : τ → Option Bytes} {steady : Prop} {c d : SpeechConnection} {phase : Phase τ}
  {sent : List τ} {r : τ}

theorem start (h : c.frames = []) (hpc : c.senders 0 = .idle) :
    Coupled serialize steady c .away [] where
  fits := by
    rw [hpc]
    rfl
  sound := by
    intro r hr
    cases hr
  sub := by
    unfold uplink
    rw [h]
    exact .slnil
  whole := by
    intro _
    unfold uplink
    rw [h]
    rfl

theorem isSuccess_of_calls (h : d.calls = c.calls) (n : Nat) :
    d.senders n = .returned .success ↔ c.senders n = .returned .success :=
  ⟨(pc_of_calls h n).2.2 _, (pc_of_calls h.symm n).2.2 _⟩

theorem fits_of_calls (h : d.calls = c.calls) (hfits : phase.Fits serialize (c.senders 0)) :
    phase.Fits serialize (d.senders 0) := by
  obtain ⟨hbuf, hpast, -⟩ := pc_of_calls h 0
  unfold Phase.Fits at hfits ⊢
  cases phase with
  | away => exact hbuf.trans hfits
  | sending r =>
      obtain ⟨hp, hne, hser⟩ := hfits
      refine ⟨hpast.trans hp, fun hret => hne ((isSuccess_of_calls h 0).mp hret), ?_⟩
      rw [hbuf]
      exact hser
  | writing r =>
      rcases hfits with hret | ⟨hp, hser⟩
      · exact .inl ((isSuccess_of_calls h 0).mpr hret)
      · exact .inr ⟨hpast.trans hp, hbuf.trans hser⟩

theorem done_of_calls (h : d.calls = c.calls) :
    phase.done (d.senders 0) = phase.done (c.senders 0) := by
  unfold Phase.done
  cases phase with
  | away => rfl
  | sending r => rfl
  | writing r =>
      simp only
      rw [if_congr (isSuccess_of_calls h 0) rfl rfl]

/-- The call does not go on, and nothing is written. -/
theorem quiet (h : Coupled serialize steady c phase sent) (hcalls : d.calls = c.calls)
    (hup : d.uplink = c.uplink) : Coupled serialize steady d phase sent where
  fits := fits_of_calls hcalls h.fits
  sound := by
    rw [done_of_calls hcalls]
    exact h.sound
  sub := by
    rw [done_of_calls hcalls, hup]
    exact h.sub
  whole := by
    rw [done_of_calls hcalls, hup]
    exact h.whole

/-- Nothing is written, and nothing is done. -/
theorem move (h : Coupled serialize steady c phase sent) {phase' : Phase τ}
    (hup : d.uplink = c.uplink) (hdone : phase.done (c.senders 0) = [])
    (hdone' : phase'.done (d.senders 0) = []) (hfits : phase'.Fits serialize (d.senders 0)) :
    Coupled serialize steady d phase' sent where
  fits := hfits
  sound := by
    rw [hdone', ← hdone]
    exact h.sound
  sub := by
    rw [hdone', ← hdone, hup]
    exact h.sub
  whole := by
    rw [hdone', ← hdone, hup]
    exact h.whole

/-- `connection_.send` is called. -/
theorem hand (h : Coupled serialize steady c .away sent) {timeout : BitVec 32}
    (hst : c.send 0 (serialize r) timeout = some d) :
    Coupled serialize steady d (.sending r) sent := by
  have hrefuse : ∀ u, u = c.setSender 0 (.returned .invalidPbObj) →
      Coupled serialize steady u (.sending r) sent := by
    rintro u rfl
    refine h.move rfl rfl rfl ?_
    unfold Phase.Fits
    rw [setSender_senders]
    exact ⟨rfl, by simp, fun b hb => by cases hb⟩
  have hbegin : ∀ u buf, serialize r = some buf → u = c.setSender 0 (.ensure buf timeout) →
      Coupled serialize steady u (.sending r) sent := by
    rintro u buf hbuf rfl
    refine h.move rfl rfl rfl ?_
    unfold Phase.Fits
    rw [setSender_senders]
    refine ⟨rfl, by simp, fun b hb => ?_⟩
    cases hb
    exact hbuf
  unfold SpeechConnection.send at hst
  split at hst
  · cases hst
    exact hrefuse _ rfl
  · cases hst
    exact hrefuse _ rfl
  · rename_i buf _ hbuf
    cases hst
    exact hbegin _ buf hbuf rfl
  · rename_i buf _ hbuf
    cases hst
    exact hbegin _ buf hbuf rfl
  · cases hst

/-- The client is told that the call has failed. -/
theorem fail (h : Coupled serialize steady c (.sending r) sent) {res : ConnectionOpResult}
    (hpc : c.senders 0 = .returned res) : Coupled serialize steady c .away sent := by
  refine h.move rfl rfl rfl ?_
  unfold Phase.Fits
  rw [hpc]
  rfl

/-- The client is told that the call has succeeded. -/
theorem finish (h : Coupled serialize steady c (.writing r) sent) {res : ConnectionOpResult}
    (hpc : c.senders 0 = .returned res) : Coupled serialize steady c .away (sent ++ [r]) := by
  have hres : c.senders 0 = .returned .success := by
    rcases h.fits with hret | ⟨hpast, -⟩
    · exact hret
    · rw [hpc] at hpast
      cases hpast
  have hdone : (Phase.writing r).done (c.senders 0) = [r] := if_pos hres
  refine ⟨?_, ?_, ?_, ?_⟩
  · unfold Phase.Fits
    rw [hpc]
    rfl
  · have hsound := h.sound
    rw [hdone] at hsound
    simpa [Phase.done] using hsound
  · have hsub := h.sub
    rw [hdone] at hsub
    simpa [Phase.done] using hsub
  · have hwhole := h.whole
    rw [hdone] at hwhole
    simpa [Phase.done] using hwhole

/-- A call that is not past the test is one the client waits for. -/
theorem before (h : Coupled serialize steady c phase sent) {buf : Bytes}
    (hbuf : (c.senders 0).buf = some buf) (hpast : (c.senders 0).past = false) :
    ∃ r, phase = .sending r ∧ serialize r = some buf := by
  cases phase with
  | away =>
      have hnone : (c.senders 0).buf = none := h.fits
      rw [hbuf] at hnone
      cases hnone
  | sending r => exact ⟨r, rfl, h.fits.2.2 _ hbuf⟩
  | writing r =>
      rcases h.fits with hret | ⟨hpast', -⟩
      · rw [hret] at hbuf
        cases hbuf
      · rw [hpast] at hpast'
        cases hpast'

/-- A call that is past the test is one the client has noticed. -/
theorem after (h : Coupled serialize steady c phase sent) {buf : Bytes}
    (hbuf : (c.senders 0).buf = some buf) (hpast : (c.senders 0).past = true) :
    ∃ r, phase = .writing r ∧ serialize r = some buf := by
  cases phase with
  | away =>
      have hnone : (c.senders 0).buf = none := h.fits
      rw [hbuf] at hnone
      cases hnone
  | sending r =>
      have hpast' := h.fits.1
      rw [hpast] at hpast'
      cases hpast'
  | writing r =>
      refine ⟨r, rfl, ?_⟩
      rcases h.fits with hret | ⟨-, hsame⟩
      · rw [hret] at hpast
        cases hpast
      · exact hsame.symm.trans hbuf

/-- What the client does with a step of the call: it notices when the test of the stage succeeds. -/
def notices (c : SpeechConnection) : Phase τ → Phase τ
  | .sending r =>
      match c.senders 0 with
      | .voiceTp _ => .writing r
      | _ => .sending r
  | phase => phase

theorem notices_eq (h : ∀ buf, c.senders 0 ≠ .voiceTp buf) : notices c phase = phase := by
  unfold notices
  split
  · split
    · rename_i buf hpc
      exact absurd hpc (h buf)
    · rfl
  · rfl

theorem notices_writing : notices c (.writing r) = .writing r := rfl

theorem done_of_buf {pc : SendPc} {buf : Bytes} (h : pc.buf = some buf) : phase.done pc = [] := by
  unfold Phase.done
  cases phase with
  | away => rfl
  | sending r => rfl
  | writing r =>
      apply if_neg
      rintro rfl
      cases h

/-- The call ends, with its bytes written or because there is no socket. -/
theorem complete (h : Coupled serialize steady c (.writing r) sent) {buf : Bytes}
    (hser : serialize r = some buf) (hbuf : (c.senders 0).buf = some buf)
    (hpc : d.senders 0 = .returned .success)
    (hup : d.uplink = c.uplink ++ [buf] ∨ ¬ steady ∧ d.uplink = c.uplink) :
    Coupled serialize steady d (.writing r) sent := by
  have hdone' : (Phase.writing r).done (d.senders 0) = [r] := if_pos hpc
  have hsound := h.sound
  have hsub := h.sub
  have hwhole := h.whole
  rw [done_of_buf hbuf, List.append_nil] at hsound hsub hwhole
  have hnew : (sent ++ [r]).filterMap serialize = sent.filterMap serialize ++ [buf] := by
    simp [List.filterMap_append, hser]
  refine ⟨.inl hpc, ?_, ?_, ?_⟩
  · rw [hdone']
    intro x hx
    rcases List.mem_append.mp hx with hx | hx
    · exact hsound x hx
    · rw [List.mem_singleton.mp hx, hser]
      rfl
  · rw [hdone', hnew]
    rcases hup with hup | ⟨-, hup⟩
    · rw [hup]
      exact hsub.append (.refl _)
    · rw [hup]
      exact hsub.trans (List.sublist_append_left _ _)
  · intro hsteady
    rw [hdone', hnew]
    rcases hup with hup | ⟨hno, -⟩
    · rw [hup, hwhole hsteady]
    · exact absurd hsteady hno

/-- **A step of the call.** -/
theorem transmit (h : Coupled serialize steady c phase sent) (ht : Transmits c 0 d)
    (hsteady : steady → c.attached 0 = true) :
    Coupled serialize steady d (notices d phase) sent := by
  cases ht with
  | pass hbuf hpast hpc hup =>
      obtain ⟨r, rfl, hser⟩ := h.before hbuf hpast
      have hnotice : notices d (.sending r) = .writing r := by
        unfold notices
        rw [hpc]
      rw [hnotice]
      refine h.move hup rfl ?_ (.inr ⟨by rw [hpc]; rfl, by rw [hpc, hser]; rfl⟩)
      rw [hpc]
      exact done_of_buf rfl
  | wait hbuf hpast hbuf' hpast' hup =>
      obtain ⟨r, rfl, hser⟩ := h.before hbuf hpast
      rw [notices_eq fun buf hpc => by rw [hpc] at hpast'; cases hpast']
      refine h.move hup rfl rfl ⟨hpast', ?_, ?_⟩
      · intro hret
        rw [hret] at hbuf'
        cases hbuf'
      · intro b hb
        rw [hbuf'] at hb
        cases hb
        exact hser
  | fail hbuf hpast hpc hup =>
      obtain ⟨r, rfl, hser⟩ := h.before hbuf hpast
      rw [notices_eq fun buf hpc' => by rw [hpc] at hpc'; cases hpc']
      refine h.move hup rfl rfl ?_
      unfold Phase.Fits
      rw [hpc]
      exact ⟨rfl, by simp, fun b hb => by cases hb⟩
  | go hbuf hpast hbuf' hpast' hpc hup =>
      obtain ⟨r, rfl, hser⟩ := h.after hbuf hpast
      rw [notices_writing]
      exact h.move hup (done_of_buf hbuf) (done_of_buf hbuf')
        (.inr ⟨hpast', hbuf'.trans hser.symm⟩)
  | drop hbuf hpast hws hpc hup =>
      obtain ⟨r, rfl, hser⟩ := h.after hbuf hpast
      rw [notices_writing]
      refine h.complete hser hbuf hpc (.inr ⟨fun hs => ?_, hup⟩)
      have hattached := hsteady hs
      simp [attached, hpast, hws] at hattached
  | write hbuf hpast hpc hup =>
      obtain ⟨r, rfl, hser⟩ := h.after hbuf hpast
      rw [notices_writing]
      exact h.complete hser hbuf hpc (.inl hup)
  | crash hbuf hpast hpc hcalls hup =>
      obtain ⟨r, rfl, -⟩ := h.after hbuf hpast
      rw [notices_writing]
      exact h.quiet hcalls hup

/-- What is read of the frames. -/
theorem read {μ : Type} {decode : Bytes → Option μ} {message : τ → μ}
    (h : Coupled serialize steady c phase sent)
    (hread : ∀ r b, serialize r = some b → decode b = some (message r)) :
    let reqs := sent ++ phase.done (c.senders 0)
    (c.uplink.map decode).Sublist (reqs.map fun r => some (message r)) ∧
      (steady → c.uplink.map decode = reqs.map fun r => some (message r)) := by
  have hall : ∀ l : List τ, (∀ r ∈ l, (serialize r).isSome = true) →
      (l.filterMap serialize).map decode = l.map fun r => some (message r) := by
    intro l hl
    induction l with
    | nil => rfl
    | cons r l ih =>
        obtain ⟨b, hb⟩ := Option.isSome_iff_exists.mp (hl r List.mem_cons_self)
        rw [List.filterMap_cons_some hb, List.map_cons, List.map_cons, hread r b hb,
          ih fun x hx => hl x (List.mem_cons_of_mem _ hx)]
  have hreqs := hall _ h.sound
  refine ⟨?_, fun hsteady => ?_⟩
  · rw [← hreqs]
    exact h.sub.map decode
  · rw [h.whole hsteady, hreqs]

end Coupled

end

namespace Service

open SpeechConnection

variable {σ α ρ E τ ε : Type} {C : ServiceClient σ α ρ E} (S : Speaker C τ ε)

/-- A call of `release` does not return in this step of `connection_.release()`. -/
def stays (C : ServiceClient σ α ρ E) (s : Service σ) : Bool :=
  C.closing s.client && (s.conn.step .release).any fun c => c.releasing ≠ .idle

/-- What the client's requests go through in a step. -/
def tells (s : Service σ) : ServiceAct α ρ → List ε
  | .client a => S.observe s.client a
  | .request _ => S.observe s.client (C.send .success)
  | .release => if s.stays C then [] else S.observe s.client C.release
  | _ => []

/-- `SerializeToString` makes the bytes of the request; the other threads keep to the condition of
    the client. -/
def Serialized (s : Service σ) : ServiceAct α ρ → Prop
  | .request buf => buf = (S.request s.client).bind S.serialize
  | .client a => S.ok s.client a
  | .prepare _ => S.ok s.client C.prepare
  | _ => True

instance [h : ∀ s a, Decidable (S.ok s a)] (s : Service σ) :
    (a : ServiceAct α ρ) → Decidable (Serialized S s a)
  | .request buf => decEq buf ((S.request s.client).bind S.serialize)
  | .client a => h s.client a
  | .prepare _ => h s.client C.prepare
  | .release | .sender _ | .recv _ _ | .conn _ | .tick _ => .isTrue trivial

/-- If `steady`, no socket is taken away between the test of the stage and `ws_->send`. -/
def Steady (steady : Prop) (s : Service σ) (a : ServiceAct α ρ) : Prop :=
  Serialized S s a ∧ (steady → s.conn.attached 0 = true)

instance {steady : Prop} [Decidable steady] [∀ s a, Decidable (S.ok s a)] (s : Service σ)
    (a : ServiceAct α ρ) : Decidable (Steady S steady s a) :=
  inferInstanceAs (Decidable (_ ∧ _))

/-- The steps of the service, with what happens to the requests. -/
def SpeakSteps (u : Traced (Service σ) ε) (a : ServiceAct α ρ) (v : Traced (Service σ) ε) : Prop :=
  Traced.step (step C) (tells S) u a = some v

variable {S} {s t : Service σ}

/-! ### The client on its own -/

/-- What is told in a step is told by the client, which keeps to its condition. -/
theorem tells_step {a : ServiceAct α ρ} (h : s.step C a = some t) (hok : Serialized S s a) :
    (t.client = s.client ∧ tells S s a = []) ∨
      ∃ b, C.step s.client b = some t.client ∧ S.ok s.client b ∧
        tells S s a = S.observe s.client b := by
  have hsend : ∀ r, S.ok s.client (C.send r) :=
    fun r => S.ok_called _ (by simp [C.role_send]) (by simp [C.role_send])
  unfold Service.step at h
  split at h
  · cases h
  · cases a with
    | prepare options => exact absurd hok (S.session _)
    | release =>
        have hrel : S.ok s.client C.release :=
          S.ok_called _ (by simp [C.role_release]) (by simp [C.role_release])
        simp only [Service.release] at h
        split at h
        · rename_i hclosing
          obtain ⟨conn, hconn, h⟩ := Option.bind_eq_some_iff.mp h
          split at h
          · rename_i hidle
            obtain ⟨c, hc, rfl⟩ := Option.map_eq_some_iff.mp h
            exact .inr ⟨_, hc, hrel, by simp [tells, stays, hconn, hidle]⟩
          · rename_i hidle
            cases h
            exact .inl ⟨rfl, by simp [tells, stays, hclosing, hconn, hidle]⟩
        · rename_i hclosing
          obtain ⟨c, hc, rfl⟩ := Option.map_eq_some_iff.mp h
          exact .inr ⟨_, hc, hrel, by simp [tells, stays, hclosing]⟩
    | request buf =>
        obtain ⟨timeout, htime, h⟩ := Option.bind_eq_some_iff.mp h
        obtain ⟨conn, hconn, h⟩ := Option.bind_eq_some_iff.mp h
        obtain ⟨c, hc, h⟩ := Option.bind_eq_some_iff.mp h
        cases h
        exact .inr ⟨_, hc, hsend _, rfl⟩
    | sender timedOut =>
        obtain ⟨id, hid, h⟩ := Option.bind_eq_some_iff.mp h
        have hquiet : ∀ r, S.observe s.client (C.send r) = [] := S.quiet_send (by simp [hid])
        split at h
        · obtain ⟨c, hc, rfl⟩ := Option.map_eq_some_iff.mp h
          exact .inr ⟨_, hc, hsend _, (hquiet _).symm⟩
        · obtain ⟨conn, hconn, h⟩ := Option.bind_eq_some_iff.mp h
          split at h
          · obtain ⟨c, hc, h⟩ := Option.bind_eq_some_iff.mp h
            cases h
            exact .inr ⟨_, hc, hsend _, (hquiet _).symm⟩
          · cases h
            exact .inl ⟨rfl, rfl⟩
          · cases h
            exact .inl ⟨rfl, rfl⟩
    | recv valid resp =>
        simp only [Service.recv] at h
        split at h
        · rename_i hrecv
          obtain ⟨conn, hconn, h⟩ := Option.bind_eq_some_iff.mp h
          split at h
          · rename_i r data hret
            obtain ⟨c, hc, h⟩ := Option.bind_eq_some_iff.mp h
            cases h
            refine .inr ⟨_, hc, ?_, (S.quiet_gen hrecv _ _).symm⟩
            exact S.ok_called _ (by simp [C.role_gen]) (by simp [C.role_gen])
          · cases h
            exact .inl ⟨rfl, rfl⟩
        · cases h
    | client a =>
        simp only at h
        split at h
        · obtain ⟨c, hc, rfl⟩ := Option.map_eq_some_iff.mp h
          exact .inr ⟨_, hc, hok, rfl⟩
        · cases h
    | conn a =>
        simp only at h
        split at h
        · obtain ⟨c, hc, rfl⟩ := Option.map_eq_some_iff.mp h
          exact .inl ⟨rfl, rfl⟩
        · cases h
    | tick ns =>
        obtain ⟨conn, hconn, h⟩ := Option.bind_eq_some_iff.mp h
        obtain ⟨c, hc, h⟩ := Option.bind_eq_some_iff.mp h
        cases h
        refine .inr ⟨_, hc, ?_, (S.quiet_tick _ _).symm⟩
        exact S.ok_called _ (by simp [C.role_tick]) (by simp [C.role_tick])

/-- A run of the service is a run of its client. -/
theorem run_tells {ok : Service σ → ServiceAct α ρ → Prop} (hok : ∀ s a, ok s a → Serialized S s a)
    {s₀ : Service σ} {u : Traced (Service σ) ε}
    (hrun : Run (SpeakSteps S) (Traced.Lift ok) ⟨s₀, []⟩ u) :
    Run (fun u a v => Traced.step C.step S.observe u a = some v) (Traced.Lift S.ok)
      ⟨s₀.client, []⟩ ⟨u.state.client, u.trace⟩ := by
  induction hrun with
  | refl => exact .refl _
  | snoc _ hstep hst ih =>
      obtain ⟨hnext, htrace⟩ := Traced.step_eq_some.mp hst
      rcases tells_step hnext (hok _ _ hstep) with ⟨hclient, htells⟩ | ⟨b, hb, hokb, htells⟩
      · rw [hclient, htrace, htells, List.append_nil]
        exact ih
      · rw [htrace, htells]
        exact ih.snoc hokb (Traced.step_eq_some.mpr ⟨hb, rfl⟩)

/-! ### The service -/

/-- **The uplink.** -/
def Uplinked (S : Speaker C τ ε) (steady : Prop) (s : Service σ) : Prop :=
  Coupled S.serialize steady s.conn (S.phase s.client) (S.sent s.client)

namespace Uplinked

variable {steady : Prop}

/-- The client does something else. -/
theorem aside (h : Uplinked S steady s) (hconn : t.conn = s.conn)
    (hclient : S.phase t.client = S.phase s.client ∧ S.sent t.client = S.sent s.client) :
    Uplinked S steady t := by
  obtain ⟨hphase, hsent⟩ := hclient
  unfold Uplinked
  rw [hphase, hsent, hconn]
  exact h

/-- The connection does something else, and so does the client. -/
theorem apart (h : Uplinked S steady s) {b : ConnectionAct} (hst : s.conn.step b = some t.conn)
    (hb : (∀ n buf timeout, b ≠ .send n buf timeout) ∧ ∀ n timedOut, b ≠ .sender n timedOut)
    (hclient : S.phase t.client = S.phase s.client ∧ S.sent t.client = S.sent s.client) :
    Uplinked S steady t := by
  obtain ⟨hsend, hsender⟩ := hb
  obtain ⟨hphase, hsent⟩ := hclient
  unfold Uplinked
  rw [hphase, hsent]
  exact Coupled.quiet h (calls_step hst hsend hsender) (uplink_step hst hsend hsender)

/-- The client takes a step that has nothing to do with the connection. -/
theorem client_alone {a : α} {c : σ} (halone : C.alone s.client a = true)
    (hst : C.step s.client a = some c) :
    S.phase c = S.phase s.client ∧ S.sent c = S.sent s.client := by
  unfold ServiceClient.alone at halone
  cases hrole : C.role a with
  | send =>
      rw [hrole] at halone
      obtain ⟨hreq, hsend⟩ := (Bool.and_eq_true _ _).mp halone
      rw [Option.isNone_iff_eq_none] at hreq hsend
      have haway := (S.sends _).mp hsend
      obtain ⟨hphase, hsent⟩ := S.alone hst hrole hreq haway
      exact ⟨hphase.trans haway.symm, hsent⟩
  | prepare =>
      rw [hrole] at halone
      cases halone
  | _ => exact S.others hst (by simp [hrole]) (by simp [hrole])

/-- `send_reqs` calls `connection_.send`. -/
theorem request {buf : Option Bytes} (h : Uplinked S steady s) (hok : Serialized S s (.request buf))
    (hcrash : s.conn.crashed = false) (hst : s.request C buf = some t) : Uplinked S steady t := by
  obtain ⟨timeout, htime, hst⟩ := Option.bind_eq_some_iff.mp hst
  obtain ⟨conn, hconn, hst⟩ := Option.bind_eq_some_iff.mp hst
  obtain ⟨c, hc, hst⟩ := Option.bind_eq_some_iff.mp hst
  cases hst
  obtain ⟨r, hr⟩ : ∃ r, S.request s.client = some r := by
    cases hr : S.request s.client with
    | some r => exact ⟨r, rfl⟩
    | none =>
        rw [(S.requests _).mpr hr] at htime
        cases htime
  obtain ⟨hphase, hsent⟩ := S.hands hc hr
  have hsend : s.conn.send 0 (S.serialize r) timeout = some conn := by
    have hbuf : buf = S.serialize r := by
      have hok' : buf = (S.request s.client).bind S.serialize := hok
      rw [hok', hr, Option.bind_some]
    unfold SpeechConnection.step at hconn
    rw [if_neg (by simp [hcrash])] at hconn
    rw [← hbuf]
    exact hconn
  have hcoupled : Coupled S.serialize steady s.conn .away (S.sent s.client) :=
    S.request_away hr ▸ h
  have hnew := hcoupled.hand hsend
  rw [← hphase, ← hsent] at hnew
  exact hnew

/-- The next step of the call. -/
theorem sender {timedOut : Bool} (h : Uplinked S steady s) (hcrash : s.conn.crashed = false)
    (hsteady : steady → s.conn.attached 0 = true) (hst : s.sender C timedOut = some t) :
    Uplinked S steady t := by
  obtain ⟨id, hid, hst⟩ := Option.bind_eq_some_iff.mp hst
  split at hst
  · rename_i r hpc
    obtain ⟨c, hc, rfl⟩ := Option.map_eq_some_iff.mp hst
    change Coupled S.serialize steady s.conn (S.phase c) (S.sent c)
    unfold Uplinked at h
    cases hphase : S.phase s.client with
    | away =>
        rw [(S.sends _).mpr hphase] at hid
        cases hid
    | sending req =>
        rw [hphase] at h
        have hres : r ≠ .success := by
          rintro rfl
          exact h.fits.2.1 hpc
        obtain ⟨hnew, hsent⟩ := S.fails hc hphase hres
        rw [hnew, hsent]
        exact h.fail hpc
    | writing req =>
        rw [hphase] at h
        obtain ⟨hnew, hsent⟩ := S.returns hc hphase
        rw [hnew, hsent]
        exact h.finish hpc
  · rename_i hpc
    obtain ⟨conn, hconn, hst⟩ := Option.bind_eq_some_iff.mp hst
    have ht : Transmits s.conn 0 conn := by
      unfold SpeechConnection.step at hconn
      rw [if_neg (by simp [hcrash])] at hconn
      exact sendStep_transmits hconn
    have hnew := Coupled.transmit h ht hsteady
    split at hst
    · rename_i buf hvoice
      obtain ⟨c, hc, hst⟩ := Option.bind_eq_some_iff.mp hst
      cases hst
      change Coupled S.serialize steady conn (S.phase c) (S.sent c)
      obtain ⟨req, hphase⟩ : ∃ req, S.phase s.client = .sending req := by
        cases ht with
        | pass hbuf hpast hpc' hup =>
            obtain ⟨req, hphase, -⟩ := Coupled.before h hbuf hpast
            exact ⟨req, hphase⟩
        | wait hbuf hpast hbuf' hpast' hup =>
            rw [hvoice] at hpast'
            cases hpast'
        | fail hbuf hpast hpc' hup =>
            rw [hvoice] at hpc'
            cases hpc'
        | go hbuf hpast hbuf' hpast' hpc' hup => exact absurd hvoice (hpc' _)
        | drop hbuf hpast hws hpc' hup =>
            rw [hvoice] at hpc'
            cases hpc'
        | write hbuf hpast hpc' hup =>
            rw [hvoice] at hpc'
            cases hpc'
        | crash hbuf hpast hpc' hcalls hup => exact absurd hvoice (hpc' _)
      obtain ⟨hnew', hsent⟩ := S.passes hc hphase
      have hnotice : Coupled.notices conn (.sending req) = .writing req := by
        unfold Coupled.notices
        rw [hvoice]
      rw [hphase, hnotice] at hnew
      rw [hnew', hsent]
      exact hnew
    · rename_i hret
      cases hst
      rw [Coupled.notices_eq fun buf hvoice => by rw [hret] at hvoice; cases hvoice] at hnew
      exact hnew
    · rename_i hvoice hret
      cases hst
      rw [Coupled.notices_eq hvoice] at hnew
      exact hnew

/-- **One step.** -/
theorem step {a : ServiceAct α ρ} (h : Uplinked S steady s) (hok : Serialized S s a)
    (hsteady : steady → s.conn.attached 0 = true) (hst : s.step C a = some t) :
    Uplinked S steady t := by
  unfold Service.step at hst
  split at hst
  · cases hst
  · rename_i hcrash
    rw [Bool.not_eq_true] at hcrash
    cases a with
    | prepare options => exact absurd hok (S.session _)
    | release =>
        simp only [Service.release] at hst
        split at hst
        · obtain ⟨conn, hconn, hst⟩ := Option.bind_eq_some_iff.mp hst
          split at hst
          · obtain ⟨c, hc, rfl⟩ := Option.map_eq_some_iff.mp hst
            exact h.apart hconn (by simp)
              (S.others hc (by simp [C.role_release]) (by simp [C.role_release]))
          · cases hst
            exact h.apart hconn (by simp) ⟨rfl, rfl⟩
        · obtain ⟨c, hc, rfl⟩ := Option.map_eq_some_iff.mp hst
          exact h.aside rfl (S.others hc (by simp [C.role_release]) (by simp [C.role_release]))
    | request buf => exact h.request hok hcrash hst
    | sender timedOut => exact h.sender hcrash hsteady hst
    | recv valid resp =>
        simp only [Service.recv] at hst
        split at hst
        · obtain ⟨conn, hconn, hst⟩ := Option.bind_eq_some_iff.mp hst
          split at hst
          · rename_i r data hret
            obtain ⟨c, hc, hst⟩ := Option.bind_eq_some_iff.mp hst
            cases hst
            have hconn' : s.conn.step (.recv valid) =
                some ((s.takeResp r conn).setClient c).conn := by
              simpa [setClient] using hconn
            exact h.apart hconn' (by simp)
              (S.others hc (by simp [C.role_gen]) (by simp [C.role_gen]))
          · cases hst
            exact h.apart hconn (by simp) ⟨rfl, rfl⟩
        · cases hst
    | client a =>
        simp only at hst
        split at hst
        · rename_i halone
          obtain ⟨c, hc, rfl⟩ := Option.map_eq_some_iff.mp hst
          exact h.aside rfl (client_alone halone hc)
        · cases hst
    | conn a =>
        simp only at hst
        split at hst
        · rename_i hown
          obtain ⟨c, hc, rfl⟩ := Option.map_eq_some_iff.mp hst
          refine h.apart hc ⟨?_, ?_⟩ ⟨rfl, rfl⟩
          · rintro n buf timeout rfl
            cases hown
          · rintro n timedOut rfl
            cases hown
        · cases hst
    | tick ns =>
        obtain ⟨conn, hconn, hst⟩ := Option.bind_eq_some_iff.mp hst
        obtain ⟨c, hc, hst⟩ := Option.bind_eq_some_iff.mp hst
        cases hst
        exact h.apart hconn (by simp)
          (S.others hc (by simp [C.role_tick]) (by simp [C.role_tick]))

/-- In every run. -/
theorem run {s₀ : Service σ} {u : Traced (Service σ) ε} (h : Uplinked S steady s₀)
    (hrun : Run (SpeakSteps S) (Traced.Lift (Steady S steady)) ⟨s₀, []⟩ u) :
    Uplinked S steady u.state := by
  induction hrun with
  | refl => exact h
  | snoc _ hok hst ih => exact ih.step hok.1 hok.2 (Traced.step_eq_some.mp hst).1

end Uplinked

end Service

end OpenVoice
