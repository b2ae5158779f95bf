import OpenVoice.Nanopb.RoundTrip
import OpenVoice.Service.Tts
import OpenVoice.Service.Uplink
import OpenVoice.Tts.Delivery

/-!
# From `Tts::speak` to the server

A text goes through `requests_`, `do_request` with `SerializeToString`, and `connection_.send`, to
the socket.
-/

namespace OpenVoice

open OpenVoice.Lib

namespace TtsImpl

/-- The setters `do_request` calls. -/
def setters (treq : TtsRequest) : List Nanopb.TtsRequest.Call :=
  [.setId (.ofInt 32 treq.id), .setText (cStr (ascii treq.text)),
    .setDeclaimer (ascii treq.declaimer), .setCodec (ascii treq.codec),
    .setSampleRate treq.sampleRate]

/-- `SerializeToString` -/
def serialize (treq : TtsRequest) : Option Bytes :=
  let p := ((setters treq).foldl Nanopb.TtsRequest.call .new).serializeToString
    Nanopb.TtsRequest.fields []
  if p.1 then some p.2 else none

/-- The request as the server reads it. -/
def message (treq : TtsRequest) : Proto.TtsRequest :=
  { id := .ofInt 32 treq.id, text := cStr (ascii treq.text),
    declaimer := some (ascii treq.declaimer), codec := some (ascii treq.codec),
    sampleRate := some treq.sampleRate }

theorem decode_serialize (treq : TtsRequest) (buf : Bytes) (h : serialize treq = some buf) :
    Proto.TtsRequest.decode buf = some (message treq) := by
  have hser : Nanopb.Serializes _ Proto.TtsRequest.encode Proto.TtsRequest.decode (message treq) :=
    Nanopb.serializes_of_pbEncode
      (Nanopb.TtsRequest.pbEncode_eq (Nanopb.TtsRequest.holds_calls (setters treq)) rfl)
      (message treq).decode_encode
  simp only [serialize] at h
  split at h
  · rename_i htrue
    cases h
    exact hser.decode_eq [] htrue
  · cases h

/-! ### What `send_reqs` does with the requests -/

/-- A call of `speak` puts its text into `requests_`, under an id. -/
def spoke (s : TtsImpl) : TtsAct → List (Int × String)
  | .client n =>
      match s.clients n with
      | .speak text => [(s.nextId + 1, text)]
      | _ => []
  | _ => []

/-- The request `do_request` is about to send. -/
def request (s : TtsImpl) : Option TtsRequest :=
  match s.send with
  | .request req => some (treq req s.options)
  | _ => none

def phase (s : TtsImpl) : Phase TtsRequest :=
  match s.send with
  | .sending _ treq => .sending treq
  | .writing _ treq => .writing treq
  | _ => .away

theorem requests_iff (s : TtsImpl) : s.send.requests = none ↔ s.request = none := by
  unfold request
  cases s.send <;> simp [SendPc.requests]

theorem sends_iff (s : TtsImpl) : s.send.sends = none ↔ s.phase = .away := by
  unfold phase
  cases s.send <;> simp [SendPc.sends]

variable {s t : TtsImpl}

theorem request_away {treq : TtsRequest} (h : s.request = some treq) : s.phase = .away := by
  unfold request at h
  split at h
  · rename_i req hpc
    unfold phase
    rw [hpc]
  · cases h

/-- `request`, `phase` and `sent` are those of the send thread. -/
theorem phase_others {a : TtsAct} (hst : s.step a = some t) (hprepare : role a ≠ .prepare)
    (hsend : role a ≠ .send) : t.phase = s.phase ∧ t.sent = s.sent := by
  cases step_move hst with
  | prepared hinit => exact absurd rfl hprepare
  | prepare hrel hinit => exact absurd rfl hprepare
  | release hmove => cases hmove <;> exact ⟨rfl, rfl⟩
  | send hmove => exact absurd rfl hsend
  | gen hgen =>
      obtain ⟨c, q, n, pc, -, rfl⟩ := genStep_spec hgen
      exact ⟨rfl, rfl⟩
  | client hquiet => exact ⟨rfl, rfl⟩

theorem send_move {r : ConnectionOpResult} (hst : s.step (.send r) = some t) : SendMove s r t := by
  unfold TtsImpl.step at hst
  split at hst
  · cases hst
  · exact sendStep_move hst

/-- **What `send_reqs` does with a request.** -/
theorem SendMove.speaks {r : ConnectionOpResult} (h : SendMove s r t) :
    Speaks s.request r s.phase s.sent t.phase t.sent := by
  unfold TtsImpl.phase TtsImpl.request
  cases h with
  | build hpc =>
      rw [hpc]
      exact .hand rfl rfl rfl rfl
  | fail hpc hr =>
      rw [hpc]
      exact .fail rfl hr rfl rfl
  | available hpc hr hopen =>
      rw [hpc]
      exact .pass rfl hr rfl rfl
  | write hpc =>
      rw [hpc]
      exact .finish rfl rfl rfl
  | start hpc hinit hreq hdel =>
      rw [hpc]
      exact .idle rfl rfl rfl rfl
  | _ hpc =>
      rw [hpc]
      exact .idle rfl rfl rfl rfl

end TtsImpl

/-- `TtsImpl` sends its requests, in a session. -/
def ttsSpeaker : Speaker ttsClient TtsRequest (Int × String) where
  ok := TtsImpl.OneSession
  observe := TtsImpl.spoke
  request := TtsImpl.request
  phase := TtsImpl.phase
  sent s := s.sent
  serialize := TtsImpl.serialize
  session _ h := h rfl
  ok_called := by
    rintro s a hprepare - rfl
    exact hprepare rfl
  quiet_tick _ _ := rfl
  quiet_gen _ _ _ := rfl
  quiet_send _ _ := rfl
  requests := TtsImpl.requests_iff
  sends := TtsImpl.sends_iff
  others := TtsImpl.phase_others
  request_away := TtsImpl.request_away
  send_only := by
    intro a hrole
    cases a with
    | send r => exact ⟨r, rfl⟩
    | _ => cases hrole
  speaks hst := (TtsImpl.send_move hst).speaks

instance (s : TtsImpl) (a : TtsAct) : Decidable (ttsSpeaker.ok s a) :=
  inferInstanceAs (Decidable (TtsImpl.OneSession s a))

namespace TtsImpl

/-! ### The texts -/

/-- The ids `1`, `2`, .. `n`. -/
def idsUpTo (n : Nat) : List Int := (List.range n).map fun i : Nat => (i : Int) + 1

theorem idsUpTo_increasing (n : Nat) : (idsUpTo n).Pairwise (· < ·) := by
  unfold idsUpTo
  rw [List.pairwise_map]
  refine List.pairwise_lt_range.imp ?_
  intro a b hab
  omega

def text (treq : TtsRequest) : Int × String := (treq.id, treq.text)

/-- The request that `send_reqs` has taken from `requests_` and not sent yet. -/
def inHand (s : TtsImpl) : List (Int × String) :=
  match s.send with
  | .request req => [(req.id, req.data)]
  | .sending _ treq | .writing _ treq => [text treq]
  | _ => []

/-- The texts in `requests_`. -/
def queuedTexts (s : TtsImpl) : List (Int × String) := s.requests.map fun req => (req.id, req.data)

/-- What has been taken from `requests_` and what is left there is what was spoken, in this order;
    `cancel` and failures of `send` leave things out. -/
structure Queued (s : TtsImpl) (trace : List (Int × String)) : Prop where
  order : (s.sent.map text ++ s.inHand ++ s.queuedTexts).Sublist trace
  ids : trace.map Prod.fst = idsUpTo trace.length
  next : s.nextId = trace.length

namespace Queued

variable {trace : List (Int × String)}

theorem same (h : Queued s trace) (hsent : t.sent = s.sent) (hsend : t.send = s.send)
    (hqueued : t.queuedTexts = s.queuedTexts) (hnext : t.nextId = s.nextId) : Queued t trace where
  order := by
    have hhand : t.inHand = s.inHand := by
      unfold inHand
      rw [hsend]
    rw [hsent, hhand, hqueued]
    exact h.order
  ids := h.ids
  next := hnext.trans h.next

theorem speak (h : Queued s trace) (text : String) :
    Queued (s.speak text) (trace ++ [(s.nextId + 1, text)]) where
  order := by
    have horder := h.order.append (List.Sublist.refl [(s.nextId + 1, text)])
    simpa [TtsImpl.speak, inHand, queuedTexts] using horder
  ids := by
    rw [List.map_append, h.ids, List.length_append, h.next]
    simp [idsUpTo, List.range_succ]
  next := by
    have hnext := h.next
    simp only [TtsImpl.speak, List.length_append, List.length_singleton]
    omega

/-- `cancel` marks requests. -/
theorem cancel (h : Queued s trace) (id : Int) : Queued (s.cancel id) trace := by
  have hmark : ∀ covers : TtsReqInfo → Prop, ∀ _ : DecidablePred covers,
      (s.requests.map fun req => if covers req then { req with deleted := true } else req).map
        (fun req => (req.id, req.data)) = s.queuedTexts := by
    intro covers _
    unfold queuedTexts
    rw [List.map_map]
    apply List.map_congr_left
    intro req _
    simp only [Function.comp_apply]
    split <;> rfl
  unfold TtsImpl.cancel
  split
  · exact h
  · simp only
    split
    · split
      · exact h.same rfl rfl (hmark _ _) rfl
      · exact h.same rfl rfl (hmark _ _) rfl
    · split
      · split
        · exact h.same rfl rfl (hmark _ _) rfl
        · exact h.same rfl rfl (hmark _ _) rfl
      · exact h.same rfl rfl (hmark _ _) rfl

/-- Something is taken from `requests_`, or lost. -/
theorem drop (h : Queued s trace) (hnext : t.nextId = s.nextId)
    (hsub : (t.sent.map text ++ t.inHand ++ t.queuedTexts).Sublist
      (s.sent.map text ++ s.inHand ++ s.queuedTexts)) : Queued t trace where
  order := hsub.trans h.order
  ids := h.ids
  next := hnext.trans h.next

theorem send {r : ConnectionOpResult} (h : Queued s trace) (hmove : SendMove s r t) :
    Queued t trace := by
  cases hmove with
  | exit hpc hinit =>
      refine h.drop rfl ?_
      simp [inHand, queuedTexts, hpc]
  | sleep hpc hinit hreq =>
      refine h.drop rfl ?_
      simp [inHand, queuedTexts, hpc]
  | cancelled hpc hinit hreq hdel =>
      refine h.drop rfl ?_
      simp [inHand, queuedTexts, hpc, hreq]
  | start hpc hinit hreq hdel =>
      refine h.drop rfl ?_
      simp [inHand, queuedTexts, hpc, hreq]
  | build hpc =>
      refine h.drop rfl ?_
      simp [inHand, queuedTexts, hpc, text, treq]
  | fail hpc hr =>
      refine h.drop rfl ?_
      simp [inHand, queuedTexts, hpc]
  | available hpc hr hopen =>
      refine h.drop rfl ?_
      simp [inHand, queuedTexts, hpc]
  | write hpc =>
      refine h.drop rfl ?_
      simp [inHand, queuedTexts, hpc]
  | _ hpc =>
      refine h.drop rfl ?_
      simp [inHand, queuedTexts, hpc]

theorem step {a : TtsAct} (h : Queued s trace) (hok : OneSession s a) (hst : s.step a = some t) :
    Queued t (trace ++ spoke s a) := by
  have hquiet : Queued t trace → Queued t (trace ++ []) := by
    intro h
    rw [List.append_nil]
    exact h
  unfold TtsImpl.step at hst
  split at hst
  · cases hst
  · cases a with
    | prepare => exact absurd rfl hok
    | release =>
        refine hquiet ?_
        cases release_move hst with
        | close hrel =>
            refine h.drop rfl ?_
            simp [inHand, queuedTexts]
        | _ => exact h.same rfl rfl rfl rfl
    | call n pc =>
        refine hquiet ?_
        simp only at hst
        unfold TtsImpl.call at hst
        split at hst
        · split at hst
          · cases hst
            exact h.same rfl rfl rfl rfl
          · cases hst
            exact h
        · cases hst
          exact h.same rfl rfl rfl rfl
        · cases hst
    | client n =>
        simp only at hst
        unfold TtsImpl.client at hst
        split at hst
        · simp only at hst
          split at hst
          · cases hst
          · rename_i text hpc
            cases hst
            rw [spoke, hpc]
            exact (h.same rfl rfl rfl rfl : Queued { s with
              clients := Function.update s.clients n .idle } trace).speak text
          · rename_i id hpc
            cases hst
            have hnone : spoke s (.client n) = [] := by rw [spoke, hpc]
            rw [hnone, List.append_nil]
            exact (h.same rfl rfl rfl rfl : Queued { s with
              clients := Function.update s.clients n .idle } trace).cancel id
        · cases hst
    | poll =>
        cases hst
        refine hquiet ?_
        unfold TtsImpl.pollStep
        split
        · split
          · exact h.same rfl rfl rfl rfl
          · rename_i u hpoll
            obtain ⟨c, q, rfl, -⟩ := poll_frame hpoll
            exact h.same rfl rfl rfl rfl
          · rename_i r u hpoll
            obtain ⟨c, q, rfl, -⟩ := poll_frame hpoll
            exact h.same rfl rfl rfl rfl
        · exact h
    | config mod =>
        cases hst
        refine hquiet ?_
        cases mod with
        | none => exact h
        | some mod => exact h.same rfl rfl rfl rfl
    | send r =>
        refine hquiet ?_
        exact h.send (sendStep_move hst)
    | gen r resp =>
        refine hquiet ?_
        obtain ⟨c, q, n, pc, -, rfl⟩ := genStep_spec hst
        exact h.same rfl rfl rfl rfl
    | tick ns =>
        cases hst
        refine hquiet ?_
        exact h.same rfl rfl rfl rfl

end Queued

/-- What the client has not been told yet is in its hand. -/
theorem hand_inHand (s : TtsImpl) : (s.phase.hand.map text).Sublist s.inHand := by
  unfold phase inHand
  cases s.send <;> simp [Phase.hand]

/-- The first session has begun. -/
theorem uplinked_prepared (steady : Prop) {options : PrepareOptions} {s₀ : Service TtsImpl}
    (h : Service.step ttsClient (Service.opened ttsClient) (.prepare options) = some s₀) :
    Service.Uplinked ttsSpeaker steady s₀ ∧ Queued s₀.client [] := by
  cases h
  refine ⟨Coupled.start rfl rfl, ?_, rfl, rfl⟩
  exact .slnil

/-- **From `speak` to the server.**  In every run of `TtsImpl` with its connection, in a session:
    the frames that `send` has written are, in this order, requests for which `connection_.send` has
    returned SUCCESS, the last of them perhaps not told to the client yet; all of these if no
    socket is taken away between the test of the stage and `ws_->send`.  Every request is one that
    was spoken, with its text and its id, in the order of the calls of `speak`. -/
theorem server_reads_spoken (steady : Prop) {options : PrepareOptions} {s₀ : Service TtsImpl}
    {u : Traced (Service TtsImpl) (Int × String)}
    (hprepare : Service.step ttsClient (Service.opened ttsClient) (.prepare options) = some s₀)
    (hrun : Run (Service.SpeakSteps ttsSpeaker)
      (Traced.Lift (Service.Steady ttsSpeaker steady)) ⟨s₀, []⟩ u) :
    let reqs := u.state.client.sent ++ u.state.client.phase.done (u.state.conn.senders 0)
    let read := u.state.conn.uplink.map Proto.TtsRequest.decode
    read.Sublist (reqs.map fun r => some (message r)) ∧
      (steady → read = reqs.map fun r => some (message r)) ∧
      (reqs.map text).Sublist u.trace ∧ (reqs.map (·.id)).Pairwise (· < ·) := by
  intro reqs read
  obtain ⟨huplinked, hqueued⟩ := uplinked_prepared steady hprepare
  obtain ⟨hsub, hwhole⟩ := (huplinked.run hrun).read decode_serialize
  have hclient := Service.run_tells (fun _ _ hok => hok.1) hrun
  have hq : Queued u.state.client u.trace := by
    have hinv := hclient.invariant
      (fun (v : Traced TtsImpl (Int × String)) (a : TtsAct) (w : Traced TtsImpl (Int × String))
        (hv : Queued v.state v.trace) (hok : Traced.Lift OneSession v a)
        (hst : Traced.step TtsImpl.step spoke v a = some w) => by
          obtain ⟨hnext, htrace⟩ := Traced.step_eq_some.mp hst
          rw [htrace]
          exact hv.step hok hnext) hqueued
    exact hinv
  have htexts : (reqs.map text).Sublist u.trace := by
    refine .trans ?_ hq.order
    rw [List.map_append, List.append_assoc]
    have hdone := Phase.done_sublist (u.state.conn.senders 0) u.state.client.phase
    have hhand := (hdone.map text).trans (hand_inHand u.state.client)
    exact (List.Sublist.refl _).append (hhand.trans (List.sublist_append_left _ _))
  refine ⟨hsub, hwhole, htexts, ?_⟩
  have hids : (reqs.map (·.id)).Sublist (idsUpTo u.trace.length) := by
    have hmap := htexts.map Prod.fst
    rw [List.map_map, hq.ids] at hmap
    exact hmap
  exact (idsUpTo_increasing _).sublist hids

/-- Two texts are spoken, the first is cancelled while it is queued, and the second is sent. -/
def speaks : List (ServiceAct TtsAct TtsResponse) :=
  let second : Bytes :=
    [8, 2, 18, 1, 98, 26, 2, 122, 104, 34, 3, 112, 99, 109, 40, 192, 187, 1]
  [Service.works, Service.works, .client (.call 0 (.speak "a")), .client (.client 0),
    .client (.call 0 (.speak "b")), .client (.client 0), .client (.call 0 (.cancel 1)),
    .client (.client 0), .client (.send .success), .client (.send .success),
    .request (some second), .sender false] ++ Service.connects ++
    [.sender false, .sender false, .sender false, .sender false]

/-- The session begins. -/
def prepared : Service TtsImpl :=
  (Service.step ttsClient (Service.opened ttsClient) (.prepare (Service.options 7200))).getD
    (Service.opened ttsClient)

theorem server_reads_spoken_speaks :
    ∃ u, exec (Traced.step (Service.step ttsClient) (Service.tells ttsSpeaker)) ⟨prepared, []⟩
        speaks = some u ∧
      u.trace = [(1, "a"), (2, "b")] ∧
      u.state.conn.uplink.map Proto.TtsRequest.decode =
        [some ⟨2, [98], some [122, 104], some [112, 99, 109], some 24000⟩] := by
  refine ⟨_, rfl, by decide +kernel, ?_⟩
  have hok : allOk (Traced.step (Service.step ttsClient) (Service.tells ttsSpeaker))
      (Traced.Lift (Service.Steady ttsSpeaker True)) ⟨prepared, []⟩ speaks = true := by
    decide +kernel
  have hprepare : Service.step ttsClient (Service.opened ttsClient)
      (.prepare (Service.options 7200)) = some prepared := rfl
  exact ((server_reads_spoken True hprepare (Run.of_exec hok rfl)).2.1 trivial).trans
    (by decide +kernel)

end TtsImpl

end OpenVoice
