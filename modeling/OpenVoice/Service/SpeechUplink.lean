import OpenVoice.Nanopb.RoundTrip
import OpenVoice.Service.Speech
import OpenVoice.Service.Uplink
import OpenVoice.Speech.Blocks

/-!
# From `put_text` and `put_voice` to the server

Which requests are handed to `connection_.send` is said by `WireProtocol`; here it is what the
server can read of them.
-/

namespace OpenVoice

open OpenVoice.Lib

/-! ### The enumerators (`speech_types.pb.h`, `speech.pb.h`) -/

def Lang.number : Lang → BitVec 32
  | .zh => 0
  | .en => 1

def Codec.number : Codec → BitVec 32
  | .pcm => 0
  | .opu => 1
  | .opu2 => 2
  | .mp3 => 3

def VadMode.number : VadMode → BitVec 32
  | .local => 0
  | .cloud => 1

def ReqType.number : ReqType → BitVec 32
  | .start => 0
  | .voice => 1
  | .end_ => 2
  | .text => 3

namespace Nanopb

/-- A setter that is called if there is a value. -/
def setIf {β κ : Type} (set : β → κ) (o : Option β) : List κ := o.toList.map set

@[simp] theorem lastSet_nil {κ β : Type} (f : κ → Option β) : lastSet f [] = none := rfl

@[simp] theorem lastSet_append {κ β : Type} (f : κ → Option β) (l l' : List κ) :
    lastSet f (l ++ l') = (lastSet f l').or (lastSet f l) := by
  unfold lastSet
  rw [List.reverse_append, List.findSome?_append]

theorem lastSet_singleton {κ β : Type} (f : κ → Option β) (c : κ) : lastSet f [c] = f c := by
  unfold lastSet
  rw [List.reverse_singleton, List.findSome?_singleton]

@[simp] theorem lastSet_cons {κ β : Type} (f : κ → Option β) (c : κ) (l : List κ) :
    lastSet f (c :: l) = (lastSet f l).or (f c) := by
  rw [← List.singleton_append, lastSet_append, lastSet_singleton]

@[simp] theorem lastSet_setIf {κ β γ : Type} (f : κ → Option β) (set : γ → κ) (o : Option γ) :
    lastSet f (setIf set o) = o.bind fun x => f (set x) := by
  cases o with
  | none => rfl
  | some x => exact lastSet_singleton f (set x)

@[simp] theorem lastSet_map {κ κ' β : Type} (f : κ → Option β) (g : κ' → κ) (l : List κ') :
    lastSet f (l.map g) = lastSet (fun c => f (g c)) l := by
  unfold lastSet
  rw [← List.map_reverse, List.findSome?_map]
  rfl

@[simp] theorem lastSet_none {κ β : Type} (l : List κ) :
    lastSet (fun _ => (none : Option β)) l = none := by
  unfold lastSet
  rw [List.findSome?_eq_none_iff]
  exact fun _ _ => rfl

@[simp] theorem mem_setIf {κ γ : Type} {c : κ} {set : γ → κ} {o : Option γ} :
    c ∈ setIf set o ↔ ∃ x ∈ o, set x = c := by
  simp [setIf]

@[simp] theorem filterMap_setIf {κ γ δ : Type} (f : κ → Option δ) (set : γ → κ) (o : Option γ) :
    (setIf set o).filterMap f = (o.bind fun x => f (set x)).toList := by
  cases o with
  | none => rfl
  | some x =>
      change [set x].filterMap f = (f (set x)).toList
      cases h : f (set x) <;> simp [h]

end Nanopb

namespace SpeechImpl

open Nanopb

/-- `req_config`, with the options object that `mutable_options` returns. -/
def optionSetters (o : OpenVoice.SpeechOptionsEnc) : List Nanopb.SpeechOptionsEnc.Call :=
  List.flatten [
    [.setLang o.lang.number, .setCodec o.codec.number, .setVadMode o.vadMode.number,
      .setVendTimeout o.vendTimeout, .setNoNlp o.noNlp,
      .setNoIntermediateAsr o.noIntermediateAsr, .setVadBegin o.vadBegin],
    setIf (fun s => .setStack (ascii s)) o.stack,
    setIf (fun s => .setVoiceTrigger (ascii s)) o.voiceTrigger,
    setIf .setVoicePower o.voicePower,
    setIf .setTriggerStart o.triggerStart,
    setIf .setTriggerLength o.triggerLength,
    setIf .setNoTriggerConfirm o.noTriggerConfirm,
    setIf (fun s => .setSkillOptions (ascii s)) o.skillOptions,
    setIf (fun s => .setVoiceExtra (ascii s)) o.voiceExtra]

/-- The setters `do_request` calls itself. -/
def requestSetters (treq : OpenVoice.SpeechRequest) : List Nanopb.SpeechRequest.Call :=
  [.setId (.ofInt 32 treq.id), .setType treq.type.number] ++ setIf .setVoice treq.voice ++
    setIf .setAsr treq.asr

/-- The setters `do_request` and `req_config` call. -/
def setters (treq : OpenVoice.SpeechRequest) : List Nanopb.SpeechRequest.Call :=
  requestSetters treq ++
    match treq.options with
    | none => []
    | some o => .mutableOptions :: (optionSetters o).map (.options 0)

/-- `SerializeToString` -/
def serialize (treq : OpenVoice.SpeechRequest) : Option Bytes :=
  let p := ((setters treq).foldl Nanopb.SpeechRequest.call .new).serializeToString
    Nanopb.SpeechRequest.fields []
  if p.1 then some p.2 else none

def optionsMessage (o : OpenVoice.SpeechOptionsEnc) : Proto.SpeechOptions :=
  { lang := o.lang.number, codec := o.codec.number, vadMode := o.vadMode.number,
    vendTimeout := some o.vendTimeout, noNlp := o.noNlp,
    noIntermediateAsr := o.noIntermediateAsr, stack := o.stack.map ascii,
    voiceTrigger := o.voiceTrigger.map ascii, voicePower := o.voicePower,
    triggerStart := o.triggerStart, triggerLength := o.triggerLength,
    skillOptions := o.skillOptions.map ascii, voiceExtra := o.voiceExtra.map ascii,
    vadBegin := some o.vadBegin, noTriggerConfirm := o.noTriggerConfirm }

/-- The request as the server reads it. -/
def message (treq : OpenVoice.SpeechRequest) : Proto.SpeechRequest :=
  { id := .ofInt 32 treq.id, type := treq.type.number, voice := treq.voice, asr := treq.asr,
    options := treq.options.map optionsMessage }

theorem optionsMessage_eq (o : OpenVoice.SpeechOptionsEnc) :
    (Nanopb.SpeechOptionsEnc.values (optionSetters o)).message = optionsMessage o := by
  have hascii : ∀ s : Option String, s.map ascii = s.bind fun x => some (ascii x) := by
    intro s
    cases s with
    | none => rfl
    | some x => rfl
  simp [Nanopb.SpeechOptionsEnc.values, Nanopb.SpeechOptionsEnc.Values.message, optionSetters,
    optionsMessage, hascii]

/-- The setters that are called on the options object. -/
theorem filterMap_setters (treq : OpenVoice.SpeechRequest) :
    (setters treq).filterMap Nanopb.SpeechRequest.Call.option =
      treq.options.elim [] optionSetters := by
  have hoptions : ∀ l : List Nanopb.SpeechOptionsEnc.Call,
      (l.map (Nanopb.SpeechRequest.Call.options 0)).filterMap Nanopb.SpeechRequest.Call.option =
        l := by
    intro l
    rw [List.filterMap_map]
    exact List.filterMap_some
  have hhead : (requestSetters treq).filterMap Nanopb.SpeechRequest.Call.option = [] := by
    rw [requestSetters, List.filterMap_append, List.filterMap_append, filterMap_setIf,
      filterMap_setIf]
    cases treq.voice <;> cases treq.asr <;> rfl
  unfold setters
  rw [List.filterMap_append, hhead, List.nil_append]
  cases treq.options with
  | none => rfl
  | some o => exact hoptions (optionSetters o)

theorem message_eq (treq : OpenVoice.SpeechRequest) :
    (Nanopb.SpeechRequest.values (setters treq)).message = message treq := by
  have hcalls := filterMap_setters treq
  cases hopt : treq.options with
  | none =>
      simp [Nanopb.SpeechRequest.values, Nanopb.SpeechRequest.Values.message, setters, requestSetters, message,
        hopt]
  | some o =>
      rw [hopt] at hcalls
      have hvalues : (Nanopb.SpeechRequest.values (setters treq)).options.message =
          optionsMessage o := by
        rw [← optionsMessage_eq]
        exact congrArg (fun l => (Nanopb.SpeechOptionsEnc.values l).message) hcalls
      have hmutable : (Nanopb.SpeechRequest.values (setters treq)).mutableOptions = true := by
        simp [Nanopb.SpeechRequest.values, setters, requestSetters, hopt]
      rw [Nanopb.SpeechRequest.Values.message, hvalues, if_pos hmutable]
      simp [Nanopb.SpeechRequest.values, setters, requestSetters, message, hopt]

theorem decode_serialize (treq : OpenVoice.SpeechRequest) (buf : Bytes)
    (h : serialize treq = some buf) :
    Proto.SpeechRequest.decode buf = some (message treq) := by
  have hser := Nanopb.serializes_of_pbEncode
    (Nanopb.SpeechRequest.pbEncode_eq (Nanopb.SpeechRequest.holds_calls (setters treq)))
    (Nanopb.SpeechRequest.values (setters treq)).message.decode_encode
  simp only [serialize] at h
  split at h
  · rename_i htrue
    cases h
    rw [hser.decode_eq [] htrue, message_eq]
  · cases h

/-! ### What `send_reqs` does with the requests -/

/-- The request `do_request` is about to send. -/
def request (s : SpeechImpl) : Option OpenVoice.SpeechRequest :=
  match s.send with
  | .request info => some (info.treq s.options)
  | _ => none

def phase (s : SpeechImpl) : Phase OpenVoice.SpeechRequest :=
  match s.send with
  | .sending _ treq => .sending treq
  | .writing _ treq => .writing treq
  | _ => .away

theorem requests_iff (s : SpeechImpl) : s.send.requests = none ↔ s.request = none := by
  unfold request
  cases hpc : s.send <;> simp [SendPc.requests]

theorem sends_iff (s : SpeechImpl) : s.send.sends = none ↔ s.phase = .away := by
  unfold phase
  cases s.send <;> simp [SendPc.sends]

variable {s t : SpeechImpl}

theorem request_away {treq : OpenVoice.SpeechRequest} (h : s.request = some treq) :
    s.phase = .away := by
  unfold request at h
  split at h
  · rename_i info hpc
    unfold phase
    rw [hpc]
  · cases h

theorem phase_others {a : SpeechAct} (hst : s.step a = some t) (hprepare : role a ≠ .prepare)
    (hsend : role a ≠ .send) : t.phase = s.phase ∧ t.sent = s.sent := by
  cases step_move hst with
  | prepared hinit => exact absurd rfl hprepare
  | prepare hrel hinit => exact absurd rfl hprepare
  | release hmove => cases hmove <;> exact ⟨rfl, rfl⟩
  | send hmove => exact absurd rfl hsend
  | gen hgen =>
      obtain ⟨c, q, v, k, pc, -, -, rfl⟩ := genStep_spec hgen
      exact ⟨rfl, rfl⟩
  | client hquiet => exact ⟨rfl, rfl⟩

theorem send_move {r : ConnectionOpResult} (hst : s.step (.send r) = some t) : SendMove s r t := by
  unfold SpeechImpl.step at hst
  split at hst
  · cases hst
  · exact sendStep_move hst

/-- **What `send_reqs` does with a request.** -/
theorem SendMove.speaks {r : ConnectionOpResult} (h : SendMove s r t) :
    Speaks s.request r s.phase s.sent t.phase t.sent := by
  unfold SpeechImpl.phase SpeechImpl.request
  cases h with
  | build hpc =>
      rw [hpc]
      exact .hand rfl rfl rfl rfl
  | fail hpc hr =>
      rw [hpc]
      exact .fail rfl hr rfl rfl
  | available hpc hr hopen =>
      rw [hpc]
      exact .pass rfl hr rfl rfl
  | write hpc =>
      rw [hpc]
      exact .finish rfl rfl rfl
  | look hpc =>
      rw [hpc]
      exact .idle rfl rfl rfl rfl
  | refresh hpc =>
      rw [hpc]
      refine .idle rfl rfl ?_ rfl
      simp only
      split
      · rename_i hpc'
        split at hpc' <;> cases hpc'
      · rename_i hpc'
        split at hpc' <;> cases hpc'
      · rfl
  | _ hpc =>
      rw [hpc]
      exact .idle rfl rfl rfl rfl

end SpeechImpl

/-- `SpeechImpl` sends its requests, in a session. -/
def speechSpeaker : Speaker speechClient SpeechRequest WireEvent where
  ok := SpeechImpl.OneSession
  observe := SpeechImpl.wireEvents
  request := SpeechImpl.request
  phase := SpeechImpl.phase
  sent s := s.sent
  serialize := SpeechImpl.serialize
  session _ h := h.1 rfl
  ok_called := by
    intro s a hprepare hother
    refine ⟨?_, ?_⟩
    · rintro rfl
      exact hprepare rfl
    · cases a with
      | client n => exact absurd rfl hother
      | _ => rfl
  quiet_tick _ _ := rfl
  quiet_gen := by
    intro s hrecv r resp
    change s.genEvents = []
    unfold SpeechImpl.genEvents
    split
    · rename_i id hpc
      change s.gen.receives = true at hrecv
      rw [hpc] at hrecv
      cases hrecv
    · rfl
  quiet_send := by
    intro s hsends r
    change s.send.sends ≠ none at hsends
    change s.sendEvents = []
    unfold SpeechImpl.sendEvents
    split
    · rename_i hpc
      rw [hpc] at hsends
      exact absurd rfl hsends
    · rename_i info hpc
      rw [hpc] at hsends
      exact absurd rfl hsends
    · rename_i id hpc
      rw [hpc] at hsends
      exact absurd rfl hsends
    · rfl
  requests := SpeechImpl.requests_iff
  sends := SpeechImpl.sends_iff
  others := SpeechImpl.phase_others
  request_away := SpeechImpl.request_away
  send_only := by
    intro a hrole
    cases a with
    | send r => exact ⟨r, rfl⟩
    | _ => cases hrole
  speaks hst := (SpeechImpl.send_move hst).speaks

instance (s : SpeechImpl) (a : SpeechAct) : Decidable (speechSpeaker.ok s a) :=
  inferInstanceAs (Decidable (SpeechImpl.OneSession s a))

namespace SpeechImpl

open Wire

variable {s t : SpeechImpl}

/-! ### The requests -/

/-- Requests are handed over by `send_reqs` alone. -/
theorem handed_wireEvents (s : SpeechImpl) {a : SpeechAct} (h : role a ≠ .send) :
    handed (s.wireEvents a) = [] := by
  have hdropped : ∀ ids : List Int, handed (ids.map .dropped) = [] := by
    intro ids
    rw [handed, List.filterMap_map]
    exact List.filterMap_eq_nil_iff.mpr fun _ _ => rfl
  cases a with
  | client n =>
      change handed (s.clientEvents n) = []
      unfold clientEvents
      split
      · rw [handed, List.filterMap_map]
        exact List.filterMap_eq_nil_iff.mpr fun _ _ => rfl
      · rw [handed, List.filterMap_map]
        exact List.filterMap_eq_nil_iff.mpr fun _ _ => rfl
      · rfl
  | send r => exact absurd rfl h
  | gen r resp =>
      change handed s.genEvents = []
      unfold genEvents
      split
      · exact hdropped _
      · rfl
  | release =>
      change handed s.releaseEvents = []
      unfold releaseEvents
      split
      · exact hdropped _
      · rfl
  | _ => rfl

theorem handed_sendEvents (s : SpeechImpl) : handed s.sendEvents = s.request.toList := by
  unfold sendEvents request
  cases s.send with
  | loop =>
      simp only
      split <;> rfl
  | request info => rfl
  | eraseReq id =>
      simp only
      rw [handed, List.filterMap_map]
      exact List.filterMap_eq_nil_iff.mpr fun _ _ => rfl
  | _ => rfl

/-- What is sent has been handed over, in this order, and not twice. -/
def HandedOn (s : SpeechImpl) (tr : List WireEvent) : Prop :=
  (s.sent ++ s.phase.hand).Sublist (handed tr)

theorem HandedOn.step {tr : List WireEvent} {a : SpeechAct} (h : HandedOn s tr)
    (hok : OneSession s a) (hst : s.step a = some t) : HandedOn t (tr ++ s.wireEvents a) := by
  unfold HandedOn at h ⊢
  rw [handed_append]
  by_cases hsend : role a = .send
  · obtain ⟨r, rfl⟩ := speechSpeaker.send_only hsend
    have hevents : handed (s.wireEvents (.send r)) = s.request.toList := handed_sendEvents s
    change (t.sent ++ t.phase.hand).Sublist (handed tr ++ handed (s.wireEvents (.send r)))
    rw [hevents]
    exact (send_move hst).speaks.sublist.trans (h.append (.refl _))
  · have hprepare : role a ≠ .prepare := by
      cases a with
      | prepare => exact absurd rfl hok.1
      | _ => simp [role]
    obtain ⟨hphase, hsent⟩ := phase_others hst hprepare hsend
    rw [handed_wireEvents s hsend, List.append_nil, hphase, hsent]
    exact h

/-- The session begins. -/
theorem uplinked_prepared (steady : Prop) {options : PrepareOptions} {s₀ : Service SpeechImpl}
    (h : Service.step speechClient (Service.opened speechClient) (.prepare options) = some s₀) :
    Service.Uplinked speechSpeaker steady s₀ ∧ s₀.client = opened := by
  cases h
  exact ⟨Coupled.start rfl rfl, rfl⟩

/-- The voice in the requests with this id. -/
def voices (id : Int) (reqs : List OpenVoice.SpeechRequest) : List (Sp Bytes) :=
  reqs.filterMap fun r => if r.id = id ∧ r.type = .voice then some r.voice else none

theorem voices_append (id : Int) (reqs reqs' : List OpenVoice.SpeechRequest) :
    voices id (reqs ++ reqs') = voices id reqs ++ voices id reqs' := List.filterMap_append

/-- The voice in a block. -/
theorem voices_requests (id : Int) (b : WireBlock) :
    voices id b.requests = if b.id = id then b.chunks else [] := by
  cases b with
  | text id' asr options => simp [voices, WireBlock.requests, WireBlock.chunks]
  | voice id' options chunks ended =>
      have hchunks : voices id (chunks.map fun chunk =>
          { id := id', type := .voice, voice := chunk }) = if id' = id then chunks else [] := by
        unfold voices
        rw [List.filterMap_map]
        split
        · rename_i hid
          simp [hid]
        · rename_i hid
          simp [hid]
      have hend : voices id (if ended then [{ id := id', type := .end_ }] else []) = [] := by
        cases ended <;> simp [voices]
      rw [WireBlock.requests, List.cons_append, ← List.singleton_append, voices_append,
        voices_append, hchunks, hend]
      by_cases hid : id' = id
      · simp [voices, WireBlock.id, WireBlock.chunks, hid]
      · simp [voices, WireBlock.id, hid]

/-- The voice of an id is that of its block. -/
theorem voices_blocks {tr : List WireEvent} {bs : List WireBlock} (h : WireProtocol tr bs)
    (id : Int) : voices id (bs.flatMap WireBlock.requests) <+: accepted id tr := by
  have hnone : ∀ bs : List WireBlock, id ∉ bs.map WireBlock.id →
      voices id (bs.flatMap WireBlock.requests) = [] := by
    intro bs hid
    induction bs with
    | nil => rfl
    | cons b bs ih =>
        rw [List.map_cons, List.mem_cons, not_or] at hid
        rw [List.flatMap_cons, voices_append, voices_requests, if_neg (Ne.symm hid.1),
          ih hid.2]
        rfl
  have hall : ∀ bs : List WireBlock, (bs.map WireBlock.id).Nodup →
      (∀ b ∈ bs, b.chunks <+: accepted b.id tr) →
      voices id (bs.flatMap WireBlock.requests) <+: accepted id tr := by
    intro bs honce hpayload
    induction bs with
    | nil => exact List.nil_prefix
    | cons b bs ih =>
        rw [List.map_cons, List.nodup_cons] at honce
        rw [List.flatMap_cons, voices_append, voices_requests]
        by_cases hid : b.id = id
        · rw [if_pos hid, hnone bs (hid ▸ honce.1), List.append_nil, ← hid]
          exact hpayload b List.mem_cons_self
        · rw [if_neg hid, List.nil_append]
          exact ih honce.2 fun b' hb' => hpayload b' (List.mem_cons_of_mem _ hb')
  exact hall bs h.once h.payload

/-- **From `put_voice` and `put_text` to the server.**  In every run of `SpeechImpl` with its
    connection, in a session in which `++next_id_` is not interrupted: the frames that `send` has
    written are, in this order, requests for which `connection_.send` has returned SUCCESS, the last
    of them perhaps not told to the client yet; all of these if no socket is taken away between the
    test of the stage and `ws_->send`.  They are requests of blocks that keep the wire protocol;
    the voice the server reads for an id is made of pieces of what `put_voice` has accepted for it,
    in their order. -/
theorem server_reads_requested (steady : Prop) {options : PrepareOptions}
    {s₀ : Service SpeechImpl} {u : Traced (Service SpeechImpl) WireEvent}
    (hprepare : Service.step speechClient (Service.opened speechClient) (.prepare options) =
      some s₀)
    (hrun : Run (Service.SpeakSteps speechSpeaker)
      (Traced.Lift (Service.Steady speechSpeaker steady)) ⟨s₀, []⟩ u) :
    let reqs := u.state.client.sent ++ u.state.client.phase.done (u.state.conn.senders 0)
    let read := u.state.conn.uplink.map Proto.SpeechRequest.decode
    read.Sublist (reqs.map fun r => some (message r)) ∧
      (steady → read = reqs.map fun r => some (message r)) ∧
      (∃ bs, WireProtocol u.trace bs ∧ reqs.Sublist (bs.flatMap WireBlock.requests)) ∧
      ∀ id, (voices id reqs).Sublist (accepted id u.trace) := by
  intro reqs read
  obtain ⟨huplinked, hopened⟩ := uplinked_prepared steady hprepare
  obtain ⟨hsub, hwhole⟩ := (huplinked.run hrun).read decode_serialize
  have hclient := Service.run_tells (fun _ _ hok => hok.1) hrun
  have hinv : (∃ bs, Wired u.state.client u.trace bs) ∧ HandedOn u.state.client u.trace := by
    have hstep : ∀ (v : Traced SpeechImpl WireEvent) (a : SpeechAct)
        (w : Traced SpeechImpl WireEvent),
        ((∃ bs, Wired v.state v.trace bs) ∧ HandedOn v.state v.trace) →
        Traced.Lift OneSession v a → Traced.step SpeechImpl.step wireEvents v a = some w →
        (∃ bs, Wired w.state w.trace bs) ∧ HandedOn w.state w.trace := by
      rintro v a w ⟨⟨bs, hwired⟩, hhanded⟩ hok hst
      obtain ⟨hnext, htrace⟩ := Traced.step_eq_some.mp hst
      rw [htrace]
      exact ⟨hwired.step hok hnext, hhanded.step hok hnext⟩
    rw [hopened] at hclient
    have h := hclient.invariant hstep ⟨⟨[], .opened⟩, .slnil⟩
    exact h
  obtain ⟨⟨bs, hwired⟩, hhanded⟩ := hinv
  have hprotocol := hwired.protocol
  have hreqs : reqs.Sublist (bs.flatMap WireBlock.requests) := by
    rw [← hprotocol.handed]
    refine .trans ?_ hhanded
    exact (List.Sublist.refl _).append (Phase.done_sublist _ _)
  refine ⟨hsub, hwhole, ⟨bs, hprotocol, hreqs⟩, fun id => ?_⟩
  exact (hreqs.filterMap _).trans (voices_blocks hprotocol id).sublist

/-- A voice request with one chunk: start, chunk and end. -/
def spokenVoice : List (ServiceAct SpeechAct SpeechResponse) :=
  let next (n : Nat) : List (ServiceAct SpeechAct SpeechResponse) :=
    List.replicate n (.client (.send .success))
  let sends (buf : Bytes) : List (ServiceAct SpeechAct SpeechResponse) :=
    [.request (some buf)] ++ List.replicate 5 (.sender false)
  [Service.works, Service.works, .client (.call 0 (.startVoice none)), .client (.client 0), .client (.client 0),
    .client (.call 0 (.putVoice 1 (some [7, 8]))), .client (.client 0),
    .client (.call 0 (.endVoice 1)), .client (.client 0)] ++ next 3 ++
  [.request (some [8, 1, 16, 0, 42, 14, 8, 0, 16, 0, 24, 0, 32, 0, 40, 0, 48, 0, 112, 0]),
    .sender false] ++ Service.connects ++ List.replicate 5 (.sender false) ++
  next 4 ++ sends [8, 1, 16, 1, 26, 2, 7, 8] ++ next 4 ++ sends [8, 1, 16, 2]

/-- The session begins. -/
def prepared : Service SpeechImpl :=
  (Service.step speechClient (Service.opened speechClient) (.prepare (Service.options 7200))).getD
    (Service.opened speechClient)

theorem server_reads_requested_spokenVoice :
    ∃ u, exec (Traced.step (Service.step speechClient) (Service.tells speechSpeaker))
        ⟨prepared, []⟩ spokenVoice = some u ∧
      accepted 1 u.trace = [some [7, 8]] ∧
      (u.state.conn.uplink.map Proto.SpeechRequest.decode).map
        (Option.map fun m : Proto.SpeechRequest => (m.id, m.type, m.voice)) =
          [some (1, 0, none), some (1, 1, some [7, 8]), some (1, 2, none)] := by
  refine ⟨_, rfl, by decide +kernel, ?_⟩
  have hok : allOk (Traced.step (Service.step speechClient) (Service.tells speechSpeaker))
      (Traced.Lift (Service.Steady speechSpeaker True)) ⟨prepared, []⟩ spokenVoice = true := by
    decide +kernel
  have hprepare : Service.step speechClient (Service.opened speechClient)
      (.prepare (Service.options 7200)) = some prepared := rfl
  have hread := (server_reads_requested True hprepare (Run.of_exec hok rfl)).2.1 trivial
  have hmap := congrArg
    (List.map (Option.map fun m : Proto.SpeechRequest => (m.id, m.type, m.voice))) hread
  exact hmap.trans (by decide +kernel)

end SpeechImpl

end OpenVoice
