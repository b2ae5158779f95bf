import OpenVoice.Connection.Closed
import OpenVoice.Lib.DropOldest
import OpenVoice.Lib.Traced
import OpenVoice.Nanopb.Encode
import OpenVoice.Nanopb.Messages

/-!
# The statistics: `add_trace_info` and `send_trace_info`

The infos that wait to be reported are in a queue that drops the oldest.  `send_trace_info` takes
an info from the queue before it knows if there is a socket, and `set_resp_tp` writes the field
of `set_req_tp`.
-/

namespace OpenVoice

open Lib Lib.DropOldest

/-! ### `PingPayload` -/

namespace PingPayload

/-- `rokid_open_speech_v1_PingPayload_fields`. -/
def fields : List (Nanopb.PbField Empty PingPayload) :=
  [ .required 1 (.int32 fun pp => .ofInt 32 pp.reqId),
    .required 2 (.uint64 (·.nowTp)),
    .required 3 (.uint64 (·.reqTp)),
    .required 4 (.uint64 (·.respTp)) ]

/-- What `SerializeToString` returns, and what it makes of an empty string. -/
def serialize (pp : PingPayload) : Bool × Bytes :=
  Nanopb.NanoPBEncoder.serializeToString fields { nanopbStruct := pp, strings := nofun } []

def message (pp : PingPayload) : Proto.PingPayload :=
  { reqId := .ofInt 32 pp.reqId, nowTp := pp.nowTp, reqTp := pp.reqTp, respTp := pp.respTp }

/-- No number takes more than ten bytes. -/
theorem length_encode_message_le (pp : PingPayload) : pp.message.encode.length ≤ 44 := by
  have hvarint : ∀ n : BitVec 64, (Varint.encode n.toNat).length ≤ 10 := fun n =>
    Varint.length_encode_le (Nat.lt_of_lt_of_le n.isLt (by decide))
  have htag : ∀ n < 128, (Varint.encode n).length = 1 := fun n hn => by
    rw [Varint.encode_of_lt hn, List.length_singleton]
  have h₁ := hvarint (pp.message.reqId.signExtend 64)
  have h₂ := hvarint pp.message.nowTp
  have h₃ := hvarint pp.message.reqTp
  have h₄ := hvarint pp.message.respTp
  simp only [Proto.PingPayload.encode, Proto.PingPayload.fields, Protobuf.records,
    List.filterMap_cons, List.filterMap_nil, Option.map_some, Protobuf.encode_cons,
    Protobuf.encode_nil, Protobuf.Record.encode, Protobuf.Payload.wireType,
    Protobuf.Payload.encode, Protobuf.Payload.ofInt32, Protobuf.Payload.ofUInt64,
    List.length_append, List.length_nil, htag _ (by decide : 8 * 1 + 0 < 128),
    htag _ (by decide : 8 * 2 + 0 < 128), htag _ (by decide : 8 * 3 + 0 < 128),
    htag _ (by decide : 8 * 4 + 0 < 128)]
  omega

theorem serialize_eq (pp : PingPayload) : pp.serialize = (true, pp.message.encode) := by
  have hfields : Nanopb.pbEncode (nofun : Empty → Bytes) pp fields
      = Nanopb.pbWrite pp.message.encode :=
    Nanopb.pbEncode_eq (.cons (Nanopb.PbField.writes_required (Nanopb.Member.writes_int32 _)) <|
      .cons (Nanopb.PbField.writes_required (Nanopb.Member.writes_uint64 _)) <|
      .cons (Nanopb.PbField.writes_required (Nanopb.Member.writes_uint64 _)) <|
      .cons (Nanopb.PbField.writes_required (Nanopb.Member.writes_uint64 _)) .nil)
  have hlength : pp.message.encode.length ≤ Nanopb.encodeBufferSize :=
    Nat.le_trans pp.length_encode_message_le (by decide)
  rw [serialize, Nanopb.NanoPBEncoder.serializeToString_eq hfields, if_pos hlength]

theorem decode_serialize (pp : PingPayload) :
    Proto.PingPayload.decode pp.serialize.2 = some pp.message := by
  rw [serialize_eq]
  exact Proto.PingPayload.decode_encode pp.message

end PingPayload

namespace SpeechConnection

/-! ### Steps that leave the queue alone -/

section Unchanged

variable (s : SpeechConnection)

@[simp] theorem traceInfos_wsSend (frame : Frame) :
    (s.wsSend frame).traceInfos = s.traceInfos := by
  unfold wsSend
  split <;> rfl

@[simp] theorem traceInfos_onDisconnection : s.onDisconnection.traceInfos = s.traceInfos := by
  unfold onDisconnection
  simp only
  split <;> rfl

@[simp] theorem traceInfos_close (w : Nat) : (s.close w).traceInfos = s.traceInfos :=
  traceInfos_onDisconnection _

@[simp] theorem traceInfos_closeWs : s.closeWs.traceInfos = s.traceInfos := by
  unfold closeWs
  split
  · rfl
  · exact traceInfos_close s _

@[simp] theorem traceInfos_groupClose : s.groupClose.traceInfos = s.traceInfos := by
  have h : ∀ (ws : List Nat) (t : SpeechConnection),
      (ws.foldl (fun s w => s.close w) t).traceInfos = t.traceInfos := by
    intro ws
    induction ws with
    | nil => exact fun t => rfl
    | cons w ws ih =>
        intro t
        rw [List.foldl_cons, ih, traceInfos_close]
  exact h s.sockets s

@[simp] theorem traceInfos_connect (fails : Bool) :
    (s.connect fails).traceInfos = s.traceInfos := by
  unfold connect onError
  split
  · split
    · rfl
    · simp only
      split <;> rfl
  · rfl

theorem traceInfos_run (fails : Bool) : (s.run fails).traceInfos = s.traceInfos := by
  unfold run
  split
  · rfl
  · split
    · exact traceInfos_connect _ fails
    · rfl
  · rfl
  · rfl

theorem traceInfos_onConnection (w : Nat) : (s.onConnection w).traceInfos = s.traceInfos := by
  unfold onConnection auth
  split
  · rfl
  · simp only
    split
    · rfl
    · exact traceInfos_wsSend _ _

theorem traceInfos_onAuthResult (w : Nat) (msg : Message) :
    (s.onAuthResult w msg).traceInfos = s.traceInfos := by
  unfold onAuthResult
  split
  · rfl
  · exact traceInfos_closeWs _

theorem traceInfos_recv (valid : Bool) : (s.recv valid).traceInfos = s.traceInfos := by
  have htake : (s.takeResp valid).traceInfos = s.traceInfos := by
    unfold takeResp
    split <;> rfl
  unfold recv
  split
  · split
    · rfl
    · exact htake
  · split
    · rfl
    · exact htake
  · exact htake

theorem traceInfos_pingIfDue : s.pingIfDue.traceInfos = s.traceInfos := by
  unfold pingIfDue
  split
  · exact traceInfos_wsSend _ _
  · rfl

theorem traceInfos_keepaliveReady (hasTraceInfo : Bool) :
    (s.keepaliveReady hasTraceInfo).traceInfos = s.traceInfos := by
  unfold keepaliveReady
  split
  · exact traceInfos_closeWs _
  · split
    · exact traceInfos_groupClose _
    · rfl

variable {s} {t : SpeechConnection}

theorem traceInfos_release (hst : s.release = some t) : t.traceInfos = s.traceInfos := by
  unfold release at hst
  split at hst
  · split at hst <;> cases hst <;> rfl
  · split at hst
    · cases hst
      exact traceInfos_groupClose _
    · cases hst
  · split at hst <;> cases hst
    rfl
  · split at hst <;> cases hst
    rfl
  · cases hst
    rfl
  · cases hst
    rfl

theorem traceInfos_sendStep {n : Nat} {timedOut : Bool} (hst : s.sendStep n timedOut = some t) :
    t.traceInfos = s.traceInfos := by
  have hwant : s.wantConnection.traceInfos = s.traceInfos := by
    unfold wantConnection
    split <;> rfl
  unfold sendStep at hst
  split at hst
  · cases hst
  · cases hst
  · split at hst <;> cases hst
    exact hwant
  · split at hst
    · split at hst
      · split at hst
        · cases hst
        · split at hst <;> cases hst
          rfl
      · cases hst
        rfl
    · cases hst
  · cases hst
    rfl
  · cases hst
    rfl
  · split at hst
    · cases hst
      exact traceInfos_wsSend _ _
    · cases hst
      rfl

theorem traceInfos_workStep {fails : Bool} (hst : s.workStep fails = some t) :
    t.traceInfos = s.traceInfos := by
  unfold workStep at hst
  cases hpc : s.work with
  | relock | waiting w =>
      simp only [hpc] at hst
      split at hst <;> cases hst
      rfl
  | locked =>
      simp only [hpc] at hst
      cases hst
      exact traceInfos_run s fails
  | onConnection w =>
      simp only [hpc] at hst
      split at hst <;> cases hst
      exact traceInfos_onConnection s w
  | authResult w msg =>
      simp only [hpc] at hst
      split at hst <;> cases hst
      exact traceInfos_onAuthResult s w msg
  | errorClose =>
      simp only [hpc] at hst
      split at hst
      · split at hst <;> cases hst
        · rfl
        · exact traceInfos_close s _
      · cases hst
  | running | deadlock | done =>
      simp only [hpc] at hst
      cases hst
  | _ =>
      simp only [hpc] at hst
      cases hst
      rfl

theorem traceInfos_hub {e : HubEvent} (hst : s.hub e = some t) : t.traceInfos = s.traceInfos := by
  unfold hub at hst
  split at hst
  · cases e with
    | connected | failed | message ws msg | disconnected ws | pong ws | finished =>
        simp only at hst
        split at hst <;> cases hst
        rfl
  · cases hst

end Unchanged

end SpeechConnection

/-! ### What is observed -/

/-- What happens to an info.  `send_trace_info` takes it at the time `tp`, finds `ws` in `ws_`
    and passes `sent` to the sockets. -/
inductive TraceEvent where
  | added (info : TraceInfo)
  | taken (info : TraceInfo) (tp : Int) (ws : Option Nat) (sent : List (Nat × Frame))
deriving DecidableEq, Repr

namespace SpeechConnection

/-- The frames of `send_trace_info`. -/
def traceFrames (s : SpeechConnection) : List (Nat × Frame) :=
  s.sendTraceInfo.frames.drop s.frames.length

/-- `send_trace_info` is called if the keepalive thread finds the stage READY. -/
def traceEvents (s : SpeechConnection) : ConnectionAct → List TraceEvent
  | .addTraceInfo info => [.added info]
  | .keepalive =>
      if s.keepalive = .locked ∧ s.stage = .ready then
        s.traceInfos.head?.toList.map fun info => .taken info s.wall s.ws s.traceFrames
      else []
  | _ => []

/-- A step of a connection whose trace infos are observed. -/
def reportStep : Traced SpeechConnection TraceEvent → ConnectionAct →
    Option (Traced SpeechConnection TraceEvent) :=
  Traced.step step traceEvents

/-- What `send_trace_info` puts into the ping. -/
def tracePayload (info : TraceInfo) (tp : Int) : PingPayload :=
  { reqId := info.id, nowTp := toMs tp, reqTp := toMs info.respTp, respTp := 0 }

variable {s t : SpeechConnection}

theorem traceFrames_eq {info : TraceInfo} {infos : List TraceInfo}
    (h : s.traceInfos = info :: infos) :
    s.traceFrames = s.ws.toList.map fun w => (w, .ping (some (tracePayload info s.wall))) := by
  rw [traceFrames, sendTraceInfo, h]
  cases hws : s.ws with
  | none => simp [wsSend]
  | some w =>
      simp [wsSend]
      rfl

theorem traceInfos_sendTraceInfo : s.sendTraceInfo.traceInfos = s.traceInfos.tail := by
  cases h : s.traceInfos with
  | nil => simp only [sendTraceInfo, h, List.tail_nil]
  | cons info infos => simp only [sendTraceInfo, h, traceInfos_wsSend, List.tail_cons]

theorem traceInfos_keepaliveStep (hst : s.keepaliveStep = some t) :
    t.traceInfos =
      if s.keepalive = .locked ∧ s.stage = .ready then s.traceInfos.tail else s.traceInfos := by
  unfold keepaliveStep at hst
  cases hpc : s.keepalive with
  | relock | waiting w =>
      simp only [hpc] at hst
      split at hst <;> cases hst
      rw [if_neg nofun]
      rfl
  | locked =>
      simp only [hpc] at hst
      cases hst
      unfold keepaliveRun
      by_cases hready : s.stage = .ready
      · rw [if_neg (by rw [hready]; nofun), if_pos hready, if_pos ⟨rfl, hready⟩,
          traceInfos_keepaliveReady, traceInfos_pingIfDue, traceInfos_sendTraceInfo]
      · have hnot : ¬ (KeepalivePc.locked = .locked ∧ s.stage = .ready) := fun h => hready h.2
        rw [if_neg hready, if_neg hnot]
        split <;> rfl
  | done =>
      simp only [hpc] at hst
      cases hst

/-- What a step does to the queue. -/
inductive TraceMove (s t : SpeechConnection) : List TraceEvent → Prop where
  | idle (h : t.traceInfos = s.traceInfos) : TraceMove s t []
  | add (info : TraceInfo) (h : t.traceInfos = (s.addTraceInfo info).traceInfos) :
      TraceMove s t [.added info]
  | take (info : TraceInfo) (h : s.traceInfos = info :: t.traceInfos) :
      TraceMove s t [.taken info s.wall s.ws s.traceFrames]

theorem step_traceMove {a : ConnectionAct} (hst : s.step a = some t) :
    TraceMove s t (s.traceEvents a) := by
  unfold step at hst
  split at hst
  · cases hst
  · cases a with
    | prepare options =>
        simp only [initializeConn] at hst
        split at hst <;> cases hst
        exact .idle rfl
    | release => exact .idle (traceInfos_release hst)
    | reconn =>
        simp only [reconn] at hst
        split at hst <;> cases hst
        exact .idle (traceInfos_closeWs _)
    | send n buf timeout =>
        simp only [send] at hst
        split at hst
        all_goals
          cases hst <;> exact .idle rfl
    | sender n timedOut => exact .idle (traceInfos_sendStep hst)
    | recv valid =>
        cases hst
        exact .idle (traceInfos_recv s valid)
    | addTraceInfo info =>
        cases hst
        exact .add info rfl
    | work fails => exact .idle (traceInfos_workStep hst)
    | hub e => exact .idle (traceInfos_hub hst)
    | keepalive =>
        have hinfos := traceInfos_keepaliveStep hst
        unfold traceEvents
        by_cases hready : s.keepalive = .locked ∧ s.stage = .ready
        · rw [if_pos hready] at hinfos ⊢
          cases hhead : s.traceInfos with
          | nil =>
              rw [hhead] at hinfos
              exact .idle (hinfos.trans hhead.symm)
          | cons info infos =>
              rw [hhead] at hinfos
              exact .take info (by rw [hhead, hinfos, List.tail_cons])
        · rw [if_neg hready] at hinfos ⊢
          exact .idle hinfos
    | tick ns =>
        cases hst
        exact .idle rfl
    | setClock tp =>
        cases hst
        exact .idle rfl

end SpeechConnection

/-! ### What the statistics are to say -/

namespace TraceEvent

open SpeechConnection

/-- The call of the queue. -/
def call : TraceEvent → DropOldest.Call TraceInfo
  | added info => .add info
  | taken info _ _ _ => .take info

/-- The info goes to a socket, in one ping whose payload tells its id and its times. -/
def Reported : TraceEvent → Prop
  | added _ => True
  | taken info tp _ sent => ∃ w pp, sent = [(w, .ping (some pp))] ∧ pp.serialize.1 = true ∧
      Proto.PingPayload.decode pp.serialize.2 =
        some ⟨.ofInt 32 info.id, toMs tp, toMs info.reqTp, toMs info.respTp⟩

/-- `sent` is what `send_trace_info` sends. -/
def Genuine : TraceEvent → Prop
  | added _ => True
  | taken info tp ws sent =>
      sent = ws.toList.map fun w => (w, .ping (some (tracePayload info tp)))

end TraceEvent

/-- What has happened, and what is still pending. -/
structure FaithfulReports (trace : List TraceEvent) (pending : List TraceInfo) : Prop where
  /-- The infos come and go as in a queue that drops the oldest of more than 128. -/
  queue : Accepts SpeechConnection.maxPendingTraceInfos (trace.map TraceEvent.call) pending
  sublist : (takes (trace.map TraceEvent.call) ++ pending).Sublist
    (adds (trace.map TraceEvent.call))
  /-- Whatever leaves the queue is reported. -/
  reported : ∀ e ∈ trace, e.Reported

namespace SpeechConnection

/-- What holds of every run. -/
structure Queued (u : Traced SpeechConnection TraceEvent) : Prop where
  queue : Accepts maxPendingTraceInfos (u.trace.map TraceEvent.call) u.state.traceInfos
  genuine : ∀ e ∈ u.trace, e.Genuine

/-- `add_trace_info` is what the queue does. -/
theorem traceInfos_addTraceInfo {s : SpeechConnection} (info : TraceInfo)
    (h : s.traceInfos.length ≤ maxPendingTraceInfos) :
    (s.addTraceInfo info).traceInfos = push maxPendingTraceInfos s.traceInfos info := by
  simp only [addTraceInfo, List.length_append, List.length_singleton]
  split
  · rw [push_of_length_eq (by omega)]
  · rw [push_of_lt (by omega)]

theorem Queued.step {u v : Traced SpeechConnection TraceEvent} {a : ConnectionAct}
    (h : Queued u) (hst : reportStep u a = some v) : Queued v := by
  obtain ⟨hstep, htrace⟩ := Traced.step_eq_some.mp hst
  have hmove := step_traceMove hstep
  generalize u.state.traceEvents a = events at htrace hmove
  cases hmove with
  | idle heq =>
      rw [List.append_nil] at htrace
      exact ⟨by rw [htrace, heq]; exact h.queue, by rw [htrace]; exact h.genuine⟩
  | add info heq =>
      refine ⟨?_, ?_⟩
      · rw [htrace, List.map_append, heq, traceInfos_addTraceInfo info h.queue.length_le]
        exact h.queue.add info
      · rw [htrace]
        exact List.forall_mem_append.mpr ⟨h.genuine, List.forall_mem_singleton.mpr trivial⟩
  | take info heq =>
      refine ⟨?_, ?_⟩
      · have hqueue := h.queue
        rw [heq] at hqueue
        rw [htrace, List.map_append]
        exact hqueue.take
      · rw [htrace]
        exact List.forall_mem_append.mpr
          ⟨h.genuine, List.forall_mem_singleton.mpr (traceFrames_eq heq)⟩

/-- The connection has ended, but the stage still is READY: the info is taken and not sent. -/
theorem info_lost :
    ∃ u, Run (fun u a v => reportStep u a = some v) Always ⟨{}, []⟩ u ∧
      u.trace = [.added ⟨7, 0, 0⟩, .taken ⟨7, 0, 0⟩ 0 none []] ∧
      u.state.traceInfos = [] ∧ ¬ FaithfulReports u.trace u.state.traceInfos := by
  have hexec : (exec reportStep ⟨{}, []⟩ (answered ++ [.work false, .addTraceInfo ⟨7, 0, 0⟩,
      .hub (.disconnected 0), .keepalive, .keepalive])).map
        (fun u => (u.trace, u.state.traceInfos)) =
      some ([.added ⟨7, 0, 0⟩, .taken ⟨7, 0, 0⟩ 0 none []], []) := by decide +kernel
  obtain ⟨u, hu, heq⟩ := Option.map_eq_some_iff.mp hexec
  obtain ⟨htrace, hinfos⟩ := Prod.mk.inj heq
  refine ⟨u, Run.of_exec (allOk_always _ _) hu, htrace, hinfos, ?_⟩
  intro h
  obtain ⟨w, pp, hsent, _⟩ := h.reported (.taken ⟨7, 0, 0⟩ 0 none []) (by rw [htrace]; simp)
  cases hsent

end SpeechConnection

end OpenVoice
