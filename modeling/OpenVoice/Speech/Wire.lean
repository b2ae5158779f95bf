import OpenVoice.Lib.Traced
import OpenVoice.Speech.Requests
import OpenVoice.StreamQueue.Ledger

/-!
# What `send_reqs` sees of the voice requests

The events here are those by which the chunks of a voice request can be followed from `put_voice`
to `connection_.send`.  `Accounts` says that the queue between the two neither reorders nor repeats
chunks, and loses some only if a client cancels the request or the request is dropped.
-/

namespace OpenVoice

open OpenVoice.Lib

inductive WireEvent where
  /-- `put_voice` has queued a piece -/
  | accepted (id : Int) (voice : Bytes)
  /-- `send_reqs` has popped a piece -/
  | taken (id : Int) (voice : Sp Bytes)
  /-- `cancel` has removed what is queued of a voice request -/
  | cancelled (id : Int)
  /-- `erase_req` or `release` has -/
  | dropped (id : Int)
  /-- `connection_.send` was called -/
  | handed (req : SpeechRequest)
deriving DecidableEq, Repr

namespace Wire

/-- The chunks accepted from `put_voice` for a voice request. -/
def accepted (id : Int) (tr : List WireEvent) : List (Sp Bytes) :=
  tr.filterMap fun
    | .accepted i voice => if i = id then some (some voice) else none
    | _ => none

def taken (id : Int) (tr : List WireEvent) : List (Sp Bytes) :=
  tr.filterMap fun
    | .taken i voice => if i = id then some voice else none
    | _ => none

/-- The requests handed to `connection_.send`. -/
def handed (tr : List WireEvent) : List SpeechRequest :=
  tr.filterMap fun
    | .handed req => some req
    | _ => none

/-- Something of the voice request has been removed from the queue unserved. -/
def Lost (tr : List WireEvent) (id : Int) : Prop := .cancelled id ∈ tr ∨ .dropped id ∈ tr

section

variable (id : Int) (tr tr' : List WireEvent)

@[simp] theorem accepted_append :
    accepted id (tr ++ tr') = accepted id tr ++ accepted id tr' := List.filterMap_append

@[simp] theorem taken_append : taken id (tr ++ tr') = taken id tr ++ taken id tr' :=
  List.filterMap_append

@[simp] theorem handed_append : handed (tr ++ tr') = handed tr ++ handed tr' :=
  List.filterMap_append

end

/-- Events that do not touch the queue. -/
def Outside (es : List WireEvent) : Prop := ∀ e ∈ es, ∃ req, e = .handed req

theorem Outside.nil : Outside [] := by
  intro e he
  cases he

theorem Outside.handed (req : SpeechRequest) : Outside [.handed req] := by
  intro e he
  exact ⟨req, List.mem_singleton.mp he⟩

section Outside

variable {es : List WireEvent} (h : Outside es)

include h

theorem Outside.accepted (id : Int) : accepted id es = [] := by
  apply List.filterMap_eq_nil_iff.mpr
  intro e he
  obtain ⟨req, rfl⟩ := h e he
  rfl

theorem Outside.taken (id : Int) : taken id es = [] := by
  apply List.filterMap_eq_nil_iff.mpr
  intro e he
  obtain ⟨req, rfl⟩ := h e he
  rfl

theorem Outside.not_dropped {id : Int} : .dropped id ∉ es := by
  intro hmem
  obtain ⟨req, heq⟩ := h _ hmem
  cases heq

end Outside

end Wire

namespace SpeechImpl

open Wire

/-! ### Observing the steps -/

/-- The pieces `voice_reqs_.stream` takes, one after the other. -/
def acceptedPieces (id : Int) : List Bytes → Streams Bytes VoiceOptions → List Bytes
  | [], _ => []
  | piece :: pieces, q =>
      let r := q.stream id (some piece)
      if r.1 then piece :: acceptedPieces id pieces r.2 else acceptedPieces id pieces r.2

/-- The voice requests `cancel` removes. -/
def removed (id : Int) (s : SpeechImpl) : List Int :=
  if !s.initialized then []
  else if 0 < id then (if id ∈ Fifo.ids s.voiceReqs.records then [id] else [])
  else Fifo.ids s.voiceReqs.records

/-- The voice request `erase_req` removes. -/
def erased (id : Int) (s : SpeechImpl) : List Int :=
  if id ∈ Fifo.ids s.voiceReqs.records then [id] else []

def clientEvents (n : Nat) (s : SpeechImpl) : List WireEvent :=
  match s.clients n with
  | .putVoice id voice =>
      (acceptedPieces id (cut (s.fragmentSize voice) voice.length voice) s.voiceReqs).map
        (.accepted id)
  | .cancel id => (s.removed id).map .cancelled
  | _ => []

def sendEvents (s : SpeechImpl) : List WireEvent :=
  match s.send with
  | .loop =>
      let p := (s.voiceReqs.pop voiceArgs).1
      if s.initialized = true ∧ p.1 = .data then [.taken p.2.id p.2.res] else []
  | .request info => [.handed (info.treq s.options)]
  | .eraseReq id => (s.erased id).map .dropped
  | _ => []

def genEvents (s : SpeechImpl) : List WireEvent :=
  match s.gen with
  | .eraseReq id => (s.erased id).map .dropped
  | _ => []

def releaseEvents (s : SpeechImpl) : List WireEvent :=
  if s.releasing = .closing then (Fifo.ids s.voiceReqs.records).map .dropped else []

/-- What is observed in a step. -/
def wireEvents (s : SpeechImpl) : SpeechAct → List WireEvent
  | .client n => s.clientEvents n
  | .send _ => s.sendEvents
  | .gen _ _ => s.genEvents
  | .release => s.releaseEvents
  | _ => []

/-! ### The accounts of `voice_reqs_` -/

/-- **The accounts of the voice requests.** -/
def Accounts (tr : List WireEvent) (q : Streams Bytes VoiceOptions) : Prop :=
  Fifo.Ledger (fun id => accepted id tr) (fun id => taken id tr) (Lost tr) q.records

namespace Accounts

variable {tr es : List WireEvent} {q q' : Streams Bytes VoiceOptions}

theorem empty : Accounts [] (.empty : Streams Bytes VoiceOptions) := by
  unfold Accounts
  rw [Streams.records_empty]
  exact .nil

/-- The ledger is kept under the names of the events. -/
theorem of_ledger {rs : List (Record Bytes VoiceOptions)} {acc srv : Int → List (Sp Bytes)}
    {L : Int → Prop} (h : Fifo.Ledger acc srv L rs) (hrec : q.records = rs)
    (hacc : ∀ id, accepted id tr = acc id) (hsrv : ∀ id, taken id tr = srv id)
    (hlost : ∀ id, L id → Lost tr id) : Accounts tr q := by
  obtain rfl : (fun id => accepted id tr) = acc := funext hacc
  obtain rfl : (fun id => taken id tr) = srv := funext hsrv
  unfold Accounts
  rw [hrec]
  exact { h with whole := fun id hid => h.whole id fun hl => hid (hlost id hl) }

theorem Lost_mono {id : Int} (h : Lost tr id) : Lost (tr ++ es) id :=
  h.imp (List.mem_append_left _) (List.mem_append_left _)

theorem outside (h : Accounts tr q) (hes : Outside es) : Accounts (tr ++ es) q := by
  apply of_ledger h rfl
  · intro id
    rw [accepted_append, hes.accepted, List.append_nil]
  · intro id
    rw [taken_append, hes.taken, List.append_nil]
  · exact fun _ => Lost_mono

theorem start (h : Accounts tr q) {id : Int} (hnew : accepted id tr = []) :
    Accounts tr (q.start id).2 := by
  unfold Accounts
  rw [Streams.start_records]
  exact Fifo.Ledger.start h hnew

theorem setArg (h : Accounts tr q) (id : Int) (a : Sp VoiceOptions) :
    Accounts tr (q.setArg id a) := by
  unfold Accounts
  rw [Streams.setArg_records]
  exact Fifo.Ledger.setArg h id a

theorem end_ (h : Accounts tr q) (id : Int) (d : Sp Bytes) : Accounts tr (q.end_ id d).2 := by
  unfold Accounts
  rw [Streams.end_records]
  exact Fifo.Ledger.end_ h id d

/-- One piece. -/
theorem stream (h : Accounts tr q) (id : Int) (piece : Bytes) :
    Accounts (tr ++ if (q.stream id (some piece)).1 then [.accepted id piece] else [])
      (q.stream id (some piece)).2 := by
  have hled := Fifo.Ledger.stream h q.ids_nodup id (some piece)
  rw [← Streams.stream_fst] at hled
  apply of_ledger hled (Streams.stream_records q id _)
  · intro x
    rw [accepted_append]
    cases hret : (q.stream id (some piece)).1 with
    | false => simp [accepted]
    | true =>
        by_cases hid : id = x
        · simp [accepted, hid]
        · simp [accepted, hid]
  · intro x
    rw [taken_append]
    split
    · simp [taken]
    · simp [taken]
  · exact fun _ => Lost_mono

/-- The pieces of one `put_voice`. -/
theorem pieces (id : Int) (ps : List Bytes) (h : Accounts tr q) :
    Accounts (tr ++ (acceptedPieces id ps q).map (.accepted id))
      (ps.foldl (fun q piece => (q.stream id (some piece)).2) q) := by
  induction ps generalizing tr q with
  | nil =>
      rw [acceptedPieces, List.map_nil, List.append_nil]
      exact h
  | cons piece ps ih =>
      have hrest := ih (h.stream id piece)
      rw [List.foldl_cons]
      unfold acceptedPieces
      simp only
      split
      · rename_i hret
        rw [if_pos hret] at hrest
        simpa using hrest
      · rename_i hret
        rw [if_neg hret] at hrest
        simpa using hrest

theorem not_accepted_map {ids : List Int} {f : Int → WireEvent}
    (hf : f = .cancelled ∨ f = .dropped) (id : Int) :
    accepted id (ids.map f) = [] ∧ taken id (ids.map f) = [] := by
  constructor
  · apply List.filterMap_eq_nil_iff.mpr
    intro e he
    obtain ⟨i, -, rfl⟩ := List.mem_map.mp he
    rcases hf with rfl | rfl
    · rfl
    · rfl
  · apply List.filterMap_eq_nil_iff.mpr
    intro e he
    obtain ⟨i, -, rfl⟩ := List.mem_map.mp he
    rcases hf with rfl | rfl
    · rfl
    · rfl

theorem Lost_of_mem {ids : List Int} {f : Int → WireEvent} (hf : f = .cancelled ∨ f = .dropped)
    {id : Int} (h : id ∈ ids) : Lost (tr ++ ids.map f) id := by
  have hmem : f id ∈ tr ++ ids.map f :=
    List.mem_append_right _ (List.mem_map.mpr ⟨id, h, rfl⟩)
  rcases hf with rfl | rfl
  · exact .inl hmem
  · exact .inr hmem

/-- Streams lose what they hold, and are reported. -/
theorem lose {ids : List Int} {f : Int → WireEvent} (hf : f = .cancelled ∨ f = .dropped)
    (h : Fifo.Ledger (fun id => accepted id tr) (fun id => taken id tr) (Lost (tr ++ ids.map f))
      q'.records) : Accounts (tr ++ ids.map f) q' := by
  apply of_ledger h rfl
  · intro id
    rw [accepted_append, (not_accepted_map hf id).1, List.append_nil]
  · intro id
    rw [taken_append, (not_accepted_map hf id).2, List.append_nil]
  · exact fun _ hl => hl

theorem erase (h : Accounts tr q) {ids : List Int} {f : Int → WireEvent}
    (hf : f = .cancelled ∨ f = .dropped) {id : Int} (hid : id ∈ Fifo.ids q.records → id ∈ ids)
    (err : BitVec 32) : Accounts (tr ++ ids.map f) (q.erase id err).2 := by
  apply lose hf
  rw [Streams.erase_records]
  exact Fifo.Ledger.erase h (fun _ => Lost_mono) fun hmem => Lost_of_mem hf (hid hmem)

theorem clear (h : Accounts tr q) :
    Accounts (tr ++ (Fifo.ids q.records).map .cancelled) q.clear.2 := by
  apply lose (.inl rfl)
  rw [Streams.clear_records]
  exact Fifo.Ledger.clear h (fun _ => Lost_mono) fun _ hmem => Lost_of_mem (.inl rfl) hmem

theorem close (h : Accounts tr q) :
    Accounts (tr ++ (Fifo.ids q.records).map .dropped) q.close := by
  apply lose (.inr rfl)
  rw [Streams.close_records]
  exact Fifo.Ledger.close h (fun _ => Lost_mono) fun _ hmem => Lost_of_mem (.inr rfl) hmem

theorem pop (h : Accounts tr q) (out : PopArgs Bytes) :
    Accounts (tr ++ if (q.pop out).1.1 = .data then
      [.taken (q.pop out).1.2.id (q.pop out).1.2.res] else []) (q.pop out).2 := by
  have hled := Fifo.Ledger.pop h q.ids_nodup out
  obtain ⟨t, out', q', hpop, hfifo⟩ := q.pop_eq out
  rw [hfifo] at hled
  rw [hpop]
  apply of_ledger hled rfl
  · intro id
    rw [accepted_append]
    split
    · simp [accepted]
    · simp [accepted]
  · intro id
    rw [taken_append]
    unfold Fifo.taken
    by_cases ht : t = .data
    · by_cases hid : out'.id = id
      · simp [taken, ht, hid]
      · simp [taken, ht, hid]
    · simp [taken, ht]
  · exact fun _ => Lost_mono

end Accounts

end SpeechImpl

end OpenVoice
