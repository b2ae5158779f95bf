import OpenVoice.Connection.Mailbox
import OpenVoice.Lib.CString
import OpenVoice.OpCtl.Script
import OpenVoice.OpCtl.Works
import OpenVoice.Service.Moves

/-!
# From the messages of the server to the responses a client handles

`recv` takes a message out of `responses_`, parses it, and returns; `gen_results` then handles the
response.  What `gen_results` handles is what the server has sent, in the same order, but for the
messages that cannot be parsed.
-/

namespace OpenVoice

open OpenVoice.Lib

/-- A `std::string` as a text: a character for each byte. -/
def stdString (s : Bytes) : String := String.ofList (s.map fun b => Char.ofNat b.toNat)

/-- No two texts are confused. -/
theorem ascii_stdString (s : Bytes) : ascii (stdString s) = s := by
  have hbyte : ∀ b : BitVec 8, BitVec.ofNat 8 (Char.ofNat b.toNat).toNat = b := by decide +kernel
  rw [ascii, stdString, String.toList_ofList, List.map_map]
  exact List.map_id'' hbyte s

namespace SpeechConnection

variable {s : SpeechConnection}

/-- The message `recv` takes next. -/
def front (s : SpeechConnection) : Option Bytes :=
  match s.responses with
  | [] => none
  | resp :: _ => if resp.type = .data then some (resp.data.take resp.length.toNat) else none

/-- The messages `recv` has returned. -/
def returned (trace : List MailEvent) : List Bytes :=
  trace.filterMap fun e =>
    match e with
    | .received data => some data
    | .arrived _ | .dropped _ => none

@[simp] theorem returned_append (trace trace' : List MailEvent) :
    returned (trace ++ trace') = returned trace ++ returned trace' := List.filterMap_append

/-- They are among those that have arrived, in the same order. -/
theorem returned_sublist_departures (trace : List MailEvent) :
    (returned trace).Sublist (departures trace) := by
  induction trace with
  | nil => exact .refl _
  | cons e trace ih =>
      cases e with
      | arrived data => exact ih
      | received data => exact ih.cons_cons data
      | dropped mail => exact ih.trans (List.sublist_append_right mail _)

/-- `recv` returns a message, SUCCESS if it has been parsed, or something else. -/
theorem recv_returned {valid : Bool} {r : ConnectionOpResult} {data : Bytes}
    (h : (s.recv valid).receiver = .returned r data) :
    (s.front = some data ∧ r = (if valid then .success else .invalidPbData)) ∨
      (s.front = none ∧ r ≠ .success ∧ (s.recv valid).receiver.data = []) := by
  have htake : (s.takeResp valid).receiver = .returned r data →
      (s.front = some data ∧ r = (if valid then .success else .invalidPbData)) ∨
        (s.front = none ∧ r ≠ .success ∧ (s.takeResp valid).receiver.data = []) := by
    intro h
    cases hresp : s.responses with
    | nil =>
        simp only [takeResp, hresp] at h
        cases h
        refine .inr ⟨?_, by simp, ?_⟩
        · simp only [front, hresp]
        · simp only [takeResp, hresp]
          rfl
    | cons resp responses =>
        obtain ⟨type, length, bytes⟩ := resp
        simp only [takeResp, hresp] at h
        cases h
        simp only [front, takeResp, hresp]
        cases type with
        | data => exact .inl ⟨rfl, rfl⟩
        | error => exact .inr ⟨rfl, by simp, rfl⟩
        | closed => exact .inr ⟨rfl, by simp, rfl⟩
  unfold SpeechConnection.recv at h ⊢
  split at h
  · split at h
    · cases h
    · rename_i hresp
      rw [if_neg hresp]
      exact htake h
  · split at h
    · cases h
    · rename_i hresp
      rw [if_neg hresp]
      exact htake h
  · exact htake h

/-- While `recv` waits nothing has been returned. -/
theorem recv_data_of_waiting {valid : Bool}
    (h : ∀ r data, (s.recv valid).receiver ≠ .returned r data) :
    (s.recv valid).receiver.data = [] := by
  unfold RecvPc.data
  split
  · rename_i data hpc
    exact absurd hpc (h _ _)
  · rename_i data hpc
    exact absurd hpc (h _ _)
  · rfl

/-- Only `recv` returns messages. -/
theorem returned_mailEvents {a : ConnectionAct} (h : ∀ valid, a ≠ .recv valid) :
    returned (s.mailEvents a) = [] := by
  unfold mailEvents
  split
  · split <;> rfl
  · exact absurd rfl (h _)
  · split <;> rfl
  · rfl

end SpeechConnection

/-- How a client handles what `recv` returns.  `holds` is the response that `recv` has returned with
    SUCCESS and `gen_results` has not handled; `hears` is the one that it handles in a step, with the
    operation that it is for, if there is one.  `joined` is an invariant of the client, `ok` a
    condition on its calls. -/
structure Listener {σ α ρ E : Type} [Inhabited E] (C : ServiceClient σ α ρ E) where
  ok : σ → α → Prop
  joined : σ → Prop
  holds : σ → List ρ
  hears : σ → α → List (Option Nat × ρ)
  id : ρ → Int
  opened_joined : joined C.opened
  opened_holds : holds C.opened = []
  opened_controller : C.controller C.opened = .init
  ok_called : ∀ s {a}, C.role a ≠ .prepare → C.role a ≠ .other → ok s a
  step_joined : ∀ {s a t}, C.step s a = some t → joined s → joined t
  taken : ∀ {s r resp t}, C.step s (C.gen r resp) = some t → C.receives s = true →
    holds s = [] ∧ holds t = (if r = .success then [resp] else []) ∧ hears s (C.gen r resp) = []
  handled : ∀ {s a t}, joined s → C.step s a = some t → ¬ (C.role a = .gen ∧ C.receives s = true) →
    holds s = (hears s a).map Prod.snd ++ holds t
  quiet : ∀ {s a}, C.role a ≠ .gen → hears s a = []
  current : ∀ {s a} {x : Nat} {resp : ρ}, (some x, resp) ∈ hears s a →
    (C.controller s).currentOp = some x ∧ ((C.controller s).heap x).id = id resp
  works : ∀ {s a t}, C.step s a = some t →
    ∃ now, OpCtl.Works now (C.controller s) (C.controller t)

/-- The responses that were for an operation. -/
def addressed {ρ : Type} (l : List (Option Nat × ρ)) : List (Nat × ρ) :=
  l.filterMap fun e => e.1.map (·, e.2)

theorem addressed_append {ρ : Type} (l l' : List (Option Nat × ρ)) :
    addressed (l ++ l') = addressed l ++ addressed l' := List.filterMap_append

namespace Service

open SpeechConnection

variable {σ α ρ E : Type} [Inhabited E] {C : ServiceClient σ α ρ E} (L : Listener C)

/-- What comes into `responses_` and what goes out. -/
def mailEvents (C : ServiceClient σ α ρ E) (s : Service σ) : ServiceAct α ρ → List MailEvent
  | .release => if C.closing s.client then s.conn.mailEvents .release else []
  | .recv valid _ => s.conn.mailEvents (.recv valid)
  | .conn a => if own a then s.conn.mailEvents a else []
  | .prepare _ | .request _ | .sender _ | .client _ | .tick _ => []

/-- What `gen_results` handles. -/
def hears (s : Service σ) : ServiceAct α ρ → List (Option Nat × ρ)
  | .client a => L.hears s.client a
  | _ => []

/-- What is observed: messages and responses. -/
abbrev Sound (ρ : Type) := MailEvent ⊕ (Option Nat × ρ)

def observe (s : Service σ) (a : ServiceAct α ρ) : List (Sound ρ) :=
  (mailEvents C s a).map .inl ++ (hears L s a).map .inr

def mail (trace : List (Sound ρ)) : List MailEvent := trace.filterMap Sum.getLeft?

def heard (trace : List (Sound ρ)) : List (Option Nat × ρ) := trace.filterMap Sum.getRight?

@[simp] theorem mail_observe (trace : List (Sound ρ)) (s : Service σ) (a : ServiceAct α ρ) :
    mail (trace ++ observe L s a) = mail trace ++ mailEvents C s a := by
  simp [mail, observe, List.filterMap_append, List.filterMap_map, Function.comp_def]

@[simp] theorem heard_observe (trace : List (Sound ρ)) (s : Service σ) (a : ServiceAct α ρ) :
    heard (trace ++ observe L s a) = heard trace ++ hears L s a := by
  simp [heard, observe, List.filterMap_append, List.filterMap_map, Function.comp_def]

variable {parse : Bytes → Option ρ}

/-- `recv` parses the message that it takes; the other threads keep to the condition of the
    client. -/
def Parses (C : ServiceClient σ α ρ E) (ok : σ → α → Prop) (parse : Bytes → Option ρ)
    (s : Service σ) : ServiceAct α ρ → Prop
  | .recv valid resp =>
      match s.conn.front with
      | some data => parse data = if valid then some resp else none
      | none => True
  | .client a => ok s.client a
  | .prepare _ => ok s.client C.prepare
  | _ => True

instance {ok : σ → α → Prop} [∀ s a, Decidable (ok s a)] [DecidableEq ρ] (s : Service σ)
    (a : ServiceAct α ρ) : Decidable (Parses C ok parse s a) := by
  cases a with
  | recv valid resp =>
      unfold Parses
      cases s.conn.front with
      | some data => exact inferInstanceAs (Decidable (_ = _))
      | none => exact .isTrue trivial
  | client a => exact inferInstanceAs (Decidable (ok s.client a))
  | prepare options => exact inferInstanceAs (Decidable (ok s.client C.prepare))
  | _ => exact .isTrue trivial

omit [Inhabited E] in
theorem Parses.mono {ok ok' : σ → α → Prop} (hsub : ∀ s a, ok s a → ok' s a) {s : Service σ}
    {a : ServiceAct α ρ} (h : Parses C ok parse s a) : Parses C ok' parse s a := by
  cases a with
  | client a => exact hsub _ _ h
  | prepare options => exact hsub _ _ h
  | _ => exact h

/-- The steps of the service, with what is observed in them. -/
def ListenSteps (u : Traced (Service σ) (Sound ρ)) (a : ServiceAct α ρ)
    (v : Traced (Service σ) (Sound ρ)) : Prop :=
  Traced.step (step C) (observe L) u a = some v

variable {L} {s t : Service σ}

/-! ### The steps of the two -/

/-- What the client does in a step of the service. -/
inductive Acts (C : ServiceClient σ α ρ E) (s : Service σ) : ServiceAct α ρ → α → Prop where
  | client {b : α} (halone : C.alone s.client b = true) : Acts C s (.client b) b
  | prepare (options : PrepareOptions) : Acts C s (.prepare options) C.prepare
  | release : Acts C s .release C.release
  | request (buf : Option Bytes) (r : ConnectionOpResult) : Acts C s (.request buf) (C.send r)
  | sender (timedOut : Bool) (r : ConnectionOpResult) : Acts C s (.sender timedOut) (C.send r)
  | recv {valid : Bool} {resp : ρ} {r : ConnectionOpResult} {data : Bytes}
      (hrecv : C.receives s.client = true)
      (hret : (s.conn.recv valid).receiver = .returned r data) :
      Acts C s (.recv valid resp) (C.gen r resp)
  | tick (ns : Nat) : Acts C s (.tick ns) (C.tick ns)

/-- The connection takes a step, in which what comes in and goes out comes and goes. -/
def ConnActs (C : ServiceClient σ α ρ E) (s : Service σ) (a : ServiceAct α ρ)
    (t : Service σ) : Prop :=
  (t.conn = s.conn ∧ mailEvents C s a = []) ∨
    ∃ b, s.conn.step b = some t.conn ∧ mailEvents C s a = s.conn.mailEvents b

/-- The client takes a step, or `recv` waits, or it has nothing to do with it. -/
def ClientActs (C : ServiceClient σ α ρ E) (s : Service σ) (a : ServiceAct α ρ)
    (t : Service σ) : Prop :=
  (t.client = s.client ∧ (∀ b, a ≠ .client b) ∧ ∀ valid resp, a = .recv valid resp →
    ∀ r data, (s.conn.recv valid).receiver ≠ .returned r data) ∨
    ∃ b, C.step s.client b = some t.client ∧ Acts C s a b

omit [Inhabited E] in
/-- **One step** is a step of one, or of both. -/
theorem step_parts {a : ServiceAct α ρ} (h : s.step C a = some t) :
    ConnActs C s a t ∧ ClientActs C s a t := by
  unfold Service.step at h
  split at h
  · cases h
  · rename_i hcrash
    cases a with
    | prepare options =>
        simp only [Service.prepare] at h
        split at h
        · obtain ⟨c, hc, rfl⟩ := Option.map_eq_some_iff.mp h
          exact ⟨.inl ⟨rfl, rfl⟩, .inr ⟨_, hc, .prepare options⟩⟩
        · obtain ⟨conn, hconn, h⟩ := Option.bind_eq_some_iff.mp h
          obtain ⟨c, hc, h⟩ := Option.bind_eq_some_iff.mp h
          cases h
          exact ⟨.inr ⟨_, hconn, rfl⟩, .inr ⟨_, hc, .prepare options⟩⟩
    | release =>
        simp only [Service.release] at h
        split at h
        · rename_i hclosing
          obtain ⟨conn, hconn, h⟩ := Option.bind_eq_some_iff.mp h
          split at h
          · obtain ⟨c, hc, rfl⟩ := Option.map_eq_some_iff.mp h
            exact ⟨.inr ⟨_, hconn, if_pos hclosing⟩, .inr ⟨_, hc, .release⟩⟩
          · cases h
            exact ⟨.inr ⟨_, hconn, if_pos hclosing⟩, .inl ⟨rfl, by simp, by simp⟩⟩
        · rename_i hclosing
          obtain ⟨c, hc, rfl⟩ := Option.map_eq_some_iff.mp h
          exact ⟨.inl ⟨rfl, if_neg hclosing⟩, .inr ⟨_, hc, .release⟩⟩
    | request buf =>
        obtain ⟨timeout, htime, h⟩ := Option.bind_eq_some_iff.mp h
        obtain ⟨conn, hconn, h⟩ := Option.bind_eq_some_iff.mp h
        obtain ⟨c, hc, h⟩ := Option.bind_eq_some_iff.mp h
        cases h
        exact ⟨.inr ⟨_, hconn, rfl⟩, .inr ⟨_, hc, .request buf _⟩⟩
    | sender timedOut =>
        obtain ⟨id, hid, h⟩ := Option.bind_eq_some_iff.mp h
        split at h
        · obtain ⟨c, hc, rfl⟩ := Option.map_eq_some_iff.mp h
          exact ⟨.inl ⟨rfl, rfl⟩, .inr ⟨_, hc, .sender timedOut _⟩⟩
        · obtain ⟨conn, hconn, h⟩ := Option.bind_eq_some_iff.mp h
          split at h
          · obtain ⟨c, hc, h⟩ := Option.bind_eq_some_iff.mp h
            cases h
            exact ⟨.inr ⟨_, hconn, rfl⟩, .inr ⟨_, hc, .sender timedOut _⟩⟩
          · cases h
            exact ⟨.inr ⟨_, hconn, rfl⟩, .inl ⟨rfl, by simp, by simp⟩⟩
          · cases h
            exact ⟨.inr ⟨_, hconn, rfl⟩, .inl ⟨rfl, by simp, by simp⟩⟩
    | recv valid resp =>
        simp only [Service.recv] at h
        split at h
        · rename_i hrecv
          obtain ⟨conn, hconn, h⟩ := Option.bind_eq_some_iff.mp h
          have hconn' : s.conn.recv valid = conn := by
            unfold SpeechConnection.step at hconn
            rw [if_neg hcrash] at hconn
            exact Option.some.inj hconn
          split at h
          · rename_i r data hret
            obtain ⟨c, hc, h⟩ := Option.bind_eq_some_iff.mp h
            cases h
            refine ⟨.inr ⟨_, by simpa [setClient] using hconn, rfl⟩, .inr ⟨_, hc, ?_⟩⟩
            exact .recv hrecv (by rw [hconn', hret])
          · rename_i hwait
            cases h
            refine ⟨.inr ⟨_, hconn, rfl⟩, .inl ⟨rfl, by simp, ?_⟩⟩
            rintro valid' resp' heq r data hret
            cases heq
            rw [hconn'] at hret
            exact hwait r data hret
        · cases h
    | client a =>
        simp only at h
        split at h
        · rename_i halone
          obtain ⟨c, hc, rfl⟩ := Option.map_eq_some_iff.mp h
          exact ⟨.inl ⟨rfl, rfl⟩, .inr ⟨_, hc, .client halone⟩⟩
        · cases h
    | conn a =>
        simp only at h
        split at h
        · rename_i hown
          obtain ⟨c, hc, rfl⟩ := Option.map_eq_some_iff.mp h
          exact ⟨.inr ⟨_, hc, if_pos hown⟩, .inl ⟨rfl, by simp, by simp⟩⟩
        · cases h
    | tick ns =>
        obtain ⟨conn, hconn, h⟩ := Option.bind_eq_some_iff.mp h
        obtain ⟨c, hc, h⟩ := Option.bind_eq_some_iff.mp h
        cases h
        exact ⟨.inr ⟨_, hconn, rfl⟩, .inr ⟨_, hc, .tick ns⟩⟩

/-- The client keeps to its condition. -/
theorem Acts.ok {a : ServiceAct α ρ} {b : α} (hacts : Acts C s a b) (h : Parses C L.ok parse s a) :
    L.ok s.client b := by
  cases hacts with
  | client halone => exact h
  | prepare options => exact h
  | release => exact L.ok_called _ (by simp [C.role_release]) (by simp [C.role_release])
  | request buf r => exact L.ok_called _ (by simp [C.role_send]) (by simp [C.role_send])
  | sender timedOut r => exact L.ok_called _ (by simp [C.role_send]) (by simp [C.role_send])
  | recv hrecv hret => exact L.ok_called _ (by simp [C.role_gen]) (by simp [C.role_gen])
  | tick ns => exact L.ok_called _ (by simp [C.role_tick]) (by simp [C.role_tick])

/-- What is heard in a step is heard by the client. -/
theorem Acts.hears {a : ServiceAct α ρ} {b : α} (hacts : Acts C s a b)
    (hst : C.step s.client b = some t.client) : Service.hears L s a = L.hears s.client b := by
  cases hacts with
  | client halone => rfl
  | prepare options => exact (L.quiet (by simp [C.role_prepare])).symm
  | release => exact (L.quiet (by simp [C.role_release])).symm
  | request buf r => exact (L.quiet (by simp [C.role_send])).symm
  | sender timedOut r => exact (L.quiet (by simp [C.role_send])).symm
  | recv hrecv hret => exact (L.taken hst hrecv).2.2.symm
  | tick ns => exact (L.quiet (by simp [C.role_tick])).symm

omit [Inhabited E] in
/-- Nothing is returned in a step that is not of `gen_results`. -/
theorem returned_mailEvents {a : ServiceAct α ρ} (h : ∀ valid resp, a ≠ .recv valid resp) :
    returned (mailEvents C s a) = [] := by
  cases a with
  | recv valid resp => exact absurd rfl (h valid resp)
  | release =>
      simp only [mailEvents]
      split
      · exact SpeechConnection.returned_mailEvents (by simp)
      · rfl
  | conn b =>
      simp only [mailEvents]
      split
      · rename_i hown
        apply SpeechConnection.returned_mailEvents
        rintro valid rfl
        cases hown
      · rfl
  | _ => rfl

/-- What is returned in a step of `gen_results`, parsed, is what `gen_results` then holds. -/
theorem holds_recv {valid : Bool} {resp : ρ} {r : ConnectionOpResult} {data : Bytes}
    (hret : (s.conn.recv valid).receiver = .returned r data)
    (hok : Parses C L.ok parse s (.recv valid resp)) :
    (returned (mailEvents C s (.recv valid resp))).filterMap parse =
      if r = .success then [resp] else [] := by
  have hevents : mailEvents C s (.recv valid resp) = (s.conn.recv valid).receiver.data := rfl
  rcases recv_returned hret with ⟨hfront, hr⟩ | ⟨hfront, hr, hdata⟩
  · simp only [Parses, hfront] at hok
    rw [hevents, hret, hr]
    cases valid with
    | true => simp [RecvPc.data, returned, hok]
    | false => simp [RecvPc.data, returned, hok]
  · rw [hevents, hdata, if_neg hr]
    rfl

/-! ### Every run -/

/-- What is heard is what has been returned. -/
structure Listened (L : Listener C) (parse : Bytes → Option ρ)
    (u : Traced (Service σ) (Sound ρ)) : Prop where
  joined : L.joined u.state.client
  posted : Posted ⟨u.state.conn, mail u.trace⟩
  heard : (heard u.trace).map Prod.snd ++ L.holds u.state.client =
    (returned (mail u.trace)).filterMap parse

theorem Listened.step {u v : Traced (Service σ) (Sound ρ)} {a : ServiceAct α ρ}
    (h : Listened L parse u) (hok : Parses C L.ok parse u.state a) (hst : ListenSteps L u a v) :
    Listened L parse v := by
  obtain ⟨hstep, htrace⟩ := Traced.step_eq_some.mp hst
  obtain ⟨hconn, hclient⟩ := step_parts hstep
  have hmail : mail v.trace = mail u.trace ++ mailEvents C u.state a := by
    rw [htrace, mail_observe]
  have hheard : Service.heard v.trace = Service.heard u.trace ++ hears L u.state a := by
    rw [htrace, heard_observe]
  refine ⟨?_, ?_, ?_⟩
  · rcases hclient with ⟨heq, -⟩ | ⟨b, hb, -⟩
    · rw [heq]
      exact h.joined
    · exact L.step_joined hb h.joined
  · rw [hmail]
    rcases hconn with ⟨heq, hnone⟩ | ⟨b, hb, hevents⟩
    · rw [heq, hnone, List.append_nil]
      exact h.posted
    · rw [hevents]
      exact h.posted.step (Traced.step_eq_some.mpr ⟨hb, rfl⟩)
  · rw [hmail, hheard, returned_append, List.filterMap_append, ← h.heard, List.map_append,
      List.append_assoc, List.append_assoc]
    congr 1
    rcases hclient with ⟨heq, hnot, hwait⟩ | ⟨b, hb, hacts⟩
    · have hnone : hears L u.state a = [] := by
        cases a with
        | client b => exact absurd rfl (hnot b)
        | _ => rfl
      have hreturned : returned (mailEvents C u.state a) = [] := by
        by_cases hrecv : ∃ valid resp, a = .recv valid resp
        · obtain ⟨valid, resp, rfl⟩ := hrecv
          have hdata : mailEvents C u.state (.recv valid resp) = [] :=
            recv_data_of_waiting (hwait valid resp rfl)
          rw [hdata]
          rfl
        · exact returned_mailEvents fun valid resp heq => hrecv ⟨valid, resp, heq⟩
      rw [hnone, hreturned, heq]
      simp
    · rw [hacts.hears hb]
      by_cases hgen : C.role b = .gen ∧ C.receives u.state.client = true
      · cases hacts with
        | client halone => simp [ServiceClient.alone, hgen.1, hgen.2] at halone
        | prepare options => simp [C.role_prepare] at hgen
        | release => simp [C.role_release] at hgen
        | request buf r => simp [C.role_send] at hgen
        | sender timedOut r => simp [C.role_send] at hgen
        | recv hrecv hret =>
            obtain ⟨hbefore, hafter, hnone⟩ := L.taken hb hrecv
            rw [holds_recv hret hok, hbefore, hafter, hnone]
            simp
        | tick ns => simp [C.role_tick] at hgen
      · have hreturned : returned (mailEvents C u.state a) = [] := by
          apply returned_mailEvents
          rintro valid resp rfl
          cases hacts with
          | recv hrecv hret => exact hgen ⟨C.role_gen _ _, hrecv⟩
        rw [hreturned, L.handled h.joined hb hgen]
        simp

theorem Listened.run {u : Traced (Service σ) (Sound ρ)}
    (hrun : Run (ListenSteps L) (Traced.Lift (Parses C L.ok parse)) ⟨opened C, []⟩ u) :
    Listened L parse u := by
  have hopen : Listened L parse ⟨opened C, []⟩ :=
    { joined := L.opened_joined
      posted := ⟨Hub.single_of_run (.refl _), rfl⟩
      heard := L.opened_holds }
  exact hrun.invariant (fun _ _ _ h hok hst => h.step hok hst) hopen

/-- A run of the service is a run of the client, in which the same is heard. -/
theorem run_heard {u : Traced (Service σ) (Sound ρ)}
    (hrun : Run (ListenSteps L) (Traced.Lift (Parses C L.ok parse)) ⟨opened C, []⟩ u) :
    Run (fun u a v => Traced.step C.step L.hears u a = some v) (Traced.Lift L.ok)
      ⟨C.opened, []⟩ ⟨u.state.client, heard u.trace⟩ := by
  induction hrun with
  | refl => exact .refl _
  | @snoc u v a hrun hok hst ih =>
      obtain ⟨hstep, htrace⟩ := Traced.step_eq_some.mp hst
      have hheard : heard v.trace = heard u.trace ++ hears L u.state a := by
        rw [htrace, heard_observe]
      rcases (step_parts hstep).2 with ⟨heq, hnot, -⟩ | ⟨b, hb, hacts⟩
      · have hnone : hears L u.state a = [] := by
          cases a with
          | client b => exact absurd rfl (hnot b)
          | _ => rfl
        rw [hheard, hnone, List.append_nil, heq]
        exact ih
      · rw [hheard, hacts.hears hb]
        exact ih.snoc (hacts.ok hok) (Traced.step_eq_some.mpr ⟨hb, rfl⟩)

/-- The responses for an operation have its id. -/
theorem named_run {s : σ} {tr : List (Option Nat × ρ)}
    (hrun : Run (fun u a v => Traced.step C.step L.hears u a = some v) (Traced.Lift L.ok)
      ⟨C.opened, []⟩ ⟨s, tr⟩) : OpCtl.Named L.id (C.controller s) (addressed tr) := by
  have hstep : ∀ (v : Traced σ (Option Nat × ρ)) (a : α) (w : Traced σ (Option Nat × ρ)),
      OpCtl.Named L.id (C.controller v.state) (addressed v.trace) → Traced.Lift L.ok v a →
      Traced.step C.step L.hears v a = some w →
      OpCtl.Named L.id (C.controller w.state) (addressed w.trace) := by
    intro v a w h _ hst
    obtain ⟨hnext, htrace⟩ := Traced.step_eq_some.mp hst
    obtain ⟨now, hworks⟩ := L.works hnext
    rw [htrace, addressed_append]
    refine (h.append ?_).works hworks
    intro p hp
    obtain ⟨⟨o, resp⟩, he, hsome⟩ := List.mem_filterMap.mp hp
    obtain ⟨x, rfl, rfl⟩ := Option.map_eq_some_iff.mp hsome
    exact L.current he
  have hopen : OpCtl.Named L.id (C.controller C.opened) (addressed []) := by
    rw [L.opened_controller]
    exact .init
  have hnamed := hrun.invariant hstep hopen
  exact hnamed

/-- **What a client handles is what the server has sent.**  The responses that `gen_results` has
    handled, and the one it holds, are the messages that `recv` has returned and that could be
    parsed; these are among the messages that have arrived, in the same order.  What has been
    handled for an operation has its id. -/
theorem messages_heard {u : Traced (Service σ) (Sound ρ)}
    (hrun : Run (ListenSteps L) (Traced.Lift (Parses C L.ok parse)) ⟨opened C, []⟩ u) :
    (heard u.trace).map Prod.snd ++ L.holds u.state.client =
        (returned (mail u.trace)).filterMap parse ∧
      (returned (mail u.trace)).Sublist (arrivals (mail u.trace)) ∧
      ∀ a, ∀ resp ∈ entries (addressed (heard u.trace)) a,
        L.id resp = ((C.controller u.state.client).heap a).id := by
  have h := Listened.run hrun
  refine ⟨h.heard, ?_, ?_⟩
  · rw [h.posted.balance]
    exact (returned_sublist_departures _).trans (List.sublist_append_left _ _)
  · intro a resp hresp
    obtain ⟨p, hp, rfl⟩ := List.mem_map.mp hresp
    obtain ⟨hp, ha⟩ := List.mem_filter.mp hp
    have hnamed := named_run (run_heard hrun)
    rw [← (hnamed.named p hp).2, of_decide_eq_true ha]

end Service

end OpenVoice
