import OpenVoice.Tts.Moves

/-!
# `TtsImpl::release` and the request thread

`release` waits for the thread `send_reqs`, which may be waiting for the end of an operation.
After `connection_.release()` only a result that `gen_results` has already received can still end
it.
-/

namespace OpenVoice

open OpenVoice.Lib

namespace TtsImpl

/-- `release` waits for the send thread, and the send thread waits for the current operation; the
    operation stays current whatever anybody does. -/
structure Stuck (s : TtsImpl) : Prop where
  running : s.aborted = false
  joining : s.releasing = .joinReq
  waiting : s.controller.opWaiting = true
  current : ∃ id a, s.send = .blocked id ∧ s.controller.currentOp = some a ∧
    (s.controller.heap a).id = id ∧ ∀ t, Run Steps Always s t → t.controller.currentOp = some a

/-- The connection has been available to the request in hand, or has taken it. -/
def SendPc.past : SendPc → Bool
  | .writing _ _ | .sent _ | .waitOp _ | .blocked _ => true
  | _ => false

/-- A result that ends the current operation: a failure, or the last response for it. -/
def ends (r : ConnectionOpResult) (resp : TtsResponse) (c : OpCtl TtsError) : Bool :=
  match r, c.currentOp with
  | .success, some a => resp.finish && (c.heap a).id = resp.id
  | _, _ => true

/-- `gen_results` has received one. -/
def ending (s : TtsImpl) : Bool :=
  match s.gen with
  | .handle r resp => ends r resp s.controller
  | _ => false

/-- The send thread does not need anybody: nothing is current, or it has not got past
    `ensure_connection_available` and finds the connection closed. -/
def selfReliant (s : TtsImpl) : Bool := s.controller.currentOp.isNone || !s.send.past

/-- `connection_.release()` returns while the send thread can go on, or while `gen_results` has a
    result that ends the operation; and such a result is not a timeout that has not expired. -/
def wakes (s : TtsImpl) : TtsAct → Bool
  | .release => s.releasing ≠ .closing || s.selfReliant || s.ending
  | .gen _ _ =>
      match s.gen with
      | .handle .timeout _ =>
          s.releasing ≠ .joinReq || s.selfReliant || s.controller.opTimeout s.now = 0
      | _ => true
  | _ => true

def Wakes (s : TtsImpl) (a : TtsAct) : Prop := s.wakes a = true

instance (s : TtsImpl) (a : TtsAct) : Decidable (Wakes s a) :=
  inferInstanceAs (Decidable (s.wakes a = true))

theorem Wakes.closing {s : TtsImpl} (h : Wakes s .release) (hr : s.releasing = .closing) :
    s.selfReliant = true ∨ s.ending = true := by
  unfold Wakes wakes at h
  simpa [hr] using h

theorem Wakes.timeout {s : TtsImpl} {r : ConnectionOpResult} {resp resp' : TtsResponse}
    (h : Wakes s (.gen r resp)) (hgen : s.gen = .handle .timeout resp')
    (hr : s.releasing = .joinReq) :
    s.selfReliant = true ∨ s.controller.opTimeout s.now = 0 := by
  unfold Wakes wakes at h
  simpa [hgen, hr] using h

/-- What is so while `release` is under way. -/
structure Closing (s : TtsImpl) : Prop where
  init : s.releasing ≠ .idle → s.initialized = false
  closed : s.releasing = .joinReq → s.connClosed = true
  free : s.releasing = .joinReq → s.selfReliant = true ∨ s.ending = true
  counting : (∃ id, s.send = .waitOp id ∨ s.send = .blocked id) →
    ∀ a, s.controller.currentOp = some a → (s.controller.heap a).calcOpTimeout = true

theorem selfReliant_iff {s : TtsImpl} :
    s.selfReliant = true ↔ s.controller.currentOp = none ∨ s.send.past = false := by
  simp [selfReliant]

theorem ends_iff {r : ConnectionOpResult} {resp : TtsResponse} {c : OpCtl TtsError} :
    ends r resp c = true ↔ (r = .success → ∀ a, c.currentOp = some a →
      resp.finish = true ∧ (c.heap a).id = resp.id) := by
  unfold ends
  split
  · rename_i a hcur
    rw [Bool.and_eq_true, decide_eq_true_iff]
    constructor
    · rintro h - b hb
      cases hcur.symm.trans hb
      exact h
    · intro h
      exact h rfl a hcur
  · rename_i hother
    refine iff_of_true rfl ?_
    rintro rfl a hcur
    exact absurd hcur (hother a rfl)

/-- `c'` may come after `c` without another operation being made current. -/
def SameCurrent (c c' : OpCtl TtsError) : Prop :=
  ∀ a, c'.currentOp = some a → c.currentOp = some a ∧ (c'.heap a).id = (c.heap a).id

theorem SameCurrent.of_quiet {c c' : OpCtl TtsError} (hq : c.Quiet c') : SameCurrent c c' :=
  fun a hcur => ⟨hq.current_some hcur, hq.heap_id a⟩

theorem SameCurrent.ends {r : ConnectionOpResult} {resp : TtsResponse} {c c' : OpCtl TtsError}
    (hsame : SameCurrent c c') (h : ends r resp c = true) : TtsImpl.ends r resp c' = true := by
  rw [ends_iff] at h ⊢
  intro hr a hcur
  obtain ⟨hcur', hid⟩ := hsame a hcur
  rw [hid]
  exact h hr a hcur'

/-- The last response for the current operation ends it. -/
theorem genResultByResp_ends {resp : TtsResponse} {a : Nat} {s : TtsImpl}
    (hfin : resp.finish = true) (hid : (s.controller.heap a).id = resp.id) :
    (genResultByResp resp a s).controller.currentOp = none := by
  have hend : ∀ u : TtsImpl, (genFinish resp a u).controller.currentOp = none := by
    intro u
    rw [genFinish, if_pos hfin]
    exact OpCtl.finishOp_current _
  unfold genResultByResp
  simp only [hid, if_true]
  split
  · exact hend _
  · exact hend _

theorem handleResult_ends {r : ConnectionOpResult} {resp : TtsResponse} {s : TtsImpl}
    (h : ends r resp s.controller = true)
    (htime : r = .timeout → s.controller.opTimeout s.now = 0) :
    (s.handleResult r resp).controller.currentOp = none := by
  unfold handleResult
  split
  · have hquiet := OpCtl.Quiet.refreshOpTime s.controller s.now true
    have hends := (SameCurrent.of_quiet hquiet).ends h
    simp only
    split
    · rename_i hnone
      exact hnone
    · rename_i a hcur
      obtain ⟨hfin, hid⟩ := ends_iff.mp hends rfl a hcur
      exact genResultByResp_ends hfin hid
  · rw [if_pos (htime rfl)]
    exact OpCtl.setOpError_current _ _
  · exact OpCtl.setOpError_current _ _
  · exact OpCtl.setOpError_current _ _

/-! ### The invariant -/

namespace Closing

variable {s t : TtsImpl}

theorem opened : Closing {} where
  init := fun h => absurd rfl h
  closed := by
    intro h
    cases h
  free := by
    intro h
    cases h
  counting := by
    rintro ⟨id, h | h⟩
    · cases h
    · cases h

/-- A step of anybody but `release` and `gen_results`.  If it takes the send thread past the test
    of the connection, it was past it before. -/
theorem next (h : Closing s) (hi : t.initialized = s.initialized)
    (hr : t.releasing = s.releasing) (hc : t.connClosed = s.connClosed) (hg : t.gen = s.gen)
    (hpast : s.releasing = .joinReq → t.send.past = true →
      s.send.past = true ∧ SameCurrent s.controller t.controller)
    (hcount : (∃ id, t.send = .waitOp id ∨ t.send = .blocked id) →
      ∀ a, t.controller.currentOp = some a → (t.controller.heap a).calcOpTimeout = true) :
    Closing t where
  init := by
    rw [hr, hi]
    exact h.init
  closed := by
    rw [hr, hc]
    exact h.closed
  free := by
    rw [hr]
    intro hjoin
    cases hp : t.send.past with
    | false => exact .inl (selfReliant_iff.mpr (.inr hp))
    | true =>
        obtain ⟨hp', hsame⟩ := hpast hjoin hp
        rcases h.free hjoin with hself | hending
        · rcases selfReliant_iff.mp hself with hnone | hp''
          · refine .inl (selfReliant_iff.mpr (.inl ?_))
            by_contra hsome
            obtain ⟨a, ha⟩ := Option.ne_none_iff_exists'.mp hsome
            rw [(hsame a ha).1] at hnone
            cases hnone
          · rw [hp'] at hp''
            cases hp''
        · refine .inr ?_
          unfold ending at hending ⊢
          rw [hg]
          split at hending
          · exact hsame.ends hending
          · cases hending
  counting := hcount

/-- A step that leaves the threads where they are. -/
theorem quiet (h : Closing s) (hi : t.initialized = s.initialized)
    (hr : t.releasing = s.releasing) (hc : t.connClosed = s.connClosed) (hs : t.send = s.send)
    (hg : t.gen = s.gen) (hq : s.controller.Quiet t.controller) : Closing t := by
  refine h.next hi hr hc hg ?_ ?_
  · intro _ hp
    rw [hs] at hp
    exact ⟨hp, .of_quiet hq⟩
  · rw [hs]
    intro hwait a hcur
    exact hq.counting a (h.counting hwait a (hq.current_some hcur))

theorem prepare (h : Closing s) (hidle : s.releasing = .idle) : Closing s.prepare := by
  unfold TtsImpl.prepare
  split
  · exact h
  · exact
      { init := fun hne => absurd hidle hne
        closed := by
          intro hjoin
          cases hidle.symm.trans hjoin
        free := by
          intro hjoin
          cases hidle.symm.trans hjoin
        counting := by
          rintro ⟨id, hs | hs⟩
          · cases hs
          · cases hs }

theorem release (h : Closing s) (hok : Wakes s .release) (hst : s.release = some t) :
    Closing t := by
  unfold TtsImpl.release at hst
  cases hr : s.releasing with
  | idle =>
      simp only [hr] at hst
      split at hst
      · cases hst
        exact ⟨fun _ => rfl, by simp, by simp, h.counting⟩
      · cases hst
        exact h
  | closing =>
      simp only [hr] at hst
      cases hst
      exact ⟨fun _ => h.init (by simp [hr]), fun _ => rfl, fun _ => hok.closing hr, h.counting⟩
  | joinReq =>
      simp only [hr] at hst
      split at hst
      · cases hst
        exact ⟨fun _ => h.init (by simp [hr]), by simp, by simp, h.counting⟩
      · cases hst
  | closeResp =>
      simp only [hr] at hst
      cases hst
      have hquiet := OpCtl.Quiet.finishOp s.controller
      refine ⟨fun _ => h.init (by simp [hr]), by simp, by simp, ?_⟩
      intro hwait a hcur
      exact hquiet.counting a (h.counting hwait a (hquiet.current_some hcur))
  | joinResp =>
      simp only [hr] at hst
      split at hst
      · cases hst
        exact ⟨by simp, by simp, by simp, h.counting⟩
      · cases hst

theorem call (h : Closing s) {n : Nat} {pc : ClientPc} (hst : s.call n pc = some t) :
    Closing t := by
  unfold TtsImpl.call at hst
  split at hst
  · split at hst
    · cases hst
      exact h.quiet rfl rfl rfl rfl rfl (.refl _)
    · cases hst
      exact h
  · cases hst
    exact h.quiet rfl rfl rfl rfl rfl (.refl _)
  · cases hst

theorem client (h : Closing s) {n : Nat} (hst : s.client n = some t) : Closing t := by
  unfold TtsImpl.client at hst
  split at hst
  · simp only at hst
    split at hst
    · cases hst
    · cases hst
      exact h.quiet rfl rfl rfl rfl rfl (.refl _)
    · rename_i id _
      cases hst
      obtain ⟨reqs, c, k, heq, -, hquiet, -⟩ :=
        cancel_spec id { s with clients := Function.update s.clients n .idle }
      rw [heq]
      exact h.quiet rfl rfl rfl rfl rfl hquiet
  · cases hst

theorem pollStep (h : Closing s) : Closing s.pollStep := by
  unfold TtsImpl.pollStep
  split
  · split
    · exact h.quiet rfl rfl rfl rfl rfl (.refl _)
    · rename_i u hpoll
      obtain ⟨c, q, rfl, hquiet⟩ := poll_eq hpoll
      exact h.quiet rfl rfl rfl rfl rfl hquiet
    · rename_i r u hpoll
      obtain ⟨c, q, rfl, hquiet⟩ := poll_eq hpoll
      exact h.quiet rfl rfl rfl rfl rfl hquiet
  · exact h

theorem send_step (h : Closing s) {r : ConnectionOpResult} (hst : s.sendStep r = some t) :
    Closing t := by
  have hopen : s.connClosed = false → s.releasing ≠ .joinReq := by
    intro hc hjoin
    rw [h.closed hjoin] at hc
    cases hc
  cases sendStep_move hst with
  | available hpc hr hc =>
      exact h.next rfl rfl rfl rfl (fun hjoin => absurd hjoin (hopen hc)) (by simp)
  | write hpc =>
      refine h.next rfl rfl rfl rfl (fun _ _ => ⟨?_, .of_quiet (.refl _)⟩) (by simp)
      rw [hpc]
      rfl
  | refresh hpc =>
      have hquiet := OpCtl.Quiet.refreshOpTime s.controller s.now false
      refine h.next rfl rfl rfl rfl (fun _ _ => ⟨?_, .of_quiet hquiet⟩) ?_
      · rw [hpc]
        rfl
      · intro _ a hcur
        exact OpCtl.refreshOpTime_counting (hquiet.current_some hcur)
  | block hpc hwait =>
      refine h.next rfl rfl rfl rfl (fun _ _ => ⟨?_, fun a hcur => ⟨hcur, rfl⟩⟩) ?_
      · rw [hpc]
        rfl
      · intro _ a hcur
        exact h.counting ⟨_, .inl hpc⟩ a hcur
  | _ => exact h.next rfl rfl rfl rfl (fun _ hp => by cases hp) (by simp)

theorem gen (h : Closing s) {r : ConnectionOpResult} {resp : TtsResponse}
    (hok : Wakes s (.gen r resp)) (hst : s.genStep r resp = some t) : Closing t := by
  -- `gen_results` goes on without having a result in hand
  have hgo : ∀ pc, s.ending = false → Closing { s with gen := pc } := by
    intro pc hno
    refine ⟨h.init, h.closed, ?_, h.counting⟩
    intro hjoin
    rcases h.free hjoin with hself | hending
    · exact .inl hself
    · rw [hno] at hending
      cases hending
  unfold TtsImpl.genStep at hst
  split at hst
  · rename_i hgen
    cases hst
    exact hgo _ (by simp [ending, hgen])
  · rename_i timeout hgen
    have hno : s.ending = false := by simp [ending, hgen]
    split at hst
    · split at hst
      · cases hst
        exact hgo _ hno
      · cases hst
        exact hgo _ hno
    · cases hst
  · rename_i r' resp' hgen
    cases hst
    have hsec := handleResult_section r' resp' s
    have hquiet := hsec.quiet
    have hnone : s.ending = true → (r' = .timeout → s.controller.opTimeout s.now = 0) →
        (s.handleResult r' resp').controller.currentOp = none := by
      intro hending htime
      rw [ending, hgen] at hending
      exact handleResult_ends hending htime
    generalize s.handleResult r' resp' = u at hsec hquiet hnone ⊢
    rw [hsec.eq]
    refine ⟨h.init, h.closed, ?_, ?_⟩
    · intro hjoin
      refine .inl (selfReliant_iff.mpr ?_)
      have hself : s.selfReliant = true →
          u.controller.currentOp = none ∨ s.send.past = false := by
        intro hself
        exact (selfReliant_iff.mp hself).imp_left hquiet.current_none
      rcases h.free hjoin with hs | hending
      · exact hself hs
      · by_cases htime : r' = .timeout
        · subst htime
          rcases hok.timeout hgen hjoin with hs | htime
          · exact hself hs
          · exact .inl (hnone hending fun _ => htime)
        · exact .inl (hnone hending fun he => absurd he htime)
    · intro hwait a hcur
      exact hquiet.counting a (h.counting hwait a (hquiet.current_some hcur))
  · cases hst

/-- **One step.** -/
theorem step (h : Closing s) {a : TtsAct} (hok : Wakes s a) (hst : s.step a = some t) :
    Closing t := by
  unfold TtsImpl.step at hst
  split at hst
  · cases hst
  · cases a with
    | prepare =>
        simp only at hst
        split at hst
        · rename_i hidle
          cases hst
          exact h.prepare hidle
        · cases hst
    | release => exact h.release hok hst
    | call n pc => exact h.call hst
    | client n => exact h.client hst
    | poll =>
        cases hst
        exact h.pollStep
    | config mod =>
        cases hst
        cases mod with
        | none => exact h
        | some mod => exact h.quiet rfl rfl rfl rfl rfl (.refl _)
    | send r => exact h.send_step hst
    | gen r resp => exact h.gen hok hst
    | tick ns =>
        cases hst
        exact h.quiet rfl rfl rfl rfl rfl (.refl _)

/-- A result that ends the operation is handled in the end, after as much time as it takes. -/
theorem not_stuck (h : Closing s) : ¬ Stuck s := by
  rintro ⟨hrun, hjoin, -, id, a, hsend, hcur, -, hforever⟩
  rcases h.free hjoin with hself | hending
  · rcases selfReliant_iff.mp hself with hnone | hpast
    · rw [hnone] at hcur
      cases hcur
    · rw [hsend] at hpast
      cases hpast
  · obtain ⟨r, resp, hgen⟩ : ∃ r resp, s.gen = .handle r resp := by
      unfold ending at hending
      split at hending
      · rename_i r resp hgen
        exact ⟨r, resp, hgen⟩
      · cases hending
    obtain ⟨ns, hns⟩ : ∃ ns : Nat, s.controller.opTimeout (s.now + ns) = 0 :=
      OpCtl.exists_opTimeout _ _ hcur (h.counting ⟨id, .inr hsend⟩ a hcur)
    have hends : ends r resp s.controller = true := by
      rw [ending, hgen] at hending
      exact hending
    have hlate : s.step (.tick ns) = some { s with now := s.now + ns } := by
      simp [TtsImpl.step, hrun]
    have hhandle : ({ s with now := s.now + ns } : TtsImpl).step (.gen r resp) =
        some { ({ s with now := s.now + ns } : TtsImpl).handleResult r resp with gen := .loop } := by
      simp [TtsImpl.step, hrun, TtsImpl.genStep, hgen]
    have hcur' := hforever _ (((Run.refl s).snoc trivial hlate).snoc trivial hhandle)
    have hnone := handleResult_ends (s := { s with now := s.now + ns }) hends fun _ => hns
    simp only at hcur'
    rw [hnone] at hcur'
    cases hcur'

end Closing

/-! ### Nobody ends the operation -/

/-- `release` and the send thread wait, and `gen_results` has nothing in hand. -/
structure Hung (id : Int) (a : Nat) (s : TtsImpl) : Prop where
  running : s.aborted = false
  joining : s.releasing = .joinReq
  init : s.initialized = false
  closed : s.connClosed = true
  send : s.send = .blocked id
  waiting : s.controller.opWaiting = true
  current : s.controller.currentOp = some a
  id_eq : (s.controller.heap a).id = id
  gen : ∀ r resp, s.gen ≠ .handle r resp

/-- Nothing of this changes. -/
theorem Hung.keep {id : Int} {a : Nat} {s t : TtsImpl} (h : Hung id a s)
    (hrun : t.aborted = s.aborted) (hr : t.releasing = s.releasing)
    (hi : t.initialized = s.initialized) (hcl : t.connClosed = s.connClosed)
    (hs : t.send = s.send) (hc : t.controller = s.controller)
    (hg : ∀ r resp, t.gen ≠ .handle r resp) : Hung id a t where
  running := hrun.trans h.running
  joining := hr.trans h.joining
  init := hi.trans h.init
  closed := hcl.trans h.closed
  send := hs.trans h.send
  waiting := hc ▸ h.waiting
  current := hc ▸ h.current
  id_eq := hc ▸ h.id_eq
  gen := hg

/-- It stays like this: clients find the object released, and `connection_.recv` returns
    `NOT_READY`. -/
theorem Hung.step {id : Int} {a : Nat} {s t : TtsImpl} {act : TtsAct} (h : Hung id a s)
    (hst : s.step act = some t) : Hung id a t := by
  unfold TtsImpl.step at hst
  rw [if_neg (by simp [h.running])] at hst
  cases act with
  | prepare => simp [h.joining] at hst
  | release => simp [TtsImpl.release, h.joining, h.send] at hst
  | call n pc =>
      simp only at hst
      unfold TtsImpl.call at hst
      split at hst
      · split at hst
        · cases hst
          exact h.keep rfl rfl rfl rfl rfl rfl h.gen
        · cases hst
          exact h
      · cases hst
        exact h.keep rfl rfl rfl rfl rfl rfl h.gen
      · cases hst
  | client n =>
      simp only at hst
      unfold TtsImpl.client at hst
      split at hst
      · simp only at hst
        split at hst
        · cases hst
        · cases hst
          exact h.keep rfl rfl rfl rfl rfl rfl h.gen
        · cases hst
          unfold TtsImpl.cancel
          rw [if_pos (by simp [h.init])]
          exact h.keep rfl rfl rfl rfl rfl rfl h.gen
      · cases hst
  | poll =>
      cases hst
      unfold TtsImpl.pollStep
      rw [if_neg (by simp [h.init])]
      exact h
  | config mod =>
      cases hst
      cases mod with
      | none => exact h
      | some mod => exact h.keep rfl rfl rfl rfl rfl rfl h.gen
  | send r => simp [TtsImpl.sendStep, h.send, h.waiting] at hst
  | gen r resp =>
      simp only at hst
      unfold TtsImpl.genStep at hst
      split at hst
      · cases hst
        exact h.keep rfl rfl rfl rfl rfl rfl (by simp)
      · split at hst
        · rename_i hr
          rw [h.closed, decide_eq_true_iff] at hr
          rw [if_pos hr] at hst
          cases hst
          exact h.keep rfl rfl rfl rfl rfl rfl (by simp)
        · cases hst
      · rename_i r' resp' hgen
        exact absurd hgen (h.gen r' resp')
      · cases hst
  | tick ns =>
      cases hst
      exact h.keep rfl rfl rfl rfl rfl rfl h.gen

theorem Hung.stuck {id : Int} {a : Nat} {s : TtsImpl} (h : Hung id a s) : Stuck s where
  running := h.running
  joining := h.joining
  waiting := h.waiting
  current := by
    refine ⟨id, a, h.send, h.current, h.id_eq, ?_⟩
    intro t hrun
    have ht : Hung id a t := hrun.invariant (fun _ _ _ hu _ hst => hu.step hst) h
    exact ht.current

end TtsImpl

end OpenVoice
