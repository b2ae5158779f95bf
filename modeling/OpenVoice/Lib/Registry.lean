import OpenVoice.Lib.Run
import Mathlib.Data.List.Nodup
import Mathlib.Logic.Function.Basic

/-!
# Callbacks for the requests of an object

An object issues an id for every request and reports results by id, and each request has a
callback of its own.  A request is made, and its callback registered under the id, while a lock is
held.  One thread polls the results: it looks the callback up under the lock, invokes it without,
and removes it under the lock if the request has ended or the callback has thrown.

Nothing is assumed of the object but that an id is issued once, and before it is reported
(`Issuer.Lawful`).  The object may report a result while the request that it is for is still being
made; it is the lock that keeps the result from getting lost (`Registry.Linked`).
-/

namespace OpenVoice.Lib

/-- An object that is used by several threads. -/
structure Issuer (σ α ι ρ : Type) where
  step : σ → α → Option σ
  prepare : α
  poll : α
  /-- a thread starts to make a request, -/
  enter : Nat → ι → α
  /-- and goes on -/
  next : Nat → α
  /-- the action is the start of a request -/
  enters : α → Bool
  /-- the thread that takes the action, if it is one that makes requests -/
  thread : α → Option Nat
  /-- the object is in use: from `prepare` until it is released -/
  live : σ → Bool
  /-- what `poll` reports in this state -/
  polls : σ → Option ρ
  /-- the thread is making a request -/
  inside : σ → Nat → Bool
  /-- the id that the thread is given by its next step, `-1` if the request has failed -/
  returns : σ → Nat → Option Int
  id : ρ → Int
  /-- the result is the last one of its request -/
  ends : ρ → Bool

/-- Where the thread that holds the lock is. -/
inductive CallPc (ι κ : Type) where
  /-- about to make the request -/
  | enter (c : ι) (cb : Option κ)
  /-- making the request -/
  | inside (cb : Option κ)
  /-- the request has been made; about to register the callback -/
  | put (id : Int) (cb : Option κ)
deriving DecidableEq, Repr

/-- Where the thread that polls is. -/
inductive PollPc (κ ρ : Type) where
  /-- there is no such thread -/
  | absent
  /-- in `poll` -/
  | polling
  /-- about to take the lock, to look the callback up -/
  | lookUp (r : ρ)
  /-- in the callback -/
  | invoke (r : ρ) (cb : κ)
  /-- about to take the lock, to remove the callback -/
  | remove (r : ρ)
  /-- the object has been released -/
  | done
deriving DecidableEq, Repr

/-- A result that has been dealt with: the callback it was given to, and whether that has
    thrown. -/
structure Handled (κ ρ : Type) where
  result : ρ
  callback : Option κ
  threw : Bool
deriving DecidableEq, Repr

/-- The object, the callbacks, and the threads. -/
structure Registry (σ ι κ ρ : Type) where
  object : σ
  callbacks : Int → Option κ := fun _ => none
  holder : Option (Nat × CallPc ι κ) := none
  poller : PollPc κ ρ := .absent
  /-- the ids that have been given out since `prepare`, each with the callback of its request -/
  registered : List (Int × Option κ) := []
  /-- what has been done since `prepare` -/
  handled : List (Handled κ ρ) := []

inductive RegistryAct (α ι κ : Type) where
  | prepare
  /-- the thread that polls is joined -/
  | join
  | call (n : Nat) (c : ι) (cb : Option κ)
  | request
  | poller (threw : Bool)
  | object (a : α)
deriving DecidableEq, Repr

variable {σ α ι κ ρ : Type} (X : Issuer σ α ι ρ)

/-- The callback is removed after this result. -/
def Handled.closes (e : Handled κ ρ) : Bool := e.callback.isSome && (e.threw || X.ends e.result)

/-- The callback for an id has been removed, or is about to be. -/
def closed (l : List (Handled κ ρ)) (id : Int) : Bool :=
  l.any fun e => X.id e.result = id && e.closes X

namespace Registry

/-- The next step of the thread that holds the lock. -/
def request (u : Registry σ ι κ ρ) : Option (Registry σ ι κ ρ) :=
  match u.holder with
  | none => none
  | some (n, .enter c cb) => do
      let object ← X.step u.object (X.enter n c)
      return { u with
        object := object
        holder := some (n, if X.inside object n then .inside cb else .put (-1) cb) }
  | some (n, .inside cb) => do
      let object ← X.step u.object (X.next n)
      return { u with
        object := object
        holder := some (n, (X.returns u.object n).elim (.inside cb) fun id => .put id cb) }
  | some (_, .put id cb) =>
      if 0 < id then
        some { u with
          callbacks := Function.update u.callbacks id cb
          registered := u.registered ++ [(id, cb)]
          holder := none }
      else some { u with holder := none }

/-- The next step of the thread that polls; the flag says that the callback throws. -/
def pollerStep (threw : Bool) (u : Registry σ ι κ ρ) : Option (Registry σ ι κ ρ) :=
  match u.poller with
  | .absent => none
  | .polling =>
      if X.live u.object then do
        let object ← X.step u.object X.poll
        return { u with
          object := object
          poller := (X.polls u.object).elim .polling .lookUp }
      else some { u with poller := .done }
  | .lookUp r =>
      if u.holder.isSome then none
      else
        match u.callbacks (X.id r) with
        | none =>
            some { u with
              handled := u.handled ++ [{ result := r, callback := none, threw := false }]
              poller := .polling }
        | some cb => some { u with poller := .invoke r cb }
  | .invoke r cb =>
      let e : Handled κ ρ := { result := r, callback := some cb, threw := threw }
      some { u with
        handled := u.handled ++ [e]
        poller := if e.closes X then .remove r else .polling }
  | .remove r =>
      if u.holder.isSome then none
      else
        some { u with
          callbacks := Function.update u.callbacks (X.id r) none
          poller := .polling }
  | .done => none

/-- A thread that may act while the lock is held: not the one that holds it. -/
def free (n : Option Nat) (u : Registry σ ι κ ρ) : Bool :=
  match n, u.holder with
  | some n, some (m, _) => n ≠ m
  | _, _ => true

variable [DecidableEq α]

/-- One step.  Requests are made, and `poll` and `prepare` are called, by the threads above only. -/
def step (u : Registry σ ι κ ρ) : RegistryAct α ι κ → Option (Registry σ ι κ ρ)
  | .prepare =>
      match u.poller with
      | .absent => do
          let object ← X.step u.object X.prepare
          return { u with object := object, poller := .polling, registered := [], handled := [] }
      | _ => none
  | .join =>
      match u.poller with
      | .done => some { u with poller := .absent }
      | _ => none
  | .call n c cb =>
      if u.holder.isSome then none else some { u with holder := some (n, .enter c cb) }
  | .request => u.request X
  | .poller threw => u.pollerStep X threw
  | .object a =>
      if a ≠ X.prepare ∧ a ≠ X.poll ∧ X.enters a = false ∧ u.free (X.thread a) then do
        let object ← X.step u.object a
        return { u with object := object }
      else none

end Registry

/-- What is assumed of the object.  `inv` is an invariant of it that may rest on requests being made
    one at a time, `clean` the condition under which it is prepared again; `issued` are the ids
    that it has given out since then, and `results` what it has reported. -/
structure Issuer.Lawful (clean inv : σ → Prop) (issued : σ → List Int) (results : σ → List ρ) :
    Prop where
  opens : ∀ {s t}, inv s → clean s → (∀ n, X.inside s n = false) → X.live s = false →
    X.step s X.prepare = some t → inv t ∧ issued t = [] ∧ results t = [] ∧ X.inside t = X.inside s
  step : ∀ {s t a}, inv s → (∀ m n, X.inside s m = true → X.inside s n = true → m = n) →
    a ≠ X.prepare → X.step s a = some t → inv t ∧ (X.live s = false → X.live t = false)
  nodup : ∀ {s}, inv s → (issued s).Nodup
  known : ∀ {s}, inv s → ∀ r ∈ results s, X.id r ∈ issued s
  enter : ∀ {s t n c}, X.step s (X.enter n c) = some t →
    issued t = issued s ∧ results t = results s ∧ ∀ m, m ≠ n → X.inside t m = X.inside s m
  next : ∀ {s t n}, inv s → X.inside s n = true → X.step s (X.next n) = some t →
    issued t = issued s ++ (X.returns s n).toList.filter (0 < ·) ∧ results t = results s ∧
      X.inside t = Function.update (X.inside s) n (X.returns s n).isNone
  poll : ∀ {s t}, X.live s = true → X.step s X.poll = some t →
    issued t = issued s ∧ results t = results s ++ (X.polls s).toList ∧ X.inside t = X.inside s
  other : ∀ {s t a}, a ≠ X.prepare → a ≠ X.poll → X.enters a = false →
    (∀ n, X.thread a = some n → X.inside s n = false) → X.step s a = some t →
    issued t = issued s ∧ results t = results s ∧ X.inside t = X.inside s
  poll_ne : X.poll ≠ X.prepare
  enter_ne : ∀ n c, X.enter n c ≠ X.prepare
  next_ne : ∀ n, X.next n ≠ X.prepare

/-- The id that is about to be registered. -/
def CallPc.given : CallPc ι κ → List Int
  | .put id _ => if 0 < id then [id] else []
  | .enter _ _ | .inside _ => []

/-- The result that has been polled and not been dealt with. -/
def PollPc.hand : PollPc κ ρ → List ρ
  | .lookUp r | .invoke r _ => [r]
  | .absent | .polling | .remove _ | .done => []

/-- The callback for the id is about to be removed. -/
def PollPc.removes : PollPc κ ρ → Int → Bool
  | .remove r, id => X.id r = id
  | _, _ => false

namespace Registry

def given (u : Registry σ ι κ ρ) : List Int := (u.holder.map fun p => p.2.given).getD []

/-- A result goes to the callback that its request was made with, or nowhere if that callback has
    had its last result or has thrown. -/
def Owned (registered : List (Int × Option κ)) (handled : List (Handled κ ρ)) : Prop :=
  ∀ l₁ e l₂, handled = l₁ ++ e :: l₂ →
    ∃ cb, (X.id e.result, cb) ∈ registered ∧
      e.callback = if closed X l₁ (X.id e.result) then none else cb

/-- The registry is what it should be. -/
structure Linked (inv : σ → Prop) (issued : σ → List Int) (results : σ → List ρ)
    (u : Registry σ ι κ ρ) : Prop where
  object : inv u.object
  inside : ∀ n, X.inside u.object n = true ↔ ∃ cb, u.holder = some (n, .inside cb)
  /-- no result is lost, and the order is kept -/
  heard : u.handled.map (·.result) ++ u.poller.hand = results u.object
  issued : issued u.object = u.registered.map Prod.fst ++ u.given
  owned : Owned X u.registered u.handled
  invoked : ∀ r cb, u.poller = .invoke r cb →
    (X.id r, some cb) ∈ u.registered ∧ closed X u.handled (X.id r) = false
  removing : ∀ r, u.poller = .remove r → closed X u.handled (X.id r) = true
  callbacks : ∀ id cb, (id, cb) ∈ u.registered →
    u.callbacks id = if closed X u.handled id && !u.poller.removes X id then none else cb
  stopped : u.poller = .absent ∨ u.poller = .done → X.live u.object = false

variable {X} {clean inv : σ → Prop} {issued : σ → List Int} {results : σ → List ρ}
  {u v : Registry σ ι κ ρ}

theorem closed_snoc {l : List (Handled κ ρ)} {e : Handled κ ρ} {id : Int} :
    closed X (l ++ [e]) id = (closed X l id || (decide (X.id e.result = id) && e.closes X)) := by
  simp [closed]

theorem Owned.registered {registered registered' : List (Int × Option κ)}
    {handled : List (Handled κ ρ)} (h : Owned X registered handled)
    (hsub : ∀ p ∈ registered, p ∈ registered') : Owned X registered' handled := by
  intro l₁ e l₂ heq
  obtain ⟨cb, hmem, hcb⟩ := h l₁ e l₂ heq
  exact ⟨cb, hsub _ hmem, hcb⟩

theorem Owned.snoc {registered : List (Int × Option κ)} {handled : List (Handled κ ρ)}
    {e : Handled κ ρ} {cb : Option κ} (h : Owned X registered handled)
    (hmem : (X.id e.result, cb) ∈ registered)
    (hcb : e.callback = if closed X handled (X.id e.result) then none else cb) :
    Owned X registered (handled ++ [e]) := by
  intro l₁ d l₂ heq
  rcases List.eq_nil_or_concat l₂ with rfl | ⟨l, b, rfl⟩
  · obtain ⟨rfl, hlast⟩ := List.append_inj' heq rfl
    obtain rfl : e = d := by simpa using hlast
    exact ⟨cb, hmem, hcb⟩
  · rw [List.concat_eq_append, ← List.cons_append, ← List.append_assoc] at heq
    exact h l₁ d l (List.append_inj' heq rfl).1

/-- What has been dealt with was for a request whose callback is registered. -/
theorem Owned.mem {registered : List (Int × Option κ)} {handled : List (Handled κ ρ)}
    (h : Owned X registered handled) {e : Handled κ ρ} (he : e ∈ handled) :
    X.id e.result ∈ registered.map Prod.fst := by
  obtain ⟨l₁, l₂, heq⟩ := List.append_of_mem he
  obtain ⟨cb, hmem, -⟩ := h l₁ e l₂ heq
  exact List.mem_map_of_mem hmem

/-- Nothing has been dealt with for a request that is not registered. -/
theorem Owned.closed_eq_false {registered : List (Int × Option κ)} {handled : List (Handled κ ρ)}
    (h : Owned X registered handled) {id : Int} (hid : id ∉ registered.map Prod.fst) :
    closed X handled id = false := by
  rw [closed, List.any_eq_false]
  intro e he hcl
  rw [Bool.and_eq_true, decide_eq_true_eq] at hcl
  apply hid
  rw [← hcl.1]
  exact h.mem he

namespace Linked

/-- Only one thread makes a request. -/
theorem alone (h : Linked X inv issued results u) (m n : Nat) (hm : X.inside u.object m = true)
    (hn : X.inside u.object n = true) : m = n := by
  obtain ⟨cb, hcb⟩ := (h.inside m).mp hm
  obtain ⟨cb', hcb'⟩ := (h.inside n).mp hn
  rw [hcb] at hcb'
  exact (Prod.mk.inj (Option.some.inj hcb')).1

theorem prepare (hX : X.Lawful clean inv issued results) (h : Linked X inv issued results u)
    (hfree : u.holder = none) (hclean : clean u.object) (hpc : u.poller = .absent) {object : σ}
    (hst : X.step u.object X.prepare = some object) :
    Linked X inv issued results
      { u with object := object, poller := .polling, registered := [], handled := [] } := by
  have hout : ∀ n, X.inside u.object n = false := by
    intro n
    rw [← Bool.not_eq_true, h.inside, hfree]
    simp
  obtain ⟨hinv, hissued, hresults, hinside⟩ :=
    hX.opens h.object hclean hout (h.stopped (.inl hpc)) hst
  exact
    { object := hinv
      inside := by
        intro n
        rw [hinside]
        exact h.inside n
      heard := hresults.symm
      issued := by
        rw [hissued, given, hfree]
        rfl
      owned := by
        intro l₁ e l₂ heq
        cases l₁ <;> cases heq
      invoked := by
        intro r cb hr
        cases hr
      removing := by
        intro r hr
        cases hr
      callbacks := by
        intro id cb hmem
        cases hmem
      stopped := by
        rintro (hr | hr) <;> cases hr }

/-- The object takes a step that makes no request and reports nothing. -/
theorem object_step (hX : X.Lawful clean inv issued results) (h : Linked X inv issued results u)
    {a : α} (hprep : a ≠ X.prepare) (hpoll : a ≠ X.poll) (henter : X.enters a = false)
    (hfree : u.free (X.thread a) = true) {object : σ}
    (hst : X.step u.object a = some object) :
    Linked X inv issued results { u with object := object } := by
  have hout : ∀ n, X.thread a = some n → X.inside u.object n = false := by
    intro n hn
    rw [← Bool.not_eq_true, h.inside]
    rintro ⟨cb, hholder⟩
    simp [free, hn, hholder] at hfree
  obtain ⟨hinv, hlive⟩ := hX.step h.object h.alone hprep hst
  obtain ⟨hissued, hresults, hinside⟩ := hX.other hprep hpoll henter hout hst
  exact
    { h with
      object := hinv
      inside := by
        intro n
        rw [hinside]
        exact h.inside n
      heard := by
        rw [hresults]
        exact h.heard
      issued := by
        rw [hissued]
        exact h.issued
      stopped := fun hpc => hlive (h.stopped hpc) }

/-- The lock is taken. -/
theorem call (h : Linked X inv issued results u) (hfree : u.holder = none) (n : Nat) (c : ι)
    (cb : Option κ) :
    Linked X inv issued results { u with holder := some (n, .enter c cb) } :=
  { h with
    inside := by
      intro m
      rw [h.inside, hfree]
      simp
    issued := by
      rw [h.issued, given, given, hfree]
      rfl }

/-- The thread with the lock enters its request. -/
theorem enter (hX : X.Lawful clean inv issued results) (h : Linked X inv issued results u)
    {n : Nat} {c : ι} {cb : Option κ} (hpc : u.holder = some (n, .enter c cb)) {object : σ}
    (hst : X.step u.object (X.enter n c) = some object) :
    Linked X inv issued results { u with
      object := object
      holder := some (n, if X.inside object n then .inside cb else .put (-1) cb) } := by
  obtain ⟨hinv, hlive⟩ := hX.step h.object h.alone (hX.enter_ne n c) hst
  obtain ⟨hissued, hresults, hinside⟩ := hX.enter hst
  exact
    { h with
      object := hinv
      inside := by
        intro m
        by_cases hm : m = n
        · subst hm
          cases X.inside object m <;> simp
        · have hout := h.inside m
          rw [hpc] at hout
          rw [hinside m hm, hout]
          simp [Ne.symm hm]
      heard := by
        rw [hresults]
        exact h.heard
      issued := by
        rw [hissued, h.issued, given, given, hpc]
        cases X.inside object n <;> rfl
      stopped := fun hr => hlive (h.stopped hr) }

/-- The thread with the lock goes on with its request. -/
theorem next (hX : X.Lawful clean inv issued results) (h : Linked X inv issued results u)
    {n : Nat} {cb : Option κ} (hpc : u.holder = some (n, .inside cb)) {object : σ}
    (hst : X.step u.object (X.next n) = some object) :
    Linked X inv issued results { u with
      object := object
      holder := some (n, (X.returns u.object n).elim (.inside cb) fun id => .put id cb) } := by
  obtain ⟨hinv, hlive⟩ := hX.step h.object h.alone (hX.next_ne n) hst
  obtain ⟨hissued, hresults, hinside⟩ := hX.next h.object ((h.inside n).mpr ⟨cb, hpc⟩) hst
  exact
    { h with
      object := hinv
      inside := by
        intro m
        rw [hinside]
        by_cases hm : m = n
        · subst hm
          rw [Function.update_self]
          cases X.returns u.object m <;> simp
        · have hout := h.inside m
          rw [hpc] at hout
          rw [Function.update_of_ne hm, hout]
          simp [Ne.symm hm]
      heard := by
        rw [hresults]
        exact h.heard
      issued := by
        rw [hissued, h.issued, given, given, hpc]
        cases hret : X.returns u.object n with
        | none => simp [CallPc.given]
        | some id => by_cases hid : 0 < id <;> simp [CallPc.given, hid]
      stopped := fun hr => hlive (h.stopped hr) }

/-- The callback is registered. -/
theorem put (hX : X.Lawful clean inv issued results) (h : Linked X inv issued results u)
    {n : Nat} {id : Int} {cb : Option κ} (hpc : u.holder = some (n, .put id cb)) (hid : 0 < id) :
    Linked X inv issued results { u with
      callbacks := Function.update u.callbacks id cb
      registered := u.registered ++ [(id, cb)]
      holder := none } := by
  have hgiven : u.given = [id] := by simp [given, hpc, CallPc.given, hid]
  have hissued := h.issued
  rw [hgiven] at hissued
  have hnew : id ∉ u.registered.map Prod.fst := by
    have hnodup := hX.nodup h.object
    rw [hissued] at hnodup
    exact fun hmem => (List.nodup_append.mp hnodup).2.2 id hmem id List.mem_cons_self rfl
  exact
    { h with
      inside := by
        intro m
        rw [h.inside, hpc]
        simp
      issued := by
        rw [hissued]
        simp [given]
      owned := h.owned.registered fun p hp => List.mem_append_left _ hp
      invoked := by
        intro r c hr
        obtain ⟨hmem, hcl⟩ := h.invoked r c hr
        exact ⟨List.mem_append_left _ hmem, hcl⟩
      callbacks := by
        intro id' cb' hmem
        rcases List.mem_append.mp hmem with hold | hlast
        · have hne : id' ≠ id := by
            rintro rfl
            exact hnew (List.mem_map_of_mem hold)
          exact (Function.update_of_ne hne _ _).trans (h.callbacks id' cb' hold)
        · obtain ⟨rfl, rfl⟩ := Prod.mk.inj (List.mem_singleton.mp hlast)
          refine (Function.update_self _ _ _).trans ?_
          simp only [h.owned.closed_eq_false hnew]
          rfl }

/-- The request has failed. -/
theorem fail (h : Linked X inv issued results u) {n : Nat} {id : Int} {cb : Option κ}
    (hpc : u.holder = some (n, .put id cb)) (hid : ¬ 0 < id) :
    Linked X inv issued results { u with holder := none } :=
  { h with
    inside := by
      intro m
      rw [h.inside, hpc]
      simp
    issued := by
      rw [h.issued]
      simp [given, hpc, CallPc.given, hid] }

theorem request (hX : X.Lawful clean inv issued results) (h : Linked X inv issued results u)
    (hst : u.request X = some v) : Linked X inv issued results v := by
  unfold Registry.request at hst
  split at hst
  · cases hst
  · rename_i n c cb hpc
    obtain ⟨object, hobj, heq⟩ := Option.bind_eq_some_iff.mp hst
    cases heq
    exact h.enter hX hpc hobj
  · rename_i n cb hpc
    obtain ⟨object, hobj, heq⟩ := Option.bind_eq_some_iff.mp hst
    cases heq
    exact h.next hX hpc hobj
  · rename_i n id cb hpc
    split at hst
    · rename_i hid
      cases hst
      exact h.put hX hpc hid
    · rename_i hid
      cases hst
      exact h.fail hpc hid

/-- A result is polled. -/
theorem polled (hX : X.Lawful clean inv issued results) (h : Linked X inv issued results u)
    (hpc : u.poller = .polling) (hlive : X.live u.object = true) {object : σ}
    (hst : X.step u.object X.poll = some object) :
    Linked X inv issued results { u with
      object := object
      poller := (X.polls u.object).elim .polling .lookUp } := by
  obtain ⟨hinv, -⟩ := hX.step h.object h.alone hX.poll_ne hst
  obtain ⟨hissued, hresults, hinside⟩ := hX.poll hlive hst
  have hheard := h.heard
  rw [hpc, PollPc.hand, List.append_nil] at hheard
  exact
    { object := hinv
      inside := by
        intro n
        rw [hinside]
        exact h.inside n
      heard := by
        rw [hresults, ← hheard]
        cases X.polls u.object <;> rfl
      issued := by
        rw [hissued]
        exact h.issued
      owned := h.owned
      invoked := by
        intro r cb hr
        cases hp : X.polls u.object <;> simp [hp] at hr
      removing := by
        intro r hr
        cases hp : X.polls u.object <;> simp [hp] at hr
      callbacks := by
        intro id cb hmem
        have hcb := h.callbacks id cb hmem
        rw [hpc] at hcb
        cases hp : X.polls u.object <;> exact hcb
      stopped := by
        rintro (hr | hr) <;> cases hp : X.polls u.object <;> simp [hp] at hr }

/-- The lock is free, so every request that has been given an id is registered. -/
theorem registered_of_free (h : Linked X inv issued results u) (hfree : u.holder = none) :
    issued u.object = u.registered.map Prod.fst := by
  rw [h.issued, given, hfree]
  exact List.append_nil _

/-- The callback is looked up. -/
theorem found (hX : X.Lawful clean inv issued results) (h : Linked X inv issued results u) {r : ρ}
    (hpc : u.poller = .lookUp r) (hfree : u.holder = none) :
    ∃ cb, (X.id r, cb) ∈ u.registered ∧
      u.callbacks (X.id r) = if closed X u.handled (X.id r) then none else cb := by
  have hmem : r ∈ results u.object := by
    rw [← h.heard, hpc]
    exact List.mem_append_right _ List.mem_cons_self
  have hid := hX.known h.object r hmem
  rw [h.registered_of_free hfree] at hid
  obtain ⟨⟨id, cb⟩, hreg, rfl⟩ := List.mem_map.mp hid
  refine ⟨cb, hreg, ?_⟩
  have hcb := h.callbacks _ _ hreg
  rw [hpc] at hcb
  simpa [PollPc.removes] using hcb

/-- There is no callback. -/
theorem missed (hX : X.Lawful clean inv issued results) (h : Linked X inv issued results u) {r : ρ}
    (hpc : u.poller = .lookUp r) (hfree : u.holder = none)
    (hnone : u.callbacks (X.id r) = none) :
    Linked X inv issued results { u with
      handled := u.handled ++ [{ result := r, callback := none, threw := false }]
      poller := .polling } := by
  obtain ⟨cb, hreg, hcb⟩ := h.found hX hpc hfree
  exact
    { h with
      heard := by
        rw [← h.heard, hpc]
        simp [PollPc.hand]
      owned := h.owned.snoc hreg (hnone.symm.trans hcb)
      invoked := by
        intro r cb hr
        cases hr
      removing := by
        intro r hr
        cases hr
      callbacks := by
        intro id cb' hmem
        have hold := h.callbacks id cb' hmem
        rw [hpc] at hold
        rw [closed_snoc]
        simpa [Handled.closes, PollPc.removes] using hold
      stopped := by
        rintro (hr | hr) <;> cases hr }

/-- The callback is invoked. -/
theorem invoke (hX : X.Lawful clean inv issued results) (h : Linked X inv issued results u) {r : ρ}
    {cb : κ} (hpc : u.poller = .lookUp r) (hfree : u.holder = none)
    (hsome : u.callbacks (X.id r) = some cb) :
    Linked X inv issued results { u with poller := .invoke r cb } := by
  obtain ⟨cb', hreg, hcb⟩ := h.found hX hpc hfree
  rw [hsome] at hcb
  have hopen : closed X u.handled (X.id r) = false := by
    cases hcl : closed X u.handled (X.id r) with
    | false => rfl
    | true => simp [hcl] at hcb
  obtain rfl : some cb = cb' := by simpa [hopen] using hcb
  exact
    { h with
      heard := by
        rw [← h.heard, hpc]
        rfl
      invoked := by
        intro r' c hr
        cases hr
        exact ⟨hreg, hopen⟩
      removing := by
        intro r' hr
        cases hr
      callbacks := by
        intro id c hmem
        have hold := h.callbacks id c hmem
        rw [hpc] at hold
        exact hold
      stopped := by
        rintro (hr | hr) <;> cases hr }

/-- The callback returns or throws. -/
theorem invoked_step (h : Linked X inv issued results u) {r : ρ} {cb : κ}
    (hpc : u.poller = .invoke r cb) (threw : Bool) :
    Linked X inv issued results { u with
      handled := u.handled ++ [{ result := r, callback := some cb, threw := threw }]
      poller := if (⟨r, some cb, threw⟩ : Handled κ ρ).closes X then .remove r else .polling } := by
  obtain ⟨hreg, hopen⟩ := h.invoked r cb hpc
  have hheard := h.heard
  rw [hpc] at hheard
  exact
    { h with
      heard := by
        rw [← hheard]
        split <;> simp [PollPc.hand]
      owned := by
        refine h.owned.snoc hreg ?_
        simp [hopen]
      invoked := by
        intro r' c hr
        split at hr <;> cases hr
      removing := by
        intro r' hr
        split at hr
        · rename_i hcl
          cases hr
          rw [closed_snoc, hcl]
          simp
        · cases hr
      callbacks := by
        intro id c hmem
        have hold := h.callbacks id c hmem
        rw [hpc] at hold
        rw [closed_snoc]
        refine hold.trans ?_
        -- the entry is removed in the next step, if at all
        by_cases hcl : (⟨r, some cb, threw⟩ : Handled κ ρ).closes X = true
        · rw [if_pos hcl, hcl]
          by_cases hid : X.id r = id
          · subst hid
            simp [PollPc.removes, hopen]
          · simp [PollPc.removes, hid]
        · rw [if_neg hcl, Bool.eq_false_iff.mpr hcl]
          simp [PollPc.removes]
      stopped := by
        rintro (hr | hr) <;> split at hr <;> cases hr }

/-- The callback is removed. -/
theorem removed (h : Linked X inv issued results u) {r : ρ} (hpc : u.poller = .remove r) :
    Linked X inv issued results { u with
      callbacks := Function.update u.callbacks (X.id r) none
      poller := .polling } := by
  have hclosed := h.removing r hpc
  exact
    { h with
      heard := by
        rw [← h.heard, hpc]
        rfl
      invoked := by
        intro r' c hr
        cases hr
      removing := by
        intro r' hr
        cases hr
      callbacks := by
        intro id c hmem
        have hold := h.callbacks id c hmem
        rw [hpc] at hold
        by_cases hid : id = X.id r
        · subst hid
          refine (Function.update_self _ _ _).trans ?_
          simp [hclosed, PollPc.removes]
        · refine (Function.update_of_ne hid _ _).trans (hold.trans ?_)
          simp [PollPc.removes, Ne.symm hid]
      stopped := by
        rintro (hr | hr) <;> cases hr }

/-- The thread that polls ends, or is joined. -/
theorem goto (h : Linked X inv issued results u) (pc : PollPc κ ρ)
    (hpc : u.poller.hand = [] ∧ ∀ id, u.poller.removes X id = false)
    (hpc' : pc = .absent ∨ pc = .done) (hlive : X.live u.object = false) :
    Linked X inv issued results { u with poller := pc } :=
  { h with
    heard := by
      rw [← h.heard, hpc.1]
      rcases hpc' with rfl | rfl <;> rfl
    invoked := by
      rintro r cb rfl
      rcases hpc' with hr | hr <;> cases hr
    removing := by
      rintro r rfl
      rcases hpc' with hr | hr <;> cases hr
    callbacks := by
      intro id cb hmem
      have hcb := h.callbacks id cb hmem
      rw [hpc.2] at hcb
      rcases hpc' with rfl | rfl <;> exact hcb
    stopped := fun _ => hlive }

theorem pollerStep (hX : X.Lawful clean inv issued results) (h : Linked X inv issued results u)
    {threw : Bool} (hst : u.pollerStep X threw = some v) : Linked X inv issued results v := by
  unfold Registry.pollerStep at hst
  split at hst
  · cases hst
  · rename_i hpc
    split at hst
    · rename_i hlive
      obtain ⟨object, hobj, heq⟩ := Option.bind_eq_some_iff.mp hst
      cases heq
      exact h.polled hX hpc hlive hobj
    · rename_i hlive
      cases hst
      exact h.goto .done (by simp [hpc, PollPc.hand, PollPc.removes]) (.inr rfl)
        (Bool.eq_false_iff.mpr hlive)
  · rename_i r hpc
    split at hst
    · cases hst
    · rename_i hheld
      have hfree : u.holder = none := by simpa using hheld
      split at hst
      · rename_i hnone
        cases hst
        exact h.missed hX hpc hfree hnone
      · rename_i cb hsome
        cases hst
        exact h.invoke hX hpc hfree hsome
  · rename_i r cb hpc
    cases hst
    exact h.invoked_step hpc threw
  · rename_i r hpc
    split at hst
    · cases hst
    · cases hst
      exact h.removed hpc
  · cases hst

end Linked

/-- The object is prepared again when it is clean, and nobody is making a request. -/
def Clean (clean : σ → Prop) (u : Registry σ ι κ ρ) (a : RegistryAct α ι κ) : Prop :=
  a = .prepare → u.holder = none ∧ clean u.object

instance (clean : σ → Prop) [DecidablePred clean] (u : Registry σ ι κ ρ)
    (a : RegistryAct α ι κ) : Decidable (Clean clean u a) :=
  match a with
  | .prepare => decidable_of_iff (u.holder = none ∧ clean u.object) ⟨fun h _ => h, fun h => h rfl⟩
  | .join | .call _ _ _ | .request | .poller _ | .object _ =>
      .isTrue nofun

namespace Linked

variable [DecidableEq α]

/-- **One step.** -/
theorem step (hX : X.Lawful clean inv issued results) (h : Linked X inv issued results u)
    {a : RegistryAct α ι κ} (hok : Clean clean u a) (hst : u.step X a = some v) :
    Linked X inv issued results v := by
  unfold Registry.step at hst
  split at hst
  · obtain ⟨hfree, hclean⟩ := hok rfl
    split at hst
    · rename_i hpc
      obtain ⟨object, hobj, heq⟩ := Option.bind_eq_some_iff.mp hst
      cases heq
      exact h.prepare hX hfree hclean hpc hobj
    · cases hst
  · split at hst
    · rename_i hpc
      cases hst
      exact h.goto .absent (by simp [hpc, PollPc.hand, PollPc.removes]) (.inl rfl)
        (h.stopped (.inr hpc))
    · cases hst
  · split at hst
    · cases hst
    · rename_i n c cb hheld
      cases hst
      exact h.call (by simpa using hheld) n c cb
  · exact h.request hX hst
  · exact h.pollerStep hX hst
  · split at hst
    · rename_i a hguard
      obtain ⟨hprep, hpoll, henter, hfree⟩ := hguard
      obtain ⟨object, hobj, heq⟩ := Option.bind_eq_some_iff.mp hst
      cases heq
      exact h.object_step hX hprep hpoll henter hfree hobj
    · cases hst

theorem run (hX : X.Lawful clean inv issued results)
    (hrun : Run (fun u a v => Registry.step X u a = some v) (Clean clean) u v)
    (h : Linked X inv issued results u) : Linked X inv issued results v :=
  hrun.invariant (fun _ _ _ h hok hst => h.step hX hok hst) h

end Linked

/-! ### What follows -/

namespace Linked

theorem nodup (hX : X.Lawful clean inv issued results) (h : Linked X inv issued results u) :
    (u.registered.map Prod.fst).Nodup := by
  have hnodup := hX.nodup h.object
  rw [h.issued] at hnodup
  exact (List.nodup_append.mp hnodup).1

end Linked

end Registry

end OpenVoice.Lib
