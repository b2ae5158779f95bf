import OpenVoice.StreamQueue.Refinement

/-!
# Runs of `StreamQueue` calls

A client of the queue makes calls, in any order and with any arguments.  `StreamQueue.calls`
runs a sequence of them on the concrete members, `Fifo.calls` on the records; the simulation of
the single operations gives that of whole sequences (`streamQueue_refines_fifo`).
-/

namespace OpenVoice

variable {T A : Type}

/-- A call on a `StreamQueue`. -/
inductive Call (T A : Type) where
  | start (id : Int)
  | stream (id : Int) (data : Sp T)
  | end_ (id : Int) (data : Sp T)
  | setArg (id : Int) (arg : Sp A)
  | getArg (id : Int)
  | erase (id : Int) (err : BitVec 32)
  | clear
  | close
  | available
  | pop (out : PopArgs T)
deriving DecidableEq, Repr

/-- What a call returns, out parameters included. -/
inductive Ret (T A : Type) where
  | unit
  | flag (b : Bool)
  | arg (arg : Sp A)
  | range (minId maxId : Int)
  | popped (type : PopType) (out : PopArgs T)
deriving DecidableEq, Repr

/-- The id a call is about. -/
def Call.target : Call T A → Option Int
  | .start id | .stream id _ | .end_ id _ | .setArg id _ | .getArg id | .erase id _ => some id
  | .clear | .close | .available | .pop _ => none

def StreamQueue.call (q : StreamQueue T A) : Call T A → Option (Ret T A × StreamQueue T A)
  | .start id => some (.flag (q.start id).1, (q.start id).2)
  | .stream id data => (q.stream id data).map fun r => (.flag r.1, r.2)
  | .end_ id data => (q.end_ id data).map fun r => (.flag r.1, r.2)
  | .setArg id arg => (q.setArg id arg).map fun q' => (.unit, q')
  | .getArg id => (q.getArg id).map fun a => (.arg a, q)
  | .erase id err => (q.erase id err).map fun r => (.flag r.1, r.2)
  | .clear => q.clear.map fun r => (.range r.1.1 r.1.2, r.2)
  | .close => some (.unit, q.close)
  | .available => q.available.map fun b => (.flag b, q)
  | .pop out => (q.pop out).map fun r => (.popped r.1 r.2.1, r.2.2)

def Fifo.call (rs : List (Record T A)) : Call T A → Ret T A × List (Record T A)
  | .start id => (.flag (Fifo.start id rs).1, (Fifo.start id rs).2)
  | .stream id data => (.flag (Fifo.stream id data rs).1, (Fifo.stream id data rs).2)
  | .end_ id data => (.flag (Fifo.end_ id data rs).1, (Fifo.end_ id data rs).2)
  | .setArg id arg => (.unit, Fifo.setArg id arg rs)
  | .getArg id => (.arg (Fifo.getArg id rs), rs)
  | .erase id err => (.flag (Fifo.erase id err rs).1, (Fifo.erase id err rs).2)
  | .clear => (.range (Fifo.clear rs).1.1 (Fifo.clear rs).1.2, (Fifo.clear rs).2)
  | .close => (.unit, [])
  | .available => (.flag (Fifo.available rs), rs)
  | .pop out => (.popped (Fifo.pop out rs).1 (Fifo.pop out rs).2.1, (Fifo.pop out rs).2.2)

def StreamQueue.calls (q : StreamQueue T A) :
    List (Call T A) → Option (List (Ret T A) × StreamQueue T A)
  | [] => some ([], q)
  | c :: cs => do
      let (ret, q) ← q.call c
      let (rets, q) ← q.calls cs
      return (ret :: rets, q)

def Fifo.calls (rs : List (Record T A)) :
    List (Call T A) → List (Ret T A) × List (Record T A)
  | [] => ([], rs)
  | c :: cs =>
      let r := Fifo.call rs c
      let r' := Fifo.calls r.2 cs
      (r.1 :: r'.1, r'.2)

/-- **One call.**  On a well-formed queue no `assert` fails, and the call does to the records
    what it does to the FIFO of streams. -/
theorem StreamQueue.call_simulates {q : StreamQueue T A} (h : q.Wf) (c : Call T A) :
    ∃ q', q.call c = some ((Fifo.call q.records c).1, q') ∧ q'.Wf ∧
      q'.records = (Fifo.call q.records c).2 := by
  obtain ⟨segs, hrep⟩ := h
  rw [hrep.records_eq]
  cases c with
  | start id =>
      obtain ⟨segs', hrep', hret, hrec⟩ := start_represents id hrep
      exact ⟨_, by simp [call, Fifo.call, hret], ⟨segs', hrep'⟩,
        by rw [hrep'.records_eq, hrec]; rfl⟩
  | stream id data =>
      obtain ⟨b, q', segs', hq', hrep', hret, hrec⟩ := stream_represents id hrep data
      exact ⟨q', by simp [call, Fifo.call, hq', hret], ⟨segs', hrep'⟩,
        by rw [hrep'.records_eq, hrec]; rfl⟩
  | end_ id data =>
      obtain ⟨b, q', segs', hq', hrep', hret, hrec⟩ := end_represents id hrep data
      exact ⟨q', by simp [call, Fifo.call, hq', hret], ⟨segs', hrep'⟩,
        by rw [hrep'.records_eq, hrec]; rfl⟩
  | setArg id arg =>
      obtain ⟨q', segs', hq', hrep', hrec⟩ := setArg_represents id hrep arg
      exact ⟨q', by simp [call, Fifo.call, hq'], ⟨segs', hrep'⟩,
        by rw [hrep'.records_eq, hrec]; rfl⟩
  | getArg id =>
      exact ⟨q, by simp [call, Fifo.call, getArg_represents id hrep], ⟨segs, hrep⟩,
        hrep.records_eq⟩
  | erase id err =>
      obtain ⟨b, q', segs', hq', hrep', hret, hrec⟩ := erase_represents id hrep err
      exact ⟨q', by simp [call, Fifo.call, hq', hret], ⟨segs', hrep'⟩,
        by rw [hrep'.records_eq, hrec]; rfl⟩
  | clear =>
      obtain ⟨q', segs', hq', hrep', hrec⟩ := clear_represents hrep
      exact ⟨q', by simp [call, Fifo.call, hq'], ⟨segs', hrep'⟩,
        by rw [hrep'.records_eq, hrec]; rfl⟩
  | close =>
      have hrep' := represents_close q
      exact ⟨q.close, rfl, ⟨[], hrep'⟩, hrep'.records_eq⟩
  | available =>
      exact ⟨q, by simp [call, Fifo.call, available_represents hrep], ⟨segs, hrep⟩,
        hrep.records_eq⟩
  | pop out =>
      obtain ⟨t, out', q', segs', hq', hrep', hpop⟩ := pop_represents hrep out
      exact ⟨q', by simp [call, Fifo.call, hq', hpop], ⟨segs', hrep'⟩,
        by simp [hrep'.records_eq, Fifo.call, hpop]⟩

/-- A sequence of calls, by induction on it. -/
theorem StreamQueue.calls_simulates {q : StreamQueue T A} (h : q.Wf) (cs : List (Call T A)) :
    ∃ q', q.calls cs = some ((Fifo.calls q.records cs).1, q') ∧ q'.Wf ∧
      q'.records = (Fifo.calls q.records cs).2 := by
  induction cs generalizing q with
  | nil => exact ⟨q, rfl, h, rfl⟩
  | cons c cs ih =>
      obtain ⟨q₁, hcall, hwf, hrec⟩ := call_simulates h c
      obtain ⟨q₂, hcalls, hwf', hrec'⟩ := ih hwf
      rw [hrec] at hcalls hrec'
      exact ⟨q₂, by simp [calls, hcall, hcalls, Fifo.calls], hwf', hrec'⟩

/-- A call about one id leaves the record of every other id unchanged. -/
theorem Fifo.find_call_of_ne (rs : List (Record T A)) {c : Call T A} {id id' : Int}
    (hc : c.target = some id) (hne : id' ≠ id) :
    Fifo.find id' (Fifo.call rs c).2 = Fifo.find id' rs := by
  cases c with
  | start i =>
      obtain rfl : i = id := by simpa [Call.target] using hc
      by_cases hmem : i ∈ Fifo.ids rs
      · simp only [Fifo.call, Fifo.start_of_mem hmem]
      · simp only [Fifo.call, Fifo.start_of_notMem hmem]
        simp [Fifo.find, List.find?_append, Ne.symm hne]
  | stream i d =>
      obtain rfl : i = id := by simpa [Call.target] using hc
      simp only [Fifo.call, Fifo.stream]
      split
      · rfl
      · split
        · exact Fifo.find_amend_of_ne _ (fun _ => rfl) hne
        · rfl
  | end_ i d =>
      obtain rfl : i = id := by simpa [Call.target] using hc
      simp only [Fifo.call, Fifo.end_]
      split
      · exact Fifo.find_amend_of_ne _ (fun _ => rfl) hne
      · rfl
  | setArg i a =>
      obtain rfl : i = id := by simpa [Call.target] using hc
      exact Fifo.find_amend_of_ne _ (fun _ => rfl) hne
  | getArg i => rfl
  | erase i err =>
      obtain rfl : i = id := by simpa [Call.target] using hc
      simp only [Fifo.call, Fifo.erase]
      split
      · exact Fifo.find_amend_of_ne _ (fun _ => rfl) hne
      · rfl
  | clear => simp [Call.target] at hc
  | close => simp [Call.target] at hc
  | available => simp [Call.target] at hc
  | pop out => simp [Call.target] at hc

/-- **`StreamQueue` refines the FIFO of streams.**  For every sequence of calls from the empty
    queue: no `assert` fails on the way, the members represent the records of the FIFO model
    after the same calls, and the return values are the same; one more call about an id leaves
    the records of all other ids unchanged; and `available()` is true exactly when `pop` would
    not return `POP_TYPE_EMPTY`. -/
theorem streamQueue_refines_fifo (cs : List (Call T A)) :
    ∃ q, (StreamQueue.empty : StreamQueue T A).calls cs = some ((Fifo.calls [] cs).1, q) ∧
      q.Wf ∧ q.records = (Fifo.calls [] cs).2 ∧
      (∀ c id id', c.target = some id → id' ≠ id → ∀ ret q', q.call c = some (ret, q') →
        Fifo.find id' q'.records = Fifo.find id' q.records) ∧
      (∀ out t out' q', q.pop out = some (t, out', q') →
        (q.available = some true ↔ t ≠ .empty)) := by
  have hempty : (StreamQueue.empty : StreamQueue T A).Wf := ⟨[], StreamQueue.represents_empty⟩
  obtain ⟨q, hcalls, hwf, hrec⟩ := StreamQueue.calls_simulates hempty cs
  refine ⟨q, hcalls, hwf, hrec, ?_, ?_⟩
  · intro c id id' hc hne ret q' hcall
    obtain ⟨q'', hcall', -, hrec'⟩ := StreamQueue.call_simulates hwf c
    rw [hcall'] at hcall
    obtain ⟨-, rfl⟩ : _ = ret ∧ q'' = q' := by simpa using hcall
    rw [hrec', Fifo.find_call_of_ne q.records hc hne]
  · intro out t out' q' hpop
    obtain ⟨segs, hrep⟩ := hwf
    obtain ⟨t₁, out₁, q₁, segs₁, hpop₁, -, hfifo⟩ := StreamQueue.pop_represents hrep out
    rw [hpop₁] at hpop
    obtain ⟨rfl, -⟩ : t₁ = t ∧ _ := by simpa using hpop
    rw [StreamQueue.available_represents hrep, Option.some.injEq, Fifo.available_iff_pop out,
      hfifo]

end OpenVoice
