import OpenVoice.Lib.Run

/-!
# Runs that are observed

What a step does is observed as a list of events, and the events of a run are its trace.  The
trace is a history: no step depends on it, and every run can be observed
(`Traced.exists_run`).
-/

namespace OpenVoice.Lib

variable {σ α ε : Type*}

/-- A state with the events that have led to it. -/
structure Traced (σ ε : Type*) where
  state : σ
  trace : List ε

namespace Traced

variable {next : σ → α → Option σ} {observe : σ → α → List ε} {ok : σ → α → Prop}

/-- A step together with the events observed in it. -/
def step (next : σ → α → Option σ) (observe : σ → α → List ε) (u : Traced σ ε) (a : α) :
    Option (Traced σ ε) :=
  (next u.state a).map fun t => ⟨t, u.trace ++ observe u.state a⟩

/-- A condition on the steps of the program, for observed steps. -/
def Lift (ok : σ → α → Prop) (u : Traced σ ε) (a : α) : Prop := ok u.state a

instance [∀ s a, Decidable (ok s a)] (u : Traced σ ε) (a : α) : Decidable (Lift ok u a) :=
  inferInstanceAs (Decidable (ok u.state a))

theorem step_eq_some {u v : Traced σ ε} {a : α} :
    step next observe u a = some v ↔
      next u.state a = some v.state ∧ v.trace = u.trace ++ observe u.state a := by
  unfold step
  rw [Option.map_eq_some_iff]
  constructor
  · rintro ⟨t, ht, rfl⟩
    exact ⟨ht, rfl⟩
  · rintro ⟨hst, htr⟩
    refine ⟨v.state, hst, ?_⟩
    rw [← htr]

/-- **Every run can be observed.** -/
theorem exists_run {s t : σ} (hrun : Run (fun s a t => next s a = some t) ok s t) (l : List ε) :
    ∃ tr, Run (fun u a v => step next observe u a = some v) (Lift ok) ⟨s, l⟩ ⟨t, tr⟩ := by
  induction hrun with
  | refl => exact ⟨l, .refl _⟩
  | @snoc t u a hrun hok hst ih =>
      obtain ⟨tr, htr⟩ := ih
      refine ⟨tr ++ observe t a, htr.snoc hok ?_⟩
      exact step_eq_some.mpr ⟨hst, rfl⟩

/-- What is observed can be observed in less detail. -/
theorem run_filterMap {ε' : Type*} (f : ε → Option ε') {observe' : σ → α → List ε'}
    (ho : ∀ s a, (observe s a).filterMap f = observe' s a) {s : σ} {u : Traced σ ε}
    (hrun : Run (fun u a v => step next observe u a = some v) (Lift ok) ⟨s, []⟩ u) :
    Run (fun u a v => step next observe' u a = some v) (Lift ok) ⟨s, []⟩
      ⟨u.state, u.trace.filterMap f⟩ := by
  induction hrun with
  | refl => exact .refl _
  | snoc _ hok hst ih =>
      obtain ⟨hnext, htrace⟩ := step_eq_some.mp hst
      refine ih.snoc hok (step_eq_some.mpr ⟨hnext, ?_⟩)
      rw [htrace, List.filterMap_append, ho]

end Traced

end OpenVoice.Lib
