import Mathlib.Logic.Relation

/-!
# Runs of a labelled transition relation

A concurrent program is given by a relation `step s a t`: in state `s` the action `a` may be
executed and leads to `t`.  A *guarded* run is one whose every action meets a condition `ok` on
the action and the state it is executed in.  The condition is how a statement restricts the
schedules it talks about, and `Run.invariant` is the induction every safety result rests on.
-/

namespace OpenVoice.Lib

variable {σ α : Type*}

/-- `Run step ok s t`: some sequence of steps leads from `s` to `t`, each of them meeting `ok`
    in the state it is taken in. -/
inductive Run (step : σ → α → σ → Prop) (ok : σ → α → Prop) : σ → σ → Prop where
  | refl (s : σ) : Run step ok s s
  | snoc {s t u : σ} {a : α} : Run step ok s t → ok t a → step t a u → Run step ok s u

/-- The condition that excludes nothing. -/
def Always (_ : σ) (_ : α) : Prop := True

instance (s : σ) (a : α) : Decidable (Always s a) := .isTrue trivial

variable {step : σ → α → σ → Prop} {ok ok' : σ → α → Prop} {s t u : σ}

/-- **The invariant rule.**  What holds at the start and is preserved by every step that meets
    the condition holds in every state the run reaches. -/
theorem Run.invariant {inv : σ → Prop}
    (hstep : ∀ t a u, inv t → ok t a → step t a u → inv u)
    (hrun : Run step ok s t) (hs : inv s) : inv t := by
  induction hrun with
  | refl => exact hs
  | snoc _ hok hst ih => exact hstep _ _ _ ih hok hst

theorem Run.trans (h₁ : Run step ok s t) (h₂ : Run step ok t u) : Run step ok s u := by
  induction h₂ with
  | refl => exact h₁
  | snoc _ hok hst ih => exact ih.snoc hok hst

/-- A weaker condition admits more runs. -/
theorem Run.mono (hsub : ∀ s a, ok s a → ok' s a) (hrun : Run step ok s t) :
    Run step ok' s t := by
  induction hrun with
  | refl => exact .refl _
  | snoc _ hok hst ih => exact ih.snoc (hsub _ _ hok) hst

/-- A run is one of a relation with more actions. -/
theorem Run.relabel {β : Type*} {step' : σ → β → σ → Prop} {ok' : σ → β → Prop} (f : α → β)
    (hok : ∀ s a, ok s a → ok' s (f a)) (hstep : ∀ s a t, step s a t → step' s (f a) t)
    (hrun : Run step ok s t) : Run step' ok' s t := by
  induction hrun with
  | refl => exact .refl _
  | snoc _ hoka hst ih => exact ih.snoc (hok _ _ hoka) (hstep _ _ _ hst)

/-! ### Executable steps -/

variable {next : σ → α → Option σ}

/-- Execute a list of actions. -/
def exec (next : σ → α → Option σ) : σ → List α → Option σ
  | s, [] => some s
  | s, a :: as =>
      match next s a with
      | none => none
      | some t => exec next t as

/-- Every action of the list meets the condition in the state it is executed in. -/
def allOk (next : σ → α → Option σ) (ok : σ → α → Prop) [∀ s a, Decidable (ok s a)] :
    σ → List α → Bool
  | _, [] => true
  | s, a :: as =>
      decide (ok s a) &&
        match next s a with
        | none => true
        | some t => allOk next ok t as

/-- An execution is a run. -/
theorem Run.of_exec [∀ s a, Decidable (ok s a)] {as : List α} (hok : allOk next ok s as = true)
    (h : exec next s as = some t) : Run (fun s a t => next s a = some t) ok s t := by
  induction as generalizing s with
  | nil =>
      cases h
      exact .refl _
  | cons a as ih =>
      unfold exec at h
      unfold allOk at hok
      rw [Bool.and_eq_true, decide_eq_true_iff] at hok
      split at h
      · cases h
      · rename_i u hu
        obtain ⟨hoka, hrest⟩ := hok
        rw [hu] at hrest
        exact (Run.snoc (.refl s) hoka hu).trans (ih hrest h)

theorem allOk_always (s : σ) (as : List α) : allOk next Always s as = true := by
  induction as generalizing s with
  | nil => rfl
  | cons a as ih =>
      unfold allOk
      rw [Bool.and_eq_true]
      refine ⟨decide_eq_true trivial, ?_⟩
      split
      · rfl
      · exact ih _

/-- Whatever is executed, the state reached is reached by a run. -/
theorem Run.exec_getD (s : σ) (as : List α) :
    Run (fun s a t => next s a = some t) Always s ((exec next s as).getD s) := by
  cases h : exec next s as with
  | none => exact .refl s
  | some t => exact .of_exec (allOk_always s as) h

end OpenVoice.Lib
