import Mathlib.Data.List.Forall2
import VissServer.Library.Runs

/-!
Stages of a machine through which items pass in their order. Over any run, what has entered a
stage is what has left it, followed by what it holds; two stages with a conversion between them
make a pipeline. A state from which no sequence of steps leads to a property is told by an
invariant that excludes the property.
-/
namespace Pipelines

open Runs

variable {σ ε ω α β : Type*} {step : σ → ε → Option (σ × ω)} {init : σ → Prop}
  {h : History σ ε ω} {s : σ}

/-! ## The items of a run -/

/-- The items that pass a gate in the moves of a history, the earliest first. -/
def passed (gate : Move σ ε ω → List α) : History σ ε ω → List α
  | [] => []
  | x :: h => passed gate h ++ gate x

/-- A move keeps the items of a stage in their order. -/
def Keeps (enters leaves : Move σ ε ω → List α) (holds : σ → List α) (x : Move σ ε ω) : Prop :=
  holds x.before ++ enters x = leaves x ++ holds x.after

theorem passed_keeps {enters leaves : Move σ ε ω → List α} {holds : σ → List α}
    (hrun : Run step init h s) (hinit : ∀ s, init s → holds s = [])
    (hstep : ∀ x : Move σ ε ω, x.Of step → Keeps enters leaves holds x) :
    passed enters h = passed leaves h ++ holds s := by
  refine hrun.invariant (I := fun h s => passed enters h = passed leaves h ++ holds s) ?_ ?_
  · intro s hs
    rw [hinit s hs]
    rfl
  · intro h x ih hx
    have hkeeps : holds x.before ++ enters x = leaves x ++ holds x.after := hstep x hx
    rw [passed, passed, ih, List.append_assoc, hkeeps, List.append_assoc]

theorem passed_converts {R : α → β → Prop} {enters : Move σ ε ω → List α}
    {leaves : Move σ ε ω → List β} (hrun : Run step init h s)
    (hstep : ∀ x : Move σ ε ω, x.Of step → List.Forall₂ R (enters x) (leaves x)) :
    List.Forall₂ R (passed enters h) (passed leaves h) := by
  refine hrun.invariant
    (I := fun h _ => List.Forall₂ R (passed enters h) (passed leaves h)) ?_ ?_
  · intro _ _
    exact .nil
  · intro h x ih hx
    exact List.rel_append ih (hstep x hx)

/-- A pipeline: of what has entered the first stage all that has been taken out of it is
converted item by item, and what it is converted to has left the second stage or is in it. -/
theorem passed_pipeline {R : α → β → Prop} {enters taken : Move σ ε ω → List α}
    {converted leaves : Move σ ε ω → List β} {first : σ → List α} {second : σ → List β}
    (hrun : Run step init h s) (hinit : ∀ s, init s → first s = [] ∧ second s = [])
    (hfirst : ∀ x : Move σ ε ω, x.Of step → Keeps enters taken first x)
    (hconvert : ∀ x : Move σ ε ω, x.Of step → List.Forall₂ R (taken x) (converted x))
    (hsecond : ∀ x : Move σ ε ω, x.Of step → Keeps converted leaves second x) :
    ∃ items, passed enters h = items ++ first s ∧
      List.Forall₂ R items (passed leaves h ++ second s) := by
  refine ⟨passed taken h, passed_keeps hrun (fun s hs => (hinit s hs).1) hfirst, ?_⟩
  rw [← passed_keeps hrun (fun s hs => (hinit s hs).2) hsecond]
  exact passed_converts hrun hconvert

/-! ## What can still be reached -/

/-- Some sequence of steps leads to a state with the property. -/
inductive Reaches (step : σ → ε → Option (σ × ω)) (P : σ → Prop) : σ → Prop
  | here {s : σ} : P s → Reaches step P s
  | next {s s' : σ} {e : ε} {o : ω} : step s e = some (s', o) → Reaches step P s' →
      Reaches step P s

/-- Where an invariant excludes the property, the property cannot be reached. -/
theorem not_reaches {J P : σ → Prop}
    (hkeep : ∀ s e s' o, J s → step s e = some (s', o) → J s')
    (hexclude : ∀ s, J s → ¬ P s) (hs : J s) : ¬ Reaches step P s := by
  intro hreach
  induction hreach with
  | here hP => exact hexclude _ hs hP
  | next hstep _ ih => exact ih (hkeep _ _ _ _ hs hstep)

end Pipelines
