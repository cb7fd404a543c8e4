import Mathlib.Data.List.Basic

/-!
Runs of a machine whose step is a partial function of its state and an event. A
history lists the moves of a run, the latest first, so that the tail behind a
move is what happened before it. A property of runs is proved from what one step
does and from an invariant of histories and states.
-/
namespace Runs

variable {σ ε ω : Type*}

structure Move (σ ε ω : Type*) where
  before : σ
  event : ε
  after : σ
  output : ω

abbrev History (σ ε ω : Type*) := List (Move σ ε ω)

/-- The machine can take the move. -/
def Move.Of (step : σ → ε → Option (σ × ω)) (x : Move σ ε ω) : Prop :=
  step x.before x.event = some (x.after, x.output)

inductive Run (step : σ → ε → Option (σ × ω)) (init : σ → Prop) : History σ ε ω → σ → Prop
  | start {s : σ} : init s → Run step init [] s
  | next {h : History σ ε ω} {x : Move σ ε ω} :
      Run step init h x.before → x.Of step → Run step init (x :: h) x.after

/-- A property of every move of a history and of what happened before it. -/
def Always (P : History σ ε ω → Move σ ε ω → Prop) : History σ ε ω → Prop
  | [] => True
  | x :: h => P h x ∧ Always P h

variable {step : σ → ε → Option (σ × ω)} {init : σ → Prop}
  {P C : History σ ε ω → Move σ ε ω → Prop} {I : History σ ε ω → σ → Prop}

instance [∀ h x, Decidable (P h x)] : ∀ h, Decidable (Always P h)
  | [] => inferInstanceAs (Decidable True)
  | x :: h =>
      have : Decidable (Always P h) := instDecidableAlways h
      inferInstanceAs (Decidable (P h x ∧ Always P h))

theorem Always.imp {h : History σ ε ω} (himp : ∀ h x, P h x → C h x) (hP : Always P h) :
    Always C h := by
  induction h with
  | nil => trivial
  | cons x h ih => exact ⟨himp h x hP.1, ih hP.2⟩

/-- The invariant rule, under a condition on the moves. -/
theorem Run.invariant_of {h : History σ ε ω} {s : σ} (hrun : Run step init h s)
    (hC : Always C h) (hinit : ∀ s, init s → I [] s)
    (hnext : ∀ h x, I h x.before → x.Of step → C h x → I (x :: h) x.after) : I h s := by
  induction hrun with
  | start hs => exact hinit _ hs
  | next _ hx ih => exact hnext _ _ (ih hC.2) hx hC.1

/-- The invariant rule. -/
theorem Run.invariant {h : History σ ε ω} {s : σ} (hrun : Run step init h s)
    (hinit : ∀ s, init s → I [] s)
    (hnext : ∀ h x, I h x.before → x.Of step → I (x :: h) x.after) : I h s := by
  induction hrun with
  | start hs => exact hinit _ hs
  | next _ hx ih => exact hnext _ _ ih hx

/-- A condition that is exact for one step is exact for a run, where the property
itself carries the invariant from step to step. -/
theorem Run.always_iff {h : History σ ε ω} {s : σ} (hrun : Run step init h s)
    (hinit : ∀ s, init s → I [] s)
    (hexact : ∀ h x, I h x.before → x.Of step → (P h x ↔ C h x))
    (hkeep : ∀ h x, I h x.before → x.Of step → P h x → I (x :: h) x.after) :
    Always P h ↔ Always C h := by
  suffices hboth : (Always P h ↔ Always C h) ∧ (Always P h → I h s) from hboth.1
  induction hrun with
  | start hs => exact ⟨Iff.rfl, fun _ => hinit _ hs⟩
  | @next h x _ hx ih =>
    obtain ⟨hiff, hinv⟩ := ih
    refine ⟨⟨fun hP => ?_, fun hC => ?_⟩, fun hP => hkeep h x (hinv hP.2) hx hP.1⟩
    · exact ⟨(hexact h x (hinv hP.2) hx).mp hP.1, hiff.mp hP.2⟩
    · have hP : Always P h := hiff.mpr hC.2
      exact ⟨(hexact h x (hinv hP) hx).mpr hC.1, hP⟩

/-- Where an exact condition for one step into a bad state is known, a run avoids the bad
states if and only if all its steps meet the condition. -/
theorem Run.avoids_iff {J : σ → Prop} {B : σ → Prop} {K : Move σ ε ω → Prop}
    {h : History σ ε ω} {s : σ} (hrun : Run step init h s)
    (hinit : ∀ s, init s → J s ∧ ¬ B s)
    (hkeep : ∀ x : Move σ ε ω, x.Of step → J x.before → J x.after)
    (hexact : ∀ x : Move σ ε ω, x.Of step → J x.before → ¬ B x.before → (¬ B x.after ↔ K x)) :
    Always (fun _ x => ¬ B x.after) h ↔ Always (fun _ x => K x) h := by
  refine hrun.always_iff (I := fun _ s => J s ∧ ¬ B s) hinit ?_ ?_
  · intro _ x hx hstep
    exact hexact x hstep hx.1 hx.2
  · intro _ x hx hstep hB
    exact ⟨hkeep x hstep hx.1, hB⟩

/-- Every state that a run passes through is the end of a run. -/
theorem Run.before {h₁ h₂ : History σ ε ω} {x : Move σ ε ω} {s : σ}
    (hrun : Run step init (h₁ ++ x :: h₂) s) : Run step init h₂ x.before ∧ x.Of step := by
  induction h₁ generalizing s with
  | nil =>
    cases hrun with
    | next hrun hx => exact ⟨hrun, hx⟩
  | cons y h₁ ih =>
    cases hrun with
    | next hrun hy => exact ih hrun

/-- A move, seen through a map of the states and with an event and an output of another
machine. -/
def Move.map {σ' ε' ω' : Type*} (state : σ → σ') (seen : Move σ ε ω → ε' × ω')
    (x : Move σ ε ω) : Move σ' ε' ω' :=
  ⟨state x.before, (seen x).1, state x.after, (seen x).2⟩

/-- A simulation move by move: a run of the one machine is seen as a run of the other. -/
theorem Run.map {σ' ε' ω' : Type*} {step' : σ' → ε' → Option (σ' × ω')} {init' : σ' → Prop}
    {h : History σ ε ω} {s : σ} (hrun : Run step init h s) (state : σ → σ')
    (seen : Move σ ε ω → ε' × ω') (hinit : ∀ s, init s → init' (state s))
    (hmove : ∀ x : Move σ ε ω, x.Of step → (x.map state seen).Of step') :
    Run step' init' (h.map (Move.map state seen)) (state s) := by
  induction hrun with
  | start hs => exact .start (hinit _ hs)
  | @next h x _ hx ih => exact .next (x := x.map state seen) ih (hmove x hx)

theorem Run.of_mem {h : History σ ε ω} {x : Move σ ε ω} {s : σ} (hrun : Run step init h s)
    (hx : x ∈ h) : x.Of step := by
  obtain ⟨h₁, h₂, rfl⟩ := List.mem_iff_append.mp hx
  exact hrun.before.2

/-- The run on a list of events, none where a step cannot be taken. -/
def replay (step : σ → ε → Option (σ × ω)) (h : History σ ε ω) (s : σ) :
    List ε → Option (History σ ε ω × σ)
  | [] => some (h, s)
  | e :: es =>
      match step s e with
      | none => none
      | some (s', o) => replay step (⟨s, e, s', o⟩ :: h) s' es

theorem Run.of_replay {es : List ε} {h h' : History σ ε ω} {s s' : σ}
    (hrun : Run step init h s) (hes : replay step h s es = some (h', s')) :
    Run step init h' s' := by
  induction es generalizing h s with
  | nil =>
    simp only [replay, Option.some.injEq, Prod.mk.injEq] at hes
    obtain ⟨rfl, rfl⟩ := hes
    exact hrun
  | cons e es ih =>
    cases hstep : step s e with
    | none => simp [replay, hstep] at hes
    | some r =>
      obtain ⟨s₁, o⟩ := r
      simp only [replay, hstep] at hes
      exact ih (Run.next (x := ⟨s, e, s₁, o⟩) hrun hstep) hes

/-- A run of a machine, given by its events and a property of its history. -/
theorem exists_run_of_replay (es : List ε) (p : History σ ε ω → Prop) {s₀ : σ} (hs₀ : init s₀)
    (hes : ∃ r ∈ replay step [] s₀ es, p r.1) : ∃ h s, Run step init h s ∧ p h := by
  obtain ⟨⟨h, s⟩, hr, hp⟩ := hes
  exact ⟨h, s, Run.of_replay (.start hs₀) hr, hp⟩

end Runs
