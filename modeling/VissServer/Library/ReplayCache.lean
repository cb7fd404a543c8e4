import Mathlib.Algebra.Group.Defs
import Mathlib.Data.List.Perm.Basic
import Mathlib.Order.Basic
import VissServer.Library.Runs

/-!
A guard against replays. A proof whose id is in the cache is refused; another one is
checked, and its id is stored whatever the check says. For each stored id a sleeper is
started that takes the id out of the cache some time later. A proof that the check passes
only in a window shorter than that time is accepted once.
-/
namespace ReplayCache

open Runs

variable {ι π τ : Type*}

structure State (ι τ : Type*) where
  cache : List ι
  /-- The ids whose removal is due, with the times at which they were stored. -/
  sleeping : List (ι × τ)
  clock : τ

inductive Event (ι π τ : Type*)
  | present (now : τ) (proof : π)
  | wake (now : τ) (sleeper : ι × τ)
  | pass (now : τ)

section

variable [DecidableEq ι] [BEq (ι × τ)] [LawfulBEq (ι × τ)] [LE τ] [DecidableLE τ] [Add τ]

/-- The output of a presentation tells whether the proof is accepted. -/
def step (id : π → ι) (check : τ → π → Bool) (retention : τ) (s : State ι τ) :
    Event ι π τ → Option (State ι τ × Bool)
  | .present now proof =>
      if s.clock ≤ now then
        if id proof ∈ s.cache then some ({ s with clock := now }, false)
        else some (⟨id proof :: s.cache, (id proof, now) :: s.sleeping, now⟩, check now proof)
      else none
  | .wake now sleeper =>
      if s.clock ≤ now ∧ sleeper ∈ s.sleeping ∧ sleeper.2 + retention ≤ now then
        some (⟨s.cache.filter fun i => i ≠ sleeper.1, s.sleeping.erase sleeper, now⟩, false)
      else none
  | .pass now => if s.clock ≤ now then some ({ s with clock := now }, false) else none

end

/-- Nothing has been stored yet. -/
def Started (s : State ι τ) : Prop := s.cache = [] ∧ s.sleeping = []

/-- The move accepts a proof of that kind. -/
def Accepts (P : π → Prop) (x : Move (State ι τ) (Event ι π τ) Bool) : Prop :=
  ∃ now proof, x.event = .present now proof ∧ x.output = true ∧ P proof

/-- The move stores the id at that time. -/
def Stores (id : π → ι) (sleeper : ι × τ) (x : Move (State ι τ) (Event ι π τ) Bool) : Prop :=
  ∃ proof, x.event = .present sleeper.2 proof ∧ id proof = sleeper.1 ∧ sleeper.1 ∉ x.before.cache

/-- Every id that is asleep is in the cache and sleeps once, and an id that was stored is
still asleep unless the retention time is over. -/
structure Kept [LE τ] [Add τ] (id : π → ι) (retention : τ)
    (h : History (State ι τ) (Event ι π τ) Bool) (s : State ι τ) : Prop where
  cached : ∀ sleeper ∈ s.sleeping, sleeper.1 ∈ s.cache
  once : (s.sleeping.map Prod.fst).Nodup
  stored : ∀ x ∈ h, ∀ sleeper, Stores id sleeper x →
    sleeper ∈ s.sleeping ∨ sleeper.2 + retention ≤ s.clock

variable [Preorder τ] [Add τ] {id : π → ι} {check : τ → π → Bool} {retention : τ}
  {h : History (State ι τ) (Event ι π τ) Bool} {s : State ι τ}

/-- Time passes, and nothing is stored or removed. -/
theorem Kept.wait {now : τ} {x : Move (State ι τ) (Event ι π τ) Bool}
    (hkept : Kept id retention h s) (hclock : s.clock ≤ now)
    (hx : ∀ sleeper, ¬ Stores id sleeper x) :
    Kept id retention (x :: h) { s with clock := now } := by
  refine ⟨hkept.cached, hkept.once, ?_⟩
  intro y hy sleeper hstores
  obtain rfl | hy := List.mem_cons.mp hy
  · exact absurd hstores (hx sleeper)
  · obtain hasleep | hover := hkept.stored y hy sleeper hstores
    · exact .inl hasleep
    · exact .inr (hover.trans hclock)

theorem Kept.store {now : τ} {proof : π} {x : Move (State ι τ) (Event ι π τ) Bool}
    (hkept : Kept id retention h s) (hclock : s.clock ≤ now) (hnew : id proof ∉ s.cache)
    (hx : x.event = .present now proof) :
    Kept id retention (x :: h)
      ⟨id proof :: s.cache, (id proof, now) :: s.sleeping, now⟩ := by
  refine ⟨?_, ?_, ?_⟩
  · intro sleeper hsleeper
    obtain rfl | hsleeper := List.mem_cons.mp hsleeper
    · exact List.mem_cons_self
    · exact List.mem_cons_of_mem _ (hkept.cached sleeper hsleeper)
  · apply List.nodup_cons.mpr
    refine ⟨?_, hkept.once⟩
    intro hmem
    obtain ⟨sleeper, hsleeper, heq⟩ := List.mem_map.mp hmem
    have hcached : sleeper.1 ∈ s.cache := hkept.cached sleeper hsleeper
    rw [heq] at hcached
    exact hnew hcached
  · intro y hy sleeper hstores
    obtain rfl | hy := List.mem_cons.mp hy
    · obtain ⟨proof', hevent, hid, -⟩ := hstores
      obtain ⟨hnow, rfl⟩ := Event.present.inj (hx.symm.trans hevent)
      have heq : sleeper = (id proof, now) := Prod.ext hid.symm hnow.symm
      exact .inl (heq ▸ List.mem_cons_self)
    · obtain hasleep | hover := hkept.stored y hy sleeper hstores
      · exact .inl (List.mem_cons_of_mem _ hasleep)
      · exact .inr (hover.trans hclock)

variable [DecidableEq ι] [BEq (ι × τ)] [LawfulBEq (ι × τ)]

theorem Kept.wake {now : τ} {sleeper : ι × τ} {x : Move (State ι τ) (Event ι π τ) Bool}
    (hkept : Kept id retention h s) (hclock : s.clock ≤ now) (hmem : sleeper ∈ s.sleeping)
    (hover : sleeper.2 + retention ≤ now) (hx : ∀ sleeper, ¬ Stores id sleeper x) :
    Kept id retention (x :: h)
      ⟨s.cache.filter fun i => i ≠ sleeper.1, s.sleeping.erase sleeper, now⟩ := by
  have hperm : s.sleeping.Perm (sleeper :: s.sleeping.erase sleeper) :=
    List.perm_cons_erase hmem
  have hnodup : ((sleeper :: s.sleeping.erase sleeper).map Prod.fst).Nodup :=
    (hperm.map Prod.fst).nodup_iff.mp hkept.once
  rw [List.map_cons, List.nodup_cons] at hnodup
  obtain ⟨hother, hrest⟩ := hnodup
  refine ⟨?_, hrest, ?_⟩
  · intro other hothermem
    have hne : other.1 ≠ sleeper.1 := fun heq =>
      hother (heq ▸ List.mem_map_of_mem hothermem)
    have hcached : other.1 ∈ s.cache := hkept.cached other (List.mem_of_mem_erase hothermem)
    simpa [hne] using hcached
  · intro y hy other hstores
    obtain rfl | hy := List.mem_cons.mp hy
    · exact absurd hstores (hx other)
    · obtain hasleep | hpast := hkept.stored y hy other hstores
      · obtain rfl | hin := List.mem_cons.mp (hperm.mem_iff.mp hasleep)
        · exact .inr hover
        · exact .inl hin
      · exact .inr (hpast.trans hclock)

variable [DecidableLE τ]

theorem Kept.next {x : Move (State ι τ) (Event ι π τ) Bool} (hkept : Kept id retention h x.before)
    (hx : x.Of (step id check retention)) : Kept id retention (x :: h) x.after := by
  obtain ⟨s, e, s', accepted⟩ := x
  simp only [Move.Of] at hx hkept ⊢
  cases e with
  | present now proof =>
    simp only [step] at hx
    split at hx
    · next hclock =>
      split at hx
      · next hold =>
        obtain ⟨rfl, rfl⟩ := Prod.mk.inj (Option.some.inj hx)
        apply hkept.wait hclock
        intro sleeper hstores
        obtain ⟨proof', hevent, hid, hnew⟩ := hstores
        obtain ⟨-, rfl⟩ := Event.present.inj hevent
        exact hnew (hid ▸ hold)
      · next hnew =>
        obtain ⟨rfl, rfl⟩ := Prod.mk.inj (Option.some.inj hx)
        exact hkept.store hclock hnew rfl
    · cases hx
  | wake now sleeper =>
    simp only [step] at hx
    split at hx
    · next hwake =>
      obtain ⟨hclock, hmem, hover⟩ := hwake
      obtain ⟨rfl, rfl⟩ := Prod.mk.inj (Option.some.inj hx)
      exact hkept.wake hclock hmem hover (by simp [Stores])
    · cases hx
  | pass now =>
    simp only [step] at hx
    split at hx
    · next hclock =>
      obtain ⟨rfl, rfl⟩ := Prod.mk.inj (Option.some.inj hx)
      exact hkept.wait hclock (by simp [Stores])
    · cases hx

theorem kept_of_run (hrun : Run (step id check retention) Started h s) : Kept id retention h s := by
  apply hrun.invariant
  · intro s hs
    obtain ⟨-, hsleeping⟩ := hs
    constructor
    · simp [hsleeping]
    · simp [hsleeping]
    · simp
  · intro h x hkept hx
    exact hkept.next hx

theorem exists_of_accepts {P : π → Prop} {x : Move (State ι τ) (Event ι π τ) Bool}
    (hx : x.Of (step id check retention)) (haccepts : Accepts P x) :
    ∃ now proof, P proof ∧ check now proof = true ∧ Stores id (id proof, now) x ∧
      x.before.clock ≤ now := by
  obtain ⟨now, proof, hevent, houtput, hP⟩ := haccepts
  obtain ⟨s, e, s', accepted⟩ := x
  simp only [Move.Of] at hx hevent houtput ⊢
  subst hevent houtput
  simp only [step] at hx
  split at hx
  · next hclock =>
    split at hx
    · simp at hx
    · next hnew =>
      obtain ⟨-, hcheck⟩ := Prod.mk.inj (Option.some.inj hx)
      exact ⟨now, proof, hP, hcheck, ⟨proof, rfl, rfl, hnew⟩, hclock⟩
  · cases hx

/-- Where the proofs of a kind all have one id and the check passes them only within less
than the retention time, one of them is accepted at most once. -/
theorem accepts_once {P : π → Prop} (hid : ∀ p q, P p → P q → id p = id q)
    (hwindow : ∀ now now' p q, P p → P q → check now p → check now' q → ¬ now + retention ≤ now')
    (hrun : Run (step id check retention) Started h s) :
    h.Pairwise fun x y => ¬ (Accepts P x ∧ Accepts P y) := by
  induction hrun with
  | start => exact .nil
  | @next h x hrun hx ih =>
    refine .cons ?_ ih
    intro y hy hboth
    obtain ⟨hxP, hyP⟩ := hboth
    have hkept : Kept id retention h x.before := kept_of_run hrun
    obtain ⟨now, p, hp, hcheckp, ⟨-, -, -, hnew⟩, hclock⟩ := exists_of_accepts hx hxP
    obtain ⟨earlier, q, hq, hcheckq, hstored, -⟩ := exists_of_accepts (hrun.of_mem hy) hyP
    obtain hasleep | hover := hkept.stored y hy _ hstored
    · have hcached : id q ∈ x.before.cache := hkept.cached _ hasleep
      exact hnew (hid p q hp hq ▸ hcached)
    · exact hwindow earlier now q p hq hp hcheckq hcheckp (hover.trans hclock)

end ReplayCache
