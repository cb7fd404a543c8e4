import VissServer.Feeder.Processes

/-!
The inputs that the vehicle interface manager of the feeder simulates. Signals are random until
one is written; then that signal is simulated in steps of one, up to the value that was written.
-/
namespace VissServer.Feeder.Processes

open Go Runs

/-- The signal that was written last, and the number of inputs that were simulated since. -/
def written : NetworkHistory → Option (DomainData × ℕ)
  | [] => none
  | m :: h =>
      match m.output with
      | .called outData => some (outData, 0)
      | .simulated _ => (written h).map fun r => (r.1, r.2 + 1)
      | _ => written h

/-- A random value of a signal of the vehicle. -/
def RandomSignal (cfg : Config) (input : DomainData) : Prop :=
  ∃ e ∈ cfg.feederMap, ¬ Dotted e ∧ ∃ value < randomBound e.datatype,
    input = ⟨e.name, itoa value⟩

/-- What is simulated next: the signal that was written, from ten below its value up to it, and
after that random signals. -/
def Simulates (cfg : Config) (h : NetworkHistory) (input : DomainData) : Prop :=
  match written h with
  | none => RandomSignal cfg input
  | some (outData, n) =>
      if n ≤ 10 then
        input = ⟨outData.name, itoa (wrapInt64 (atoiIgnoringError outData.value - 10 + n))⟩
      else RandomSignal cfg input

section Simulation

variable {cfg : Config} {h : NetworkHistory} {x x' : Network} {e : Event} {o : Output}

/-- The steps of the vehicle interface manager, and the others. -/
theorem meet_vehicleMgr (hmeet : meet cfg x e = some (x', o)) :
    (x'.simCtx = x.simCtx ∧ o.called? = [] ∧ o.simulated? = [] ∧
      ∀ i, x'.vehicleMgr = .searching i → x.vehicleMgr = .searching i) ∨
    (∃ outData, o = .called outData ∧ x.vehicleMgr = .select ∧ x'.vehicleMgr = .select ∧
      x'.simCtx =
        { randomSim := false, path := outData.name, setVal := outData.value, iteration := 0 }) ∨
    (∃ i, x.vehicleMgr = .asleep ∧ simulateInput cfg i x = some (x', o)) ∨
    ∃ i value, x.vehicleMgr = .searching i ∧ selectRandomInput cfg i value x = some (x', o) := by
  cases e with
  | call =>
    simp only [meet] at hmeet
    split at hmeet
    · next outData hmgr hchan =>
      obtain ⟨rfl, rfl⟩ := hmeet
      exact .inr (.inl ⟨outData, rfl, hmgr, hmgr, rfl⟩)
    · cases hmeet
  | simulate signalIndex =>
    simp only [meet] at hmeet
    split at hmeet
    · next hmgr => exact .inr (.inr (.inl ⟨signalIndex, hmgr, hmeet⟩))
    · cases hmeet
  | search value =>
    simp only [meet] at hmeet
    split at hmeet
    · next signalIndex hmgr => exact .inr (.inr (.inr ⟨signalIndex, value, hmgr, hmeet⟩))
    · cases hmeet
  | read serverMessage =>
    simp only [meet] at hmeet
    split at hmeet
    · split at hmeet
      · cases hmeet
      · split at hmeet
        all_goals
          obtain ⟨rfl, rfl⟩ := hmeet
          exact .inl ⟨rfl, rfl, rfl, fun _ => id⟩
    · cases hmeet
  | takeVssInput order | takeVehicleInput order =>
    simp only [meet, convert] at hmeet
    split at hmeet
    · split at hmeet
      all_goals
        obtain ⟨rfl, rfl⟩ := hmeet
        exact .inl ⟨rfl, rfl, rfl, fun _ => id⟩
    · cases hmeet
  | accept | queue | takeActuator | sendActuator | store | sendVehicleOutput | sendVssOutput
  | default | sendInput =>
    simp only [meet] at hmeet
    split at hmeet
    · obtain ⟨rfl, rfl⟩ := hmeet
      exact .inl ⟨rfl, rfl, rfl, by simp⟩
    · cases hmeet

theorem wrapInt64_add (a : ℤ) (n : ℕ) : wrapInt64 (wrapInt64 a + n) = wrapInt64 (a + n) := by
  unfold wrapInt64
  omega

/-- The context of the simulation follows what was written; a search goes over an index of the
map, for a random signal. -/
structure Tracks (cfg : Config) (h : NetworkHistory) (x : Network) : Prop where
  simCtx : match written h with
    | none => x.simCtx.randomSim = true
    | some (outData, n) =>
        if n ≤ 10 then x.simCtx = ⟨false, outData.name, outData.value, n⟩
        else x.simCtx.randomSim = true
  search : ∀ i, x.vehicleMgr = .searching i →
    i < cfg.feederMap.length ∧ x.simCtx.randomSim = true

theorem written_quiet {m : Move Network Event Output} (hcalled : m.output.called? = [])
    (hsimulated : m.output.simulated? = []) : written (m :: h) = written h := by
  rw [written]
  split
  · next hout =>
    rw [hout] at hcalled
    cases hcalled
  · next hout =>
    rw [hout] at hsimulated
    cases hsimulated
  · rfl

theorem Tracks.start (storage : StateStorage) : Tracks cfg [] (initialNetwork storage) where
  simCtx := rfl
  search _ h := by cases h

/-- A random input comes out of a search only, which there is where signals are random. -/
theorem Tracks.simulates_random (ht : Tracks cfg h x) (hrandom : x.simCtx.randomSim = true)
    {input : DomainData} (hinput : RandomSignal cfg input) : Simulates cfg h input := by
  have hctx := ht.simCtx
  unfold Simulates
  split at hctx
  · exact hinput
  · split at hctx
    · rw [hctx] at hrandom
      cases hrandom
    · next hn =>
      rw [if_neg hn]
      exact hinput

/-- A written signal is simulated stepwise where signals are not random. -/
theorem Tracks.stepwise (ht : Tracks cfg h x) (hstepwise : x.simCtx.randomSim = false) :
    ∃ outData n, written h = some (outData, n) ∧ n ≤ 10 ∧
      x.simCtx = ⟨false, outData.name, outData.value, n⟩ := by
  have hctx := ht.simCtx
  split at hctx
  · rw [hctx] at hstepwise
    cases hstepwise
  · next outData n hwritten =>
    split at hctx
    · next hn => exact ⟨outData, n, hwritten, hn, hctx⟩
    · rw [hctx] at hstepwise
      cases hstepwise

/-- While signals are random, further inputs do not change that. -/
theorem Tracks.random_next (ht : Tracks cfg h x) (hrandom : x.simCtx.randomSim = true)
    {m : Move Network Event Output} {input : DomainData} (hout : m.output = .simulated input)
    (hctx : x'.simCtx = x.simCtx) (hmgr : ∀ i, x'.vehicleMgr ≠ .searching i) :
    Tracks cfg (m :: h) x' where
  simCtx := by
    have hbefore := ht.simCtx
    rw [written, hout, hctx]
    cases hwritten : written h with
    | none => exact hrandom
    | some r =>
      obtain ⟨outData, n⟩ := r
      rw [hwritten] at hbefore
      dsimp only at hbefore
      split at hbefore
      · rw [hbefore] at hrandom
        cases hrandom
      · next hn =>
        dsimp only [Option.map_some]
        rw [if_neg (by omega)]
        exact hrandom
  search i hi := absurd hi (hmgr i)

/-- Steps that neither write nor simulate. -/
theorem Tracks.quiet (ht : Tracks cfg h x) {m : Move Network Event Output}
    (hcalled : m.output.called? = []) (hsimulated : m.output.simulated? = [])
    (hctx : x'.simCtx = x.simCtx)
    (hsearch : ∀ i, x'.vehicleMgr = .searching i →
      i < cfg.feederMap.length ∧ x.simCtx.randomSim = true) :
    Tracks cfg (m :: h) x' where
  simCtx := by
    rw [written_quiet hcalled hsimulated, hctx]
    exact ht.simCtx
  search i hi := by
    rw [hctx]
    exact hsearch i hi

theorem simulateInput_tracks {m : Move Network Event Output} {i : ℕ}
    (ht : Tracks cfg h m.before)
    (hsim : simulateInput cfg i m.before = some (m.after, m.output)) :
    Tracks cfg (m :: h) m.after ∧ ∀ input ∈ m.output.simulated?, Simulates cfg h input := by
  unfold simulateInput at hsim
  split at hsim
  · next hrandom =>
    split at hsim
    · obtain ⟨hafter, hout⟩ := Prod.mk.inj (Option.some.inj hsim)
      refine ⟨ht.quiet (by rw [← hout]; rfl) (by rw [← hout]; rfl) (by rw [← hafter]) ?_,
        by rw [← hout]; simp⟩
      intro j hj
      rw [← hafter] at hj
      exact ht.search j hj
    · split at hsim
      · next hi =>
        obtain ⟨hafter, hout⟩ := Prod.mk.inj (Option.some.inj hsim)
        refine ⟨ht.quiet (by rw [← hout]; rfl) (by rw [← hout]; rfl) (by rw [← hafter]) ?_,
          by rw [← hout]; simp⟩
        intro j hj
        rw [← hafter] at hj
        cases hj
        exact ⟨hi, hrandom⟩
      · cases hsim
  · next hrandom =>
    obtain ⟨outData, n, hwritten, hn, hctx⟩ := ht.stepwise (by simpa using hrandom)
    obtain ⟨hafter, hout⟩ := Prod.mk.inj (Option.some.inj hsim)
    rw [hctx] at hafter hout
    refine ⟨⟨?_, ?_⟩, ?_⟩
    · -- the eleventh input is the last one
      rw [written, ← hout, hwritten, ← hafter]
      dsimp only [Option.map_some, simulateStepwise]
      by_cases hlast : n = 10
      · rw [if_neg (by omega), hlast]
        rfl
      · rw [if_pos (by omega)]
        simp [hlast]
    · intro j hj
      rw [← hafter] at hj
      cases hj
    · intro input hinput
      rw [← hout] at hinput
      obtain rfl := List.mem_singleton.mp hinput
      rw [Simulates, hwritten]
      dsimp only [simulateStepwise]
      rw [if_pos hn, calcInputValue, wrapInt64_add]

theorem selectRandomInput_tracks {m : Move Network Event Output} {i value : ℕ}
    (ht : Tracks cfg h m.before) (hmgr : m.before.vehicleMgr = .searching i)
    (hsel : selectRandomInput cfg i value m.before = some (m.after, m.output)) :
    Tracks cfg (m :: h) m.after ∧ ∀ input ∈ m.output.simulated?, Simulates cfg h input := by
  obtain ⟨hi, hrandom⟩ := ht.search i hmgr
  unfold selectRandomInput at hsel
  rw [List.getElem?_eq_getElem hi] at hsel
  dsimp only at hsel
  split at hsel
  · split at hsel
    · obtain ⟨hafter, hout⟩ := Prod.mk.inj (Option.some.inj hsel)
      refine ⟨ht.quiet (by rw [← hout]; rfl) (by rw [← hout]; rfl) (by rw [← hafter]) ?_,
        by rw [← hout]; simp⟩
      intro j hj
      rw [← hafter] at hj
      exact ht.search j hj
    · next hlength =>
      obtain ⟨hafter, hout⟩ := Prod.mk.inj (Option.some.inj hsel)
      refine ⟨ht.quiet (by rw [← hout]; rfl) (by rw [← hout]; rfl) (by rw [← hafter]) ?_,
        by rw [← hout]; simp⟩
      intro j hj
      rw [← hafter] at hj
      cases hj
      have hmod := Nat.mod_lt (i + 1) (Nat.pos_of_ne_zero hlength)
      exact ⟨by omega, hrandom⟩
  · next hdotted =>
    split at hsel
    · next hvalue =>
      obtain ⟨hafter, hout⟩ := Prod.mk.inj (Option.some.inj hsel)
      refine ⟨ht.random_next hrandom hout.symm (by rw [← hafter]) (by rw [← hafter]; simp), ?_⟩
      intro input hinput
      rw [← hout] at hinput
      obtain rfl := List.mem_singleton.mp hinput
      exact ht.simulates_random hrandom
        ⟨_, List.getElem_mem hi, hdotted, value, hvalue, rfl⟩
    · cases hsel

theorem meet_tracks {m : Move Network Event Output} (ht : Tracks cfg h m.before)
    (hmeet : meet cfg m.before m.event = some (m.after, m.output)) :
    Tracks cfg (m :: h) m.after ∧ ∀ input ∈ m.output.simulated?, Simulates cfg h input := by
  rcases meet_vehicleMgr hmeet with ⟨hctx, hcalled, hsimulated, hsearch⟩ |
    ⟨outData, hout, -, hmgr, hctx⟩ | ⟨i, -, hsim⟩ | ⟨i, value, hmgr, hsel⟩
  · exact ⟨ht.quiet hcalled hsimulated hctx fun i hi => ht.search i (hsearch i hi),
      by rw [hsimulated]; simp⟩
  · refine ⟨⟨?_, ?_⟩, by rw [hout]; simp⟩
    · rw [written, hout, hctx]
      rfl
    · intro i hi
      rw [hmgr] at hi
      cases hi
  · exact simulateInput_tracks ht hsim
  · exact selectRandomInput_tracks ht hmgr hsel

theorem move_tracks {m : Move Network Event Output} (ht : Tracks cfg h m.before)
    (hm : m.Of (networkStep cfg)) :
    Tracks cfg (m :: h) m.after ∧ ∀ input ∈ m.output.simulated?, Simulates cfg h input := by
  unfold Move.Of networkStep at hm
  split at hm
  · cases hm
  · exact meet_tracks ht hm

theorem run_tracks (hrun : NetworkRun cfg h x) : Tracks cfg h x := by
  refine hrun.invariant (I := Tracks cfg) ?_ ?_
  · rintro x ⟨storage, rfl⟩
    exact .start storage
  · exact fun h m ht hm => (move_tracks ht hm).1

end Simulation

end VissServer.Feeder.Processes
