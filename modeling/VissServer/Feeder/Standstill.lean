import VissServer.Feeder.Simulation

/-!
When the feeder comes to a standstill. The loop of main and the managers of the two interfaces
send to each other; where each of two goroutines has domain data for a channel that is full and
that only the other one empties, none of them goes on.
-/
namespace VissServer.Feeder.Processes

open Go Runs Pipelines

/-- The search for a signal of the vehicle does not come to one. -/
def Lost (cfg : Config) (x : Network) : Prop :=
  match x.vehicleMgr with
  | .asleep => x.simCtx.randomSim = true ∧ ∀ e ∈ cfg.feederMap, Dotted e
  | .searching i =>
      (∀ e ∈ cfg.feederMap[i]?, Dotted e) ∧ ∀ e ∈ cfg.feederMap.dropLast, Dotted e
  | _ => False

/-- The loop of main has data for the vehicle, whose manager is not at its select and cannot
come back to it. -/
structure VehicleJam (cfg : Config) (x : Network) : Prop where
  hub : x.hub.toVehicle? ≠ []
  output : x.vehicleOutputChan ≠ none
  mgr : x.vehicleMgr ≠ .select
  input : x.vehicleInputChan ≠ none ∨ Lost cfg x

/-- The loop of main has data for the state storage, whose manager has data for the loop. -/
structure VssJam (x : Network) : Prop where
  hub : x.hub.toVss? ≠ []
  output : x.vssOutputChan ≠ none
  mgr : x.vssMgr ≠ .select
  input : x.vssInputChan ≠ none

section Jams

variable {cfg : Config} {x x' : Network} {e : Event} {o : Output}

theorem mem_dropLast {α : Type} {l : List α} {i : ℕ} {a : α} (hi : i < l.length - 1)
    (ha : a ∈ l[i]?) : a ∈ l.dropLast := by
  refine List.mem_of_getElem? (i := i) ?_
  rw [List.dropLast_eq_take, List.getElem?_take_of_lt hi]
  exact ha

theorem simulateInput_jam {i : ℕ} (hmgr : x.vehicleMgr = .asleep)
    (hsim : simulateInput cfg i x = some (x', o)) (hjam : VehicleJam cfg x) :
    VehicleJam cfg x' := by
  obtain ⟨hhub, houtput, -, hinput⟩ := hjam
  unfold simulateInput at hsim
  split at hsim
  · next hrandom =>
    split at hsim
    · obtain ⟨rfl, rfl⟩ := hsim
      exact ⟨hhub, houtput, by simp [hmgr], hinput⟩
    · split at hsim
      · next hi =>
        obtain ⟨rfl, rfl⟩ := hsim
        refine ⟨hhub, houtput, by simp, hinput.imp_right fun hlost => ?_⟩
        rw [Lost, hmgr] at hlost
        obtain ⟨-, hdotted⟩ := hlost
        refine ⟨fun e he => hdotted e (List.mem_of_getElem? he), fun e he => ?_⟩
        exact hdotted e (List.mem_of_mem_dropLast he)
      · cases hsim
  · next hstepwise =>
    obtain ⟨rfl, rfl⟩ := hsim
    refine ⟨hhub, houtput, by simp, hinput.imp_right fun hlost => ?_⟩
    rw [Lost, hmgr] at hlost
    exact absurd hlost.1 hstepwise

theorem selectRandomInput_jam {i value : ℕ} (hmgr : x.vehicleMgr = .searching i)
    (hsel : selectRandomInput cfg i value x = some (x', o)) (hjam : VehicleJam cfg x) :
    VehicleJam cfg x' := by
  obtain ⟨hhub, houtput, hselect, hinput⟩ := hjam
  unfold selectRandomInput at hsel
  split at hsel
  · obtain ⟨rfl, rfl⟩ := hsel
    exact ⟨hhub, houtput, hselect, hinput⟩
  · next e he =>
    split at hsel
    · split at hsel
      · obtain ⟨rfl, rfl⟩ := hsel
        exact ⟨hhub, houtput, hselect, hinput⟩
      · next hlength =>
        obtain ⟨rfl, rfl⟩ := hsel
        refine ⟨hhub, houtput, by simp, hinput.imp_right fun hlost => ?_⟩
        rw [Lost, hmgr] at hlost
        refine ⟨fun f hf => hlost.2 f ?_, hlost.2⟩
        have hmod := Nat.mod_lt (i + 1) (Nat.pos_of_ne_zero hlength)
        exact mem_dropLast hmod hf
    · next hdotted =>
      split at hsel
      · obtain ⟨rfl, rfl⟩ := hsel
        refine ⟨hhub, houtput, by simp, hinput.imp_right fun hlost => ?_⟩
        rw [Lost, hmgr] at hlost
        exact absurd (hlost.1 e he) hdotted
      · cases hsel

theorem meet_vehicleJam (hjam : VehicleJam cfg x) (hmeet : meet cfg x e = some (x', o)) :
    VehicleJam cfg x' := by
  obtain ⟨hhub, houtput, hmgr, hinput⟩ := hjam
  cases e with
  | simulate signalIndex =>
    simp only [meet] at hmeet
    split at hmeet
    · next hasleep => exact simulateInput_jam hasleep hmeet ⟨hhub, houtput, hmgr, hinput⟩
    · cases hmeet
  | search value =>
    simp only [meet] at hmeet
    split at hmeet
    · next i hsearching =>
      exact selectRandomInput_jam hsearching hmeet ⟨hhub, houtput, hmgr, hinput⟩
    · cases hmeet
  | call | default =>
    simp only [meet] at hmeet
    split at hmeet
    · next hselect _ => exact absurd hselect hmgr
    · cases hmeet
  | sendInput =>
    simp only [meet] at hmeet
    split at hmeet
    · next hsending hempty =>
      rw [Lost, hsending] at hinput
      exact absurd hempty (hinput.resolve_right id)
    · cases hmeet
  | takeVssInput order | takeVehicleInput order =>
    simp only [meet] at hmeet
    split at hmeet
    · next hselect _ => simp [hselect] at hhub
    · cases hmeet
  | sendVehicleOutput =>
    simp only [meet] at hmeet
    split at hmeet
    · next hempty => exact absurd hempty houtput
    · cases hmeet
  | sendVssOutput =>
    simp only [meet] at hmeet
    split at hmeet
    · next htoVss _ => simp [htoVss] at hhub
    · cases hmeet
  | read serverMessage =>
    simp only [meet] at hmeet
    split at hmeet
    · split at hmeet
      · cases hmeet
      · split at hmeet
        all_goals
          obtain ⟨rfl, rfl⟩ := hmeet
          exact ⟨hhub, houtput, hmgr, hinput⟩
    · cases hmeet
  | accept | queue | takeActuator | sendActuator | store =>
    simp only [meet] at hmeet
    split at hmeet
    · obtain ⟨rfl, rfl⟩ := hmeet
      exact ⟨hhub, houtput, hmgr, hinput⟩
    · cases hmeet

/-- The vehicle interface manager leaves the other goroutines alone. -/
theorem simulateInput_vss {i : ℕ} (hsim : simulateInput cfg i x = some (x', o)) :
    x'.hub = x.hub ∧ x'.vssOutputChan = x.vssOutputChan ∧ x'.vssMgr = x.vssMgr ∧
      x'.vssInputChan = x.vssInputChan := by
  unfold simulateInput at hsim
  split at hsim
  · split at hsim
    · obtain ⟨rfl, rfl⟩ := hsim
      exact ⟨rfl, rfl, rfl, rfl⟩
    · split at hsim
      · obtain ⟨rfl, rfl⟩ := hsim
        exact ⟨rfl, rfl, rfl, rfl⟩
      · cases hsim
  · obtain ⟨rfl, rfl⟩ := hsim
    exact ⟨rfl, rfl, rfl, rfl⟩

theorem selectRandomInput_vss {i value : ℕ}
    (hsel : selectRandomInput cfg i value x = some (x', o)) :
    x'.hub = x.hub ∧ x'.vssOutputChan = x.vssOutputChan ∧ x'.vssMgr = x.vssMgr ∧
      x'.vssInputChan = x.vssInputChan := by
  unfold selectRandomInput at hsel
  split at hsel
  · obtain ⟨rfl, rfl⟩ := hsel
    exact ⟨rfl, rfl, rfl, rfl⟩
  · split at hsel
    · split at hsel
      all_goals
        obtain ⟨rfl, rfl⟩ := hsel
        exact ⟨rfl, rfl, rfl, rfl⟩
    · split at hsel
      · obtain ⟨rfl, rfl⟩ := hsel
        exact ⟨rfl, rfl, rfl, rfl⟩
      · cases hsel

theorem VssJam.of_eq (hjam : VssJam x)
    (h : x'.hub = x.hub ∧ x'.vssOutputChan = x.vssOutputChan ∧ x'.vssMgr = x.vssMgr ∧
      x'.vssInputChan = x.vssInputChan) : VssJam x' := by
  obtain ⟨hhub, houtput, hmgr, hinput⟩ := h
  exact ⟨hhub ▸ hjam.hub, houtput ▸ hjam.output, hmgr ▸ hjam.mgr, hinput ▸ hjam.input⟩

theorem meet_vssJam (hjam : VssJam x) (hmeet : meet cfg x e = some (x', o)) : VssJam x' := by
  cases e with
  | simulate signalIndex =>
    simp only [meet] at hmeet
    split at hmeet
    · exact hjam.of_eq (simulateInput_vss hmeet)
    · cases hmeet
  | search value =>
    simp only [meet] at hmeet
    split at hmeet
    · exact hjam.of_eq (selectRandomInput_vss hmeet)
    · cases hmeet
  | takeActuator | store =>
    simp only [meet] at hmeet
    split at hmeet
    · next hselect _ => exact absurd hselect hjam.mgr
    · cases hmeet
  | sendActuator =>
    simp only [meet] at hmeet
    split at hmeet
    · next hempty => exact absurd hempty hjam.input
    · cases hmeet
  | takeVssInput order | takeVehicleInput order =>
    simp only [meet] at hmeet
    split at hmeet
    · next hselect _ =>
      have hhub := hjam.hub
      simp [hselect] at hhub
    · cases hmeet
  | sendVehicleOutput =>
    simp only [meet] at hmeet
    split at hmeet
    · next htoVehicle _ =>
      have hhub := hjam.hub
      simp [htoVehicle] at hhub
    · cases hmeet
  | sendVssOutput =>
    simp only [meet] at hmeet
    split at hmeet
    · next hempty => exact absurd hempty hjam.output
    · cases hmeet
  | read serverMessage =>
    simp only [meet] at hmeet
    split at hmeet
    · split at hmeet
      · cases hmeet
      · split at hmeet
        all_goals
          obtain ⟨rfl, rfl⟩ := hmeet
          exact hjam.of_eq ⟨rfl, rfl, rfl, rfl⟩
    · cases hmeet
  | accept | queue | call | default | sendInput =>
    simp only [meet] at hmeet
    split at hmeet
    · obtain ⟨rfl, rfl⟩ := hmeet
      exact hjam.of_eq ⟨rfl, rfl, rfl, rfl⟩
    · cases hmeet

/-- The loop of main does not come back to its select out of a jam. -/
theorem jam_not_reaches (hjam : VehicleJam cfg x ∨ VssJam x) :
    ¬ Reaches (networkStep cfg) (fun x => x.hub = .select) x := by
  refine not_reaches (J := fun x => VehicleJam cfg x ∨ VssJam x) ?_ ?_ hjam
  · intro x e x' o hjam hstep
    unfold networkStep at hstep
    split at hstep
    · cases hstep
    · exact hjam.imp (fun h => meet_vehicleJam h hstep) fun h => meet_vssJam h hstep
  · intro x hjam hselect
    rcases hjam with hjam | hjam
    all_goals
      have hhub := hjam.hub
      simp [hselect] at hhub

end Jams

/-! ## The way out -/

section Progress

variable {cfg : Config} {x : Network} {outData : DomainData}

/-- The loop of main can come to its select. -/
abbrev GoesOn (cfg : Config) (x : Network) : Prop :=
  Reaches (networkStep cfg) (fun x => x.hub = .select) x

theorem GoesOn.of_meet {x' : Network} {e : Event} {o : Output} (hended : x.ended = false)
    (hmeet : meet cfg x e = some (x', o)) (hreach : GoesOn cfg x') : GoesOn cfg x := by
  refine .next (e := e) (o := o) ?_ hreach
  rw [networkStep, hended, if_neg (by simp)]
  exact hmeet

/-- With room for its data the loop of main goes on. -/
theorem goesOn_of_room (hended : x.ended = false) (hhub : x.hub = .toVehicle outData)
    (houtput : x.vehicleOutputChan = none) : GoesOn cfg x := by
  have hmeet : meet cfg x .sendVehicleOutput =
      some ({ x with hub := .select, vehicleOutputChan := some outData }, .silent) := by
    simp only [meet, hhub, houtput]
  exact .of_meet hended hmeet (.here rfl)

/-- The vehicle interface manager makes room at its select. -/
theorem goesOn_of_select (hended : x.ended = false) (hhub : x.hub = .toVehicle outData)
    (hmgr : x.vehicleMgr = .select) : GoesOn cfg x := by
  cases houtput : x.vehicleOutputChan with
  | none => exact goesOn_of_room hended hhub houtput
  | some d =>
    have hmeet : meet cfg x .call = some ({ x with
        vehicleOutputChan := none
        simCtx := { randomSim := false, path := d.name, setVal := d.value, iteration := 0 } },
        .called d) := by
      simp only [meet, hmgr, houtput]
    exact .of_meet hended hmeet (goesOn_of_room hended hhub rfl)

theorem goesOn_of_sending {input : DomainData} (hended : x.ended = false)
    (hhub : x.hub = .toVehicle outData) (hmgr : x.vehicleMgr = .sending input)
    (hinput : x.vehicleInputChan = none) : GoesOn cfg x := by
  have hmeet : meet cfg x .sendInput =
      some ({ x with vehicleMgr := .select, vehicleInputChan := some input }, .silent) := by
    simp only [meet, hmgr, hinput]
  exact .of_meet hended hmeet (goesOn_of_select hended hhub rfl)

theorem randomBound_pos (datatype : Int8) : 0 < randomBound datatype := by
  unfold randomBound
  split
  · decide
  · split
    · decide
    · split <;> decide

/-- The search ends at a signal of the vehicle. -/
theorem goesOn_of_signal {i : ℕ} {e : MapElement} (hended : x.ended = false)
    (hhub : x.hub = .toVehicle outData) (hmgr : x.vehicleMgr = .searching i)
    (hinput : x.vehicleInputChan = none) (he : cfg.feederMap[i]? = some e) (hvehicle : ¬ Dotted e) :
    GoesOn cfg x := by
  have hmeet : meet cfg x (.search 0) =
      some ({ x with vehicleMgr := .sending ⟨e.name, itoa (0 : ℕ)⟩ },
        .simulated ⟨e.name, itoa (0 : ℕ)⟩) := by
    simp only [meet, hmgr, selectRandomInput, he, if_neg hvehicle, if_pos (randomBound_pos _)]
  exact .of_meet hended hmeet (goesOn_of_sending hended hhub rfl hinput)

/-- The search comes to each index but the last one. The induction is on the number of the turns
that the index is away. -/
theorem goesOn_of_turns {j : ℕ} {e : MapElement} (he : cfg.feederMap[j]? = some e)
    (hvehicle : ¬ Dotted e) (turns : ℕ) : ∀ (i : ℕ) (x : Network), x.ended = false →
      x.hub = .toVehicle outData → x.vehicleMgr = .searching i → x.vehicleInputChan = none →
      i < cfg.feederMap.length → (i + turns) % (cfg.feederMap.length - 1) = j →
      (turns = 0 → i = j) → cfg.feederMap.length - 1 ≠ 0 → GoesOn cfg x := by
  induction turns with
  | zero =>
    intro i x hended hhub hmgr hinput _ _ hij _
    exact goesOn_of_signal hended hhub hmgr hinput (hij rfl ▸ he) hvehicle
  | succ turns ih =>
    intro i x hended hhub hmgr hinput hi hmod _ hlength
    by_cases hdotted : Dotted cfg.feederMap[i]
    · have hmeet : meet cfg x (.search 0) = some ({ x with
          vehicleMgr := .searching ((i + 1) % (cfg.feederMap.length - 1)) }, .silent) := by
        simp only [meet, hmgr, selectRandomInput, List.getElem?_eq_getElem hi, if_pos hdotted,
          if_neg hlength]
      have hlt := Nat.mod_lt (i + 1) (Nat.pos_of_ne_zero hlength)
      refine .of_meet hended hmeet (ih _ _ hended hhub rfl hinput (by omega) ?_ ?_ hlength)
      · rw [Nat.mod_add_mod, ← hmod]
        congr 1
        omega
      · intro hturns
        rw [hturns] at hmod
        exact hmod
    · exact goesOn_of_signal hended hhub hmgr hinput (List.getElem?_eq_getElem hi) hdotted

theorem goesOn_of_search {i : ℕ} (hended : x.ended = false) (hhub : x.hub = .toVehicle outData)
    (hmgr : x.vehicleMgr = .searching i) (hinput : x.vehicleInputChan = none)
    (hi : i < cfg.feederMap.length) (hlost : ¬ Lost cfg x) : GoesOn cfg x := by
  by_cases hdotted : Dotted cfg.feederMap[i]
  · obtain ⟨e, he, hvehicle⟩ : ∃ e ∈ cfg.feederMap.dropLast, ¬ Dotted e := by
      by_contra hall
      push Not at hall
      rw [Lost, hmgr] at hlost
      refine hlost ⟨?_, hall⟩
      rw [List.getElem?_eq_getElem hi]
      intro f hf
      obtain rfl := Option.some.inj hf
      exact hdotted
    obtain ⟨j, hj, rfl⟩ := List.getElem_of_mem he
    rw [List.length_dropLast] at hj
    have hej : cfg.feederMap[j]? = some cfg.feederMap.dropLast[j] := by
      rw [List.getElem_dropLast]
      exact List.getElem?_eq_getElem _
    -- as many turns as lead to the signal, after some rounds
    have hrounds : i + 1 ≤ (cfg.feederMap.length - 1) * (i + 1) :=
      Nat.le_mul_of_pos_left _ (by omega)
    refine goesOn_of_turns hej hvehicle (j + (cfg.feederMap.length - 1) * (i + 1) - i) i x hended
      hhub hmgr hinput hi ?_ (by omega) (by omega)
    rw [show i + (j + (cfg.feederMap.length - 1) * (i + 1) - i) =
      j + (cfg.feederMap.length - 1) * (i + 1) by omega, Nat.add_mul_mod_self_left,
      Nat.mod_eq_of_lt hj]
  · exact goesOn_of_signal hended hhub hmgr hinput (List.getElem?_eq_getElem hi) hdotted

theorem goesOn_of_asleep (hended : x.ended = false) (hhub : x.hub = .toVehicle outData)
    (hmgr : x.vehicleMgr = .asleep) (hinput : x.vehicleInputChan = none)
    (hlost : ¬ Lost cfg x) : GoesOn cfg x := by
  by_cases hrandom : x.simCtx.randomSim = true
  · obtain ⟨e, he, hvehicle⟩ : ∃ e ∈ cfg.feederMap, ¬ Dotted e := by
      by_contra hall
      push Not at hall
      rw [Lost, hmgr] at hlost
      exact hlost ⟨hrandom, hall⟩
    obtain ⟨i, hi, rfl⟩ := List.getElem_of_mem he
    have hmeet : meet cfg x (.simulate i) =
        some ({ x with vehicleMgr := .searching i }, .silent) := by
      simp only [meet, hmgr, simulateInput, if_pos hrandom, if_neg (List.ne_nil_of_mem he),
        if_pos hi]
    exact .of_meet hended hmeet
      (goesOn_of_signal hended hhub rfl hinput (List.getElem?_eq_getElem hi) hvehicle)
  · have hmeet : meet cfg x (.simulate 0) = some ({ x with
        vehicleMgr := .sending (simulateStepwise x.simCtx).1
        simCtx := (simulateStepwise x.simCtx).2 },
        .simulated (simulateStepwise x.simCtx).1) := by
      simp only [meet, hmgr, simulateInput, if_neg hrandom]
    exact .of_meet hended hmeet (goesOn_of_sending hended hhub rfl hinput)

theorem goesOn_of_vssRoom (hended : x.ended = false) (hhub : x.hub = .toVss outData)
    (houtput : x.vssOutputChan = none) : GoesOn cfg x := by
  have hmeet : meet cfg x .sendVssOutput =
      some ({ x with hub := .select, vssOutputChan := some outData }, .silent) := by
    simp only [meet, hhub, houtput]
  exact .of_meet hended hmeet (.here rfl)

/-- The VSS interface manager makes room at its select. -/
theorem goesOn_of_vssSelect (hended : x.ended = false) (hhub : x.hub = .toVss outData)
    (hmgr : x.vssMgr = .select) : GoesOn cfg x := by
  cases houtput : x.vssOutputChan with
  | none => exact goesOn_of_vssRoom hended hhub houtput
  | some d =>
    have hmeet : meet cfg x (.store ⟨str "Z", by decide, by decide⟩) = some ({ x with
        vssOutputChan := none
        storage := (statestorageSet cfg.stateDbType x.storage d.name d.value (str "Z")).1 },
        .stored d) := by
      simp only [meet, hmgr, houtput]
    exact .of_meet hended hmeet (goesOn_of_vssRoom hended hhub rfl)

theorem goesOn_of_vssSending {actuatorData : DomainData} (hended : x.ended = false)
    (hhub : x.hub = .toVss outData) (hmgr : x.vssMgr = .sending actuatorData)
    (hinput : x.vssInputChan = none) : GoesOn cfg x := by
  have hmeet : meet cfg x .sendActuator =
      some ({ x with vssMgr := .select, vssInputChan := some actuatorData }, .silent) := by
    simp only [meet, hmgr, hinput]
  exact .of_meet hended hmeet (goesOn_of_vssSelect hended hhub rfl)

end Progress

/-! ## The standstill -/

section Standstill

variable {cfg : Config} {h : NetworkHistory} {x : Network} {outData : DomainData}

theorem goesOn_of_toVehicle (hrun : NetworkRun cfg h x) (hended : x.ended = false)
    (hhub : x.hub = .toVehicle outData) (hjam : ¬ VehicleJam cfg x) : GoesOn cfg x := by
  by_cases houtput : x.vehicleOutputChan = none
  · exact goesOn_of_room hended hhub houtput
  · have hfree : x.vehicleMgr ≠ .select → x.vehicleInputChan = none ∧ ¬ Lost cfg x := by
      intro hmgr
      by_contra hinput
      rw [not_and_or, not_not] at hinput
      exact hjam ⟨by simp [hhub], houtput, hmgr, hinput⟩
    cases hmgr : x.vehicleMgr with
    | select => exact goesOn_of_select hended hhub hmgr
    | asleep =>
      obtain ⟨hinput, hlost⟩ := hfree (by simp [hmgr])
      exact goesOn_of_asleep hended hhub hmgr hinput hlost
    | searching i =>
      obtain ⟨hinput, hlost⟩ := hfree (by simp [hmgr])
      exact goesOn_of_search hended hhub hmgr hinput ((run_tracks hrun).search i hmgr).1 hlost
    | sending input =>
      obtain ⟨hinput, -⟩ := hfree (by simp [hmgr])
      exact goesOn_of_sending hended hhub hmgr hinput

theorem goesOn_of_toVss (hended : x.ended = false) (hhub : x.hub = .toVss outData)
    (hjam : ¬ VssJam x) : GoesOn cfg x := by
  by_cases houtput : x.vssOutputChan = none
  · exact goesOn_of_vssRoom hended hhub houtput
  · cases hmgr : x.vssMgr with
    | select => exact goesOn_of_vssSelect hended hhub hmgr
    | sending actuatorData =>
      have hinput : x.vssInputChan = none := by
        by_contra hinput
        exact hjam ⟨by simp [hhub], houtput, by simp [hmgr], hinput⟩
      exact goesOn_of_vssSending hended hhub hmgr hinput

/-- A process that has ended takes no step. -/
theorem ended_not_goesOn (hended : x.ended = true) (hhub : x.hub ≠ .select) :
    ¬ GoesOn cfg x := by
  refine not_reaches (J := fun x => x.ended = true ∧ x.hub ≠ .select) ?_ ?_ ⟨hended, hhub⟩
  · intro x e x' o hx hstep
    rw [networkStep, if_pos hx.1] at hstep
    cases hstep
  · exact fun x hx => hx.2

end Standstill

/-- The loop takes two written signals while an input of the vehicle waits. -/
def vehicleJamEvents : List Event :=
  [.accept, .read speedMessage, .queue, .takeActuator, .sendActuator, .read speedMessage, .queue,
    .takeActuator, .default, .simulate 1, .search 5, .sendInput, .default,
    .takeVssInput ⟨id, GoMap.perm_id⟩, .sendVehicleOutput, .sendActuator,
    .takeVssInput ⟨id, GoMap.perm_id⟩]

/-- The loop takes two inputs of the vehicle while a written signal waits. -/
def vssJamEvents : List Event :=
  [.default, .simulate 1, .search 5, .sendInput, .takeVehicleInput ⟨id, GoMap.perm_id⟩,
    .sendVssOutput, .default, .simulate 1, .search 5, .sendInput, .accept, .read speedMessage,
    .queue, .takeActuator, .sendActuator, .read speedMessage, .queue, .takeActuator,
    .takeVehicleInput ⟨id, GoMap.perm_id⟩]

end VissServer.Feeder.Processes
