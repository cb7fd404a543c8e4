import VissServer.ServiceMgr.CurveLogRing
import VissServer.ServiceMgr.CurveLogSplits

/-!
The ring buffer over the passes of a session: which samples it counts, and that none of those that
are still to be analysed is lost. What an analysis selects is left open.
-/
namespace VissServer.ServiceMgr.CurveLog

open Go Splitting

/-- The buffer with the samples that were written into it. Those before analysed were seen by an
analysis, and the one numbered selected was the last that was selected. -/
structure Account where
  ring : RingBuffer
  written : List RingElement := []
  analysed : ℕ := 0
  selected : ℕ := 0

def Account.start (bufSize : ℤ) : MayPanic Account :=
  (createRingBuffer (bufSize + 1)).map fun ring => { ring }

/-- A sample with the timestamp of the latest one is a duplicate. -/
def Account.capture (s : Account) (x : Reading) : MayPanic Account := do
  let latest ← readRing s.ring 0
  let ring ← CurveLog.capture s.ring x
  let written := if latest.timestamp ≠ x.ts then s.written ++ [x.sample] else s.written
  some { s with ring, written }

/-- An analysis of a full buffer. -/
def Account.analyze (bufSize : ℤ) (s : Account) (lastSelected : ℕ) : Account :=
  if getNumOfPopulatedRingElements s.ring = bufSize then
    { ring := setRingTail s.ring lastSelected
      written := s.written
      analysed := s.written.length
      selected := s.written.length - 1 - lastSelected }
  else s

/-- A pass of the loop, with the sample that is read and what an analysis would select. -/
def Account.pass (bufSize : ℤ) (s : Account) (x : Reading × ℕ) : MayPanic Account :=
  (s.capture x.1).map fun s => s.analyze bufSize x.2

def Account.passes (bufSize : ℤ) (xs : List (Reading × ℕ)) : MayPanic Account := do
  let s ← Account.start bufSize
  xs.foldlM (Account.pass bufSize) s

/-- The buffer counts the samples since and including the last selected one, all of which can be
read; those not yet analysed are among them. -/
structure Accounted (bufSize : ℤ) (s : Account) : Prop where
  count : getNumOfPopulatedRingElements s.ring = s.written.length - s.selected
  le : getNumOfPopulatedRingElements s.ring ≤ bufSize
  reads : ∀ k : ℕ, k < getNumOfPopulatedRingElements s.ring →
    readRing s.ring k = s.written[s.written.length - 1 - k]? ∧ k < s.written.length
  kept : ∀ i, s.analysed ≤ i → i < s.written.length →
    ∃ k : ℕ, k < getNumOfPopulatedRingElements s.ring ∧ readRing s.ring k = s.written[i]?

section Accounting

variable {bufSize : ℤ} {s : Account}

/-- What the passes keep. -/
structure Kept (bufSize : ℤ) (s : Account) : Prop where
  holds : Holds s.ring s.written
  size : s.ring.bufSize = bufSize + 1
  count : getNumOfPopulatedRingElements s.ring + s.selected = s.written.length
  le : getNumOfPopulatedRingElements s.ring ≤ bufSize
  selected_le : s.selected ≤ s.analysed

theorem Kept.accounted (h : Kept bufSize s) : Accounted bufSize s where
  count := by
    have hcount := h.count
    omega
  le := h.le
  reads := by
    intro k hk
    have hcount := h.count
    have hle := h.le
    have hsize := h.size
    exact ⟨h.holds.contents k (by omega) (by omega), by omega⟩
  kept := by
    intro i hi hlt
    have hcount := h.count
    have hle := h.le
    have hsize := h.size
    have hselected := h.selected_le
    refine ⟨s.written.length - 1 - i, by omega, ?_⟩
    rw [h.holds.contents _ (by omega) (by omega)]
    congr 1
    omega

theorem start_kept (hsize : 0 ≤ bufSize) :
    ∃ s, Account.start bufSize = some s ∧ Kept bufSize s ∧
      getNumOfPopulatedRingElements s.ring = 0 := by
  have hpos : 0 < bufSize + 1 := by omega
  obtain ⟨ring, hring, hholds, hbuf, hnone⟩ := createRingBuffer_holds hpos
  refine ⟨{ ring }, by rw [Account.start, hring]; rfl, ⟨hholds, hbuf, ?_, ?_, le_refl _⟩, hnone⟩
  · rw [hnone]
    rfl
  · rw [hnone]
    exact hsize

/-- The latest sample, or the blank element of an empty buffer, can be read. -/
theorem readRing_zero {r : RingBuffer} {w : List RingElement} (h : Holds r w) :
    ∃ latest, readRing r 0 = some latest := by
  have hhead := h.head
  by_cases hw : w = []
  · exact ⟨_, h.blank hw⟩
  · have hpos : 0 < w.length := List.length_pos_of_ne_nil hw
    have hread := h.contents 0 (by omega) hpos
    rw [Nat.cast_zero, List.getElem?_eq_getElem (by omega)] at hread
    exact ⟨_, hread⟩

theorem capture_kept (h : Kept bufSize s) (hroom : getNumOfPopulatedRingElements s.ring < bufSize)
    (x : Reading) : ∃ s', s.capture x = some s' ∧ Kept bufSize s' := by
  have hsize := h.size
  obtain ⟨latest, hlatest⟩ := readRing_zero h.holds
  unfold Account.capture CurveLog.capture
  rw [hlatest]
  simp only [Option.bind_eq_bind, Option.bind_some]
  by_cases hnew : latest.timestamp ≠ x.ts
  · have hwrite := writeRing_eq h.holds x.sample
    have hcount := h.count
    have hpopulated := written_populated (e := x.sample) h.holds (by omega)
    refine ⟨{ s with ring := written s.ring x.sample, written := s.written ++ [x.sample] }, ?_,
      ⟨written_holds h.holds, hsize, ?_, ?_, h.selected_le⟩⟩
    · rw [if_pos hnew]
      simp only [Reading.sample] at hwrite
      rw [hwrite]
      simp [hnew, Reading.sample]
    · rw [hpopulated, List.length_append, List.length_singleton]
      push_cast
      omega
    · rw [hpopulated]
      omega
  · refine ⟨s, ?_, h⟩
    rw [if_neg hnew]
    simp [hnew]

theorem analyze_kept (h : Kept bufSize s) {lastSelected : ℕ}
    (hselected : (lastSelected : ℤ) ≤ bufSize - 2) :
    Kept bufSize (s.analyze bufSize lastSelected) ∧
      getNumOfPopulatedRingElements (s.analyze bufSize lastSelected).ring < bufSize := by
  have hcount := h.count
  have hle := h.le
  unfold Account.analyze
  by_cases hfull : getNumOfPopulatedRingElements s.ring = bufSize
  · rw [if_pos hfull]
    have htail := setRingTail_populated (r := s.ring) lastSelected
    refine ⟨⟨setRingTail_holds h.holds lastSelected, h.size, ?_, ?_, ?_⟩, ?_⟩
    · dsimp only
      rw [htail]
      omega
    · dsimp only
      rw [htail]
      omega
    · dsimp only
      omega
    · dsimp only
      rw [htail]
      omega
  · rw [if_neg hfull]
    exact ⟨h, by omega⟩

/-- It is an induction over the passes, after each of which there is room for another sample. -/
theorem passes_kept (hsize : 2 ≤ bufSize) (xs : List (Reading × ℕ))
    (hselected : ∀ x ∈ xs, (x.2 : ℤ) ≤ bufSize - 2) :
    ∃ s, Account.passes bufSize xs = some s ∧ Kept bufSize s ∧
      getNumOfPopulatedRingElements s.ring < bufSize := by
  have hgeneral : ∀ (xs : List (Reading × ℕ)) (s : Account),
      (∀ x ∈ xs, (x.2 : ℤ) ≤ bufSize - 2) → Kept bufSize s →
      getNumOfPopulatedRingElements s.ring < bufSize →
      ∃ s', xs.foldlM (Account.pass bufSize) s = some s' ∧ Kept bufSize s' ∧
        getNumOfPopulatedRingElements s'.ring < bufSize := by
    intro xs
    induction xs with
    | nil => exact fun s _ hkept hroom => ⟨s, rfl, hkept, hroom⟩
    | cons x xs ih =>
      intro s hall hkept hroom
      obtain ⟨s1, hcapture, hkept1⟩ := capture_kept hkept hroom x.1
      obtain ⟨hkept2, hroom2⟩ := analyze_kept hkept1 (hall x List.mem_cons_self)
      obtain ⟨s', hrest, hkept', hroom'⟩ := ih _ (fun y hy => hall y (List.mem_cons_of_mem x hy))
        hkept2 hroom2
      refine ⟨s', ?_, hkept', hroom'⟩
      rw [List.foldlM_cons, Account.pass, hcapture]
      exact hrest
  obtain ⟨s, hstart, hkept, hnone⟩ := start_kept (show 0 ≤ bufSize by omega)
  obtain ⟨s', hrun, hkept', hroom'⟩ := hgeneral xs s hselected hkept (by omega)
  refine ⟨s', ?_, hkept', hroom'⟩
  rw [Account.passes, hstart]
  exact hrun

end Accounting

/-! ## The session -/

theorem clAnalyze1dim_lastSelected {n : Numbers} {r : RingBuffer} {size : ℕ}
    {maxError : Float64} {data : List RingElement} {lastSelected firstSelected : ℕ}
    (h : clAnalyze1dim n r size maxError = some (data, lastSelected, firstSelected)) :
    lastSelected = 0 ∨ lastSelected + 2 ≤ size := by
  unfold clAnalyze1dim at h
  simp only [Option.bind_eq_bind, Option.bind_eq_some_iff] at h
  obtain ⟨clBuffer, -, saved, hsaved, h⟩ := h
  rw [clReduction1Dim_eq] at hsaved
  have hinside := (split_distinct (splitIndex_within _ _) hsaved).2
  cases hsort : saved.insertionSort (· ≥ ·) with
  | nil =>
    simp only [hsort, Option.bind_eq_some_iff, Option.some.injEq, Prod.mk.injEq] at h
    obtain ⟨dp, -, -, hlast, -⟩ := h
    exact .inl hlast.symm
  | cons first rest =>
    simp only [hsort, Option.bind_eq_some_iff, Option.some.injEq, Prod.mk.injEq] at h
    obtain ⟨dps, -, -, hlast, -⟩ := h
    have hmem : lastSelected ∈ saved := by
      rw [← List.mem_insertionSort (· ≥ ·), hsort, ← hlast]
      exact List.getLast_mem _
    have hin := hinside lastSelected hmem
    exact .inr (by omega)

/-- After any passes, and also before the analysis of the next one, the account is right. -/
theorem ring_accounted {bufSize : ℤ} (hsize : 2 ≤ bufSize) (xs : List (Reading × ℕ))
    (hselected : ∀ x ∈ xs, (x.2 : ℤ) ≤ bufSize - 2) :
    ∃ s, Account.passes bufSize xs = some s ∧ Accounted bufSize s ∧
      ∀ x, ∃ s', s.capture x = some s' ∧ Accounted bufSize s' := by
  obtain ⟨s, hrun, hkept, hroom⟩ := passes_kept hsize xs hselected
  refine ⟨s, hrun, hkept.accounted, ?_⟩
  intro x
  obtain ⟨s', hcapture, hkept'⟩ := capture_kept hkept hroom x
  exact ⟨s', hcapture, hkept'.accounted⟩

/-- Two samples fill a buffer of two, of which the second one is kept. -/
theorem ring_accounted_pair :
    ∃ s, Account.passes 2 [(⟨[], str "1", str "a"⟩, 0), (⟨[], str "2", str "b"⟩, 0)] = some s ∧
      Accounted 2 s ∧ ∀ x, ∃ s', s.capture x = some s' ∧ Accounted 2 s' :=
  ring_accounted (by decide) _ (by decide)

end VissServer.ServiceMgr.CurveLog
