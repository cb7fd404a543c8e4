import VissServer.Library.Traversals
import VissServer.ServiceMgr.CurveLogAccounting
import VissServer.ServiceMgr.CurveLogCaptures
import VissServer.ServiceMgr.CurveLogSelected

/-!
When an analysis has a result: its elements can be read from the buffer, and are numbers wherever
the reduction looks at them, which it does from three elements on.
-/
namespace VissServer.ServiceMgr.CurveLog

open Go Polylines Splitting

/-- The elements of a buffer that an analysis reads as numbers. -/
def Readable (n : Numbers) (r : RingBuffer) (size : ℕ) : Prop :=
  ∀ k : ℕ, k < size → ∀ dp, readRing r k = some dp →
    (n.parseFloat dp.value).isSome ∧ (n.parseTime dp.timestamp).isSome

/-- These numbers have strictly monotone times, and no three consecutive ones are on one line. -/
def Bent (n : Numbers) (r : RingBuffer) (size : ℕ) : Prop :=
  ∃ ps : List (Point ℚ), transformDataPoints n r size = some (some (ps.map element)) ∧
    StrictlyMonotone (ps.map fun p => p.t) ∧ NoThreeInLine ps 0 (size - 1)

/-- An analysis of three elements and more needs numbers. -/
def SafeAnalysis (n : Numbers) (rings : List RingBuffer) (size : ℕ) : Prop :=
  size < 3 ∨ ∀ r ∈ rings, Readable n r size

/-- For one signal the maximum is not negative, unless the numbers are never on one line. -/
def SafeAnalysis1dim (c : ClSession) (rings : List RingBuffer) (size : ℕ) : Prop :=
  size < 3 ∨ ∀ r ∈ rings, Readable c.numbers r size ∧
    (c.maxError < 0 → Bent c.numbers r size)

/-- The elements of an analysis are within the buffer, and so are the latest one and the one
that the base of the times is taken from. -/
def Reads (r : RingBuffer) (size : ℕ) : Prop :=
  (∀ k : ℕ, k < size → (readRing r k).isSome) ∧ (readRing r 0).isSome ∧
    (readRing r ((size : ℤ) - 1)).isSome

section Transform

variable {n : Numbers} {r : RingBuffer} {tsBase : ℤ} {size : ℕ}

theorem transform_readable {dp : RingElement} (h : (n.parseFloat dp.value).isSome ∧
    (n.parseTime dp.timestamp).isSome) :
    (transform n dp tsBase).2 = true ∧ ∃ t, (transform n dp tsBase).1.timestamp = .fin t := by
  obtain ⟨value, hvalue⟩ := Option.isSome_iff_exists.mp h.1
  obtain ⟨t, ht⟩ := Option.isSome_iff_exists.mp h.2
  simp [transform, hvalue, ht, secondsSince]

theorem transformAll_total (indices : List ℕ) (hreads : ∀ k ∈ indices, (readRing r k).isSome) :
    ∃ o, transformAll n r tsBase indices = some o ∧
      ((∀ k ∈ indices, ∀ dp, readRing r k = some dp →
        (n.parseFloat dp.value).isSome ∧ (n.parseTime dp.timestamp).isSome) →
        ∃ clBuffer, o = some clBuffer ∧ clBuffer.length = indices.length ∧
          FiniteTimes clBuffer) := by
  induction indices with
  | nil => exact ⟨some [], rfl, fun _ => ⟨[], rfl, rfl, nofun⟩⟩
  | cons k indices ih =>
    obtain ⟨dp, hdp⟩ := Option.isSome_iff_exists.mp (hreads k List.mem_cons_self)
    obtain ⟨o, ho, hfull⟩ := ih fun l hl => hreads l (List.mem_cons_of_mem k hl)
    unfold transformAll transformDataPoint
    rw [hdp]
    simp only [Option.map_some, Option.bind_eq_bind, Option.bind_some]
    by_cases hstatus : (transform n dp tsBase).2 = true
    · refine ⟨o.map fun clBuffer => (transform n dp tsBase).1 :: clBuffer, ?_, ?_⟩
      · rw [if_pos hstatus, ho]
        rfl
      · intro hall
        obtain ⟨clBuffer, rfl, hlength, hfinite⟩ :=
          hfull fun l hl => hall l (List.mem_cons_of_mem k hl)
        refine ⟨_, rfl, by rw [List.length_cons, List.length_cons, hlength], ?_⟩
        exact List.forall_mem_cons.mpr
          ⟨(transform_readable (hall k List.mem_cons_self dp hdp)).2, hfinite⟩
    · refine ⟨none, by rw [if_neg hstatus], ?_⟩
      intro hall
      exact absurd (transform_readable (hall k List.mem_cons_self dp hdp)).1 hstatus

theorem transformDataPoints_total (hreads : Reads r size) :
    ∃ o, transformDataPoints n r size = some o ∧ (Readable n r size →
      ∃ clBuffer, o = some clBuffer ∧ clBuffer.length = size ∧ FiniteTimes clBuffer) := by
  obtain ⟨hall, -, hbase⟩ := hreads
  obtain ⟨base, hbase⟩ := Option.isSome_iff_exists.mp hbase
  obtain ⟨o, ho, hfull⟩ := @transformAll_total n r
    ((n.parseTime base.timestamp).getD zeroTime) (List.range size)
    fun k hk => hall k (List.mem_range.mp hk)
  refine ⟨o, ?_, ?_⟩
  · rw [transformDataPoints, hbase]
    exact ho
  · intro hreadable
    obtain ⟨clBuffer, rfl, hlength, hfinite⟩ :=
      hfull fun k hk => hreadable k (List.mem_range.mp hk)
    rw [List.length_range] at hlength
    exact ⟨clBuffer, rfl, hlength, hfinite⟩

end Transform

section Reductions

variable {measuredError : ℕ → ℕ → ℕ → MayPanic Float64} {bound : Float64} {size : ℕ}

/-- A reduction of a whole buffer. -/
def Reduces (reduction : ℕ → ℕ → ℕ → MayPanic (List ℕ)) (size : ℕ) : Prop :=
  ∃ saved, reduction size 0 (size - 1) = some saved ∧ ∀ k ∈ saved, 0 < k ∧ k < size - 1

theorem reduces_short (h : size < 3) : Reduces (split (splitIndex measuredError bound)) size :=
  ⟨[], split_short (by omega), nofun⟩

theorem Terminates.reduces
    (h : Terminates (split (splitIndex measuredError bound)) 0 (size - 1)) :
    Reduces (split (splitIndex measuredError bound)) size := by
  obtain ⟨fuel, saved, hsaved⟩ := h
  have henough := split_enough (splitIndex_within _ _) hsaved (show size - 1 - 0 ≤ size by omega)
  exact ⟨saved, henough, (split_distinct (splitIndex_within _ _) henough).2⟩

theorem Settled.reduces (h : Settled measuredError (size - 1)) (hbound : ¬ bound < 0) :
    Reduces (split (splitIndex measuredError bound)) size :=
  Terminates.reduces (h.terminates hbound (le_refl _))

end Reductions

section Analyses

variable {n : Numbers} {r r1 r2 r3 : RingBuffer} {size : ℕ} {maxError : Float64}

theorem mem_sorted {saved : List ℕ} (hinside : ∀ k ∈ saved, 0 < k ∧ k < size - 1) :
    ∀ k ∈ saved.insertionSort (· ≥ ·), 0 < k ∧ k < size - 1 :=
  fun k hk => hinside k ((List.mem_insertionSort (· ≥ ·)).mp hk)

theorem readSaved_total {savedIndex : List ℕ}
    (hinside : ∀ k ∈ savedIndex, 0 < k ∧ k < size - 1) (hreads : Reads r size) :
    ∃ data, readSaved r savedIndex = some data := by
  cases savedIndex with
  | nil =>
    obtain ⟨dp, hdp⟩ := Option.isSome_iff_exists.mp hreads.2.1
    exact ⟨[dp], by rw [readSaved, hdp]; rfl⟩
  | cons k rest =>
    have hall : ∀ l ∈ k :: rest, (readRing r l).isSome := by
      intro l hl
      have hin := hinside l hl
      exact hreads.1 l (by omega)
    exact Option.isSome_iff_exists.mp (Traversals.isSome_mapM_iff.mpr hall)

theorem getLastD_le {savedIndex : List ℕ} (hinside : ∀ k ∈ savedIndex, 0 < k ∧ k < size - 1) :
    savedIndex.getLastD 0 = 0 ∨ savedIndex.getLastD 0 + 2 ≤ size := by
  cases savedIndex with
  | nil => exact .inl rfl
  | cons k rest =>
    have hin := hinside _ (List.getLast_mem (List.cons_ne_nil k rest))
    have hlast : (k :: rest).getLastD 0 = (k :: rest).getLast (List.cons_ne_nil k rest) := rfl
    rw [hlast]
    exact .inr (by omega)

theorem clAnalyze1dim_total (hreads : Reads r size) (hreduces : ∀ o,
    transformDataPoints n r size = some o →
      Reduces (split (splitIndex (error1Dim (o.getD [])) maxError)) size) :
    ∃ data lastSelected firstSelected,
      clAnalyze1dim n r size maxError = some (data, lastSelected, firstSelected) ∧
      (lastSelected = 0 ∨ lastSelected < size) ∧ (firstSelected = 0 ∨ firstSelected < size) := by
  obtain ⟨o, ho, -⟩ := transformDataPoints_total (n := n) hreads
  obtain ⟨saved, hsaved, hinside⟩ := hreduces o ho
  have hsorted := mem_sorted hinside
  rw [← clReduction1Dim_eq] at hsaved
  unfold clAnalyze1dim
  simp only [ho, Option.bind_eq_bind, Option.bind_some, hsaved]
  cases hsort : saved.insertionSort (· ≥ ·) with
  | nil =>
    obtain ⟨dp, hdp⟩ := Option.isSome_iff_exists.mp hreads.2.1
    exact ⟨[dp], 0, 0, by simp [hdp], .inl rfl, .inl rfl⟩
  | cons first rest =>
    rw [hsort] at hsorted
    have hall : ∀ l ∈ first :: rest, (readRing r l).isSome := by
      intro l hl
      have hin := hsorted l hl
      exact hreads.1 l (by omega)
    obtain ⟨data, hdata⟩ := Option.isSome_iff_exists.mp (Traversals.isSome_mapM_iff.mpr hall)
    have hlast := hsorted _ (List.getLast_mem (List.cons_ne_nil first rest))
    have hfirst := hsorted first List.mem_cons_self
    exact ⟨data, (first :: rest).getLast (List.cons_ne_nil first rest), first, by simp [hdata],
      .inr (by omega), .inr (by omega)⟩

theorem writePostProcElement1dim_total {index : ℕ} {now : ℤ} (h : (readRing r index).isSome) :
    ∃ e, writePostProcElement1dim n r index now = some e := by
  obtain ⟨dp, hdp⟩ := Option.isSome_iff_exists.mp h
  exact ⟨_, by rw [writePostProcElement1dim_eq, hdp]; rfl⟩

theorem postProcess1dim_total {firstSelected lastSelected : ℕ}
    (hfirst : (readRing r firstSelected).isSome) (hlast : (readRing r lastSelected).isSome)
    (p : PostProc) (now : ℕ → ℤ) :
    ∃ result, postProcess1dim n r firstSelected lastSelected p maxError now = some result := by
  obtain ⟨last0, hlast0⟩ := @writePostProcElement1dim_total n _ _ (now 0) hlast
  obtain ⟨last1, hlast1⟩ := @writePostProcElement1dim_total n _ _ (now 1) hlast
  obtain ⟨first0, hfirst0⟩ := @writePostProcElement1dim_total n _ _ (now 0) hfirst
  unfold postProcess1dim
  rw [hlast0, hlast1, hfirst0]
  simp only [Option.bind_eq_bind, Option.bind_some]
  split
  · exact ⟨_, rfl⟩
  · split
    · split <;> exact ⟨_, rfl⟩
    · split <;> exact ⟨_, rfl⟩

/-- The analysis of one signal, with its post-processing. -/
theorem analysis1dim_total {c : ClSession} (hreads : Reads r size)
    (hsafe : SafeAnalysis1dim c [r] size) (postProc : PostProc) (now : ℕ → ℤ) :
    ∃ postProc' packs lastSelected,
      analysis1dim c postProc [r] size now = some (postProc', packs, lastSelected) ∧
      (lastSelected = 0 ∨ lastSelected + 2 ≤ size) := by
  have hreduces : ∀ o, transformDataPoints c.numbers r size = some o →
      Reduces (split (splitIndex (error1Dim (o.getD [])) c.maxError)) size := by
    intro o ho
    rcases hsafe with hshort | hsafe
    · exact reduces_short hshort
    · obtain ⟨hreadable, hbent⟩ := hsafe r (List.mem_singleton_self r)
      obtain ⟨o', ho', hfull⟩ := transformDataPoints_total hreads
      obtain ⟨clBuffer, rfl, hlength, hfinite⟩ := hfull hreadable
      rw [ho] at ho'
      cases ho'
      by_cases hshort : size < 3
      · exact reduces_short hshort
      · by_cases hneg : c.maxError < 0
        · obtain ⟨ps, hps, hmono, hline⟩ := hbent hneg
          rw [ho] at hps
          cases hps
          rw [List.length_map] at hlength
          obtain ⟨fuel, saved, hsaved⟩ :=
            (terminates_iff_of_neg hmono (by omega) hneg).mpr hline
          rw [clReduction1Dim_eq] at hsaved
          exact Terminates.reduces ⟨fuel, saved, hsaved⟩
        · exact (error1Dim_settled hfinite (by omega)).reduces hneg
  obtain ⟨data, lastSelected, firstSelected, hanalyze, hlast, hfirst⟩ :=
    clAnalyze1dim_total hreads hreduces
  have hread : ∀ k : ℕ, k = 0 ∨ k < size → (readRing r k).isSome := by
    rintro k (rfl | hk)
    · exact hreads.2.1
    · exact hreads.1 k hk
  obtain ⟨⟨extraData, postProc'⟩, hpost⟩ := 
    @postProcess1dim_total c.numbers _ c.maxError _ _ (hread _ hfirst) (hread _ hlast) postProc now
  simp only [analysis1dim, Option.bind_eq_bind, hanalyze, Option.bind_some, hpost]
  exact ⟨_, _, _, rfl, clAnalyze1dim_lastSelected hanalyze⟩

theorem clAnalyze2dim_total (hreads1 : Reads r1 size) (hreads2 : Reads r2 size)
    (hsafe : SafeAnalysis n [r1, r2] size) :
    ∃ data1 data2 updatedTail,
      clAnalyze2dim n r1 r2 size maxError = some (data1, data2, updatedTail) ∧
      (updatedTail = 0 ∨ updatedTail + 2 ≤ size) := by
  obtain ⟨o1, ho1, hfull1⟩ := transformDataPoints_total (n := n) hreads1
  obtain ⟨o2, ho2, hfull2⟩ := transformDataPoints_total (n := n) hreads2
  have hreduces : Reduces (clReduction2Dim (o1.getD []) (o2.getD []) maxError) size := by
    by_cases hshort : size < 3
    · exact reduces_short hshort
    · have hreadable := hsafe.resolve_left hshort
      obtain ⟨clBuffer1, rfl, hlength1, hfinite1⟩ := hfull1 (hreadable r1 (by simp))
      obtain ⟨clBuffer2, rfl, hlength2, hfinite2⟩ := hfull2 (hreadable r2 (by simp))
      rw [Option.getD_some, Option.getD_some]
      apply Settled.reduces _ maxError.square_not_neg
      exact squaredError2Dim_settled hfinite1 hfinite2 (by omega) (by omega)
  obtain ⟨saved, hsaved, hinside⟩ := hreduces
  have hsorted := mem_sorted hinside
  obtain ⟨data1, hdata1⟩ := readSaved_total hsorted hreads1
  obtain ⟨data2, hdata2⟩ := readSaved_total hsorted hreads2
  refine ⟨data1, data2, _, ?_, getLastD_le hsorted⟩
  unfold clAnalyze2dim
  rw [ho1, ho2]
  simp only [Option.bind_eq_bind, Option.bind_some, hsaved, hdata1, hdata2]

theorem clAnalyze3dim_total (hreads1 : Reads r1 size) (hreads2 : Reads r2 size)
    (hreads3 : Reads r3 size) (hsafe : SafeAnalysis n [r1, r2, r3] size) :
    ∃ data1 data2 data3 updatedTail,
      clAnalyze3dim n r1 r2 r3 size maxError = some (data1, data2, data3, updatedTail) ∧
      (updatedTail = 0 ∨ updatedTail + 2 ≤ size) := by
  obtain ⟨o1, ho1, hfull1⟩ := transformDataPoints_total (n := n) hreads1
  obtain ⟨o2, ho2, hfull2⟩ := transformDataPoints_total (n := n) hreads2
  obtain ⟨o3, ho3, hfull3⟩ := transformDataPoints_total (n := n) hreads3
  have hreduces :
      Reduces (clReduction3Dim (o1.getD []) (o2.getD []) (o3.getD []) maxError) size := by
    by_cases hshort : size < 3
    · exact reduces_short hshort
    · have hreadable := hsafe.resolve_left hshort
      obtain ⟨clBuffer1, rfl, hlength1, hfinite1⟩ := hfull1 (hreadable r1 (by simp))
      obtain ⟨clBuffer2, rfl, hlength2, hfinite2⟩ := hfull2 (hreadable r2 (by simp))
      obtain ⟨clBuffer3, rfl, hlength3, hfinite3⟩ := hfull3 (hreadable r3 (by simp))
      rw [Option.getD_some, Option.getD_some, Option.getD_some]
      apply Settled.reduces _ maxError.square_not_neg
      exact squaredError3Dim_settled hfinite1 hfinite2 hfinite3 (by omega) (by omega) (by omega)
  obtain ⟨saved, hsaved, hinside⟩ := hreduces
  have hsorted := mem_sorted hinside
  obtain ⟨data1, hdata1⟩ := readSaved_total hsorted hreads1
  obtain ⟨data2, hdata2⟩ := readSaved_total hsorted hreads2
  obtain ⟨data3, hdata3⟩ := readSaved_total hsorted hreads3
  refine ⟨data1, data2, data3, _, ?_, getLastD_le hsorted⟩
  unfold clAnalyze3dim
  rw [ho1, ho2, ho3]
  simp only [Option.bind_eq_bind, Option.bind_some, hsaved, hdata1, hdata2, hdata3]

end Analyses

end VissServer.ServiceMgr.CurveLog
