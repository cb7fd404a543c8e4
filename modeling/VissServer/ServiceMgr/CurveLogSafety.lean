import VissServer.Library.Traversals
import VissServer.ServiceMgr.CurveLogAnalyses

/-!
Curve log captures that do not panic: a size that is not negative, datapoints with the members
that the loop reads, and numbers in each buffer of three samples and more that is analysed.
-/
namespace VissServer.ServiceMgr.CurveLog

open Go Polylines Traversals

/-! ## Positions in the buffers -/

/-- Head and tail of a buffer that is made for bufSize samples. With a size of at most 1 every
analysis puts the tail right behind the latest sample. -/
structure Position (bufSize head tail : ℤ) : Prop where
  head_nonneg : 0 ≤ head
  head_le : head ≤ bufSize
  tail_le : tail ≤ bufSize
  small : bufSize ≤ 1 → -1 ≤ tail ∧ tail ≤ 0

structure Placed (bufSize head tail : ℤ) (r : RingBuffer) : Prop where
  size : r.bufSize = bufSize + 1
  length : (r.ringElem.length : ℤ) = bufSize + 1
  head : r.head = head
  tail : r.tail = tail

/-- The number of populated elements. -/
def count (bufSize head tail : ℤ) : ℤ :=
  if head < tail then head + (bufSize + 1) - tail else head - tail

section Positions

variable {bufSize head tail : ℤ} {r : RingBuffer}

theorem Placed.populated (h : Placed bufSize head tail r) :
    getNumOfPopulatedRingElements r = count bufSize head tail := by
  rw [getNumOfPopulatedRingElements, h.size, h.head, h.tail, count]

theorem Placed.readRing (hpos : Position bufSize head tail) (h : Placed bufSize head tail r)
    {k : ℤ} (hlow : -1 ≤ k) (hhigh : k ≤ bufSize) : (readRing r k).isSome := by
  have hlength := h.length
  have hnonneg := hpos.head_nonneg
  have hle := hpos.head_le
  unfold CurveLog.readRing
  rw [h.head, h.size]
  by_cases hneg : head - (k + 1) < 0
  · simp only [if_pos hneg]
    rw [if_pos (by omega), List.getElem?_eq_getElem (by omega)]
    rfl
  · simp only [if_neg hneg]
    rw [if_pos (by omega), List.getElem?_eq_getElem (by omega)]
    rfl

/-- The head after a write. -/
def nextHead (bufSize head : ℤ) : ℤ := if head = bufSize then 0 else head + 1

theorem Placed.writeRing (hpos : Position bufSize head tail) (h : Placed bufSize head tail r)
    (value timestamp : GoString) :
    ∃ r', writeRing r value timestamp = some r' ∧
      Placed bufSize (nextHead bufSize head) tail r' := by
  have hlength := h.length
  have hnonneg := hpos.head_nonneg
  have hle := hpos.head_le
  have hwithin : 0 ≤ r.head ∧ r.head < r.ringElem.length := by
    rw [h.head]
    omega
  refine ⟨_, if_pos hwithin, h.size, ?_, ?_, h.tail⟩
  · dsimp only
    rw [List.length_set]
    exact hlength
  · dsimp only
    rw [h.head, h.size, nextHead]
    split <;> split <;> omega

theorem count_nonneg (hpos : Position bufSize head tail) : 0 ≤ count bufSize head tail := by
  have hnonneg := hpos.head_nonneg
  have hle := hpos.tail_le
  unfold count
  split <;> omega

/-- With the whole size of the buffer, also where it is small. -/
theorem count_le (hpos : Position bufSize head tail)
    (hroom : 2 ≤ bufSize → count bufSize head tail ≤ bufSize) :
    count bufSize head tail ≤ bufSize + 1 := by
  have hnonneg := hpos.head_nonneg
  have hle := hpos.head_le
  by_cases hsmall : bufSize ≤ 1
  · have htail := hpos.small hsmall
    unfold count
    split <;> omega
  · have hcount := hroom (by omega)
    omega

theorem Position.next (hpos : Position bufSize head tail)
    (hroom : 2 ≤ bufSize → count bufSize head tail < bufSize) :
    Position bufSize (nextHead bufSize head) tail ∧
      (2 ≤ bufSize → count bufSize (nextHead bufSize head) tail ≤ bufSize) := by
  have hnonneg := hpos.head_nonneg
  have hle := hpos.head_le
  have htail := hpos.tail_le
  refine ⟨⟨?_, ?_, htail, hpos.small⟩, ?_⟩
  · unfold nextHead
    split <;> omega
  · unfold nextHead
    split <;> omega
  · intro hsize
    have hcount := hroom hsize
    unfold count nextHead at *
    split at hcount <;> split <;> split <;> omega

theorem Position.analyzed (hpos : Position bufSize head tail)
    (hroom : 2 ≤ bufSize → count bufSize head tail ≤ bufSize) {updatedTail : ℕ}
    (htail : updatedTail = 0 ∨ (updatedTail : ℤ) + 2 ≤ count bufSize head tail) :
    Position bufSize head (head - (updatedTail + 1)) ∧
      (2 ≤ bufSize → count bufSize head (head - (updatedTail + 1)) < bufSize) := by
  have hnonneg := hpos.head_nonneg
  have hle := hpos.head_le
  have hcount := count_le hpos hroom
  refine ⟨⟨hnonneg, hle, by omega, ?_⟩, ?_⟩
  · intro hsmall
    omega
  · intro hsize
    have hlimit := hroom hsize
    unfold count at *
    split <;> omega

/-- What an analysis of the populated elements reads. -/
theorem Placed.reads (hpos : Position bufSize head tail) (h : Placed bufSize head tail r)
    (hroom : 2 ≤ bufSize → count bufSize head tail ≤ bufSize) :
    Reads r (count bufSize head tail).toNat := by
  have hnonneg := count_nonneg hpos
  have hle := count_le hpos hroom
  have hhead := hpos.head_nonneg
  have hbuf := hpos.head_le
  refine ⟨?_, h.readRing hpos (by omega) (by omega), h.readRing hpos (by omega) (by omega)⟩
  intro k hk
  exact h.readRing hpos (by omega) (by omega)

end Positions

/-! ## A pass -/

/-- The members that the comparisons read are texts, up to the first duplicate. -/
def MembersRead : List (Signal × RingElement) → Prop
  | [] => True
  | (g, latest) :: rest => ∃ ts, g.ts = some ts ∧ (latest.timestamp ≠ ts → MembersRead rest)

/-- A pass that is safe: the timestamps that are compared are texts, those of a new sample come
with values that are texts, and the analysis of the buffers, if it takes place, is safe. -/
structure SafePass (safe : List RingBuffer → ℕ → Prop) (bufSize : ℤ) (gs : List Signal)
    (x : SignalPass) : Prop where
  dps : x.dps.length = gs.length
  members : ∀ latest,
    (gs.zipWith Signal.read x.dps).mapM (fun g => readRing g.aRingBuffer 0) = some latest →
    MembersRead ((gs.zipWith Signal.read x.dps).zip latest)
  values : isNewSample (gs.zipWith Signal.read x.dps) = some true →
    ∀ g ∈ gs.zipWith Signal.read x.dps, g.value.isSome
  analyzed : ∀ first rest, captureSignals (gs.zipWith Signal.read x.dps) = some (first :: rest) →
    getNumOfPopulatedRingElements first.aRingBuffer = bufSize ∨ x.close = true →
    safe ((first :: rest).map fun g => g.aRingBuffer)
      (getNumOfPopulatedRingElements first.aRingBuffer).toNat

/-- An analysis has a result wherever it is safe. -/
def TotalAnalysis {σ P : Type} (analysis : AnalysisDim σ P) (safe : List RingBuffer → ℕ → Prop)
    (dimensions : ℕ) : Prop :=
  ∀ s rings size now, rings.length = dimensions → (∀ r ∈ rings, Reads r size) →
    safe rings size → ∃ s' packs updatedTail,
      analysis s rings size now = some (s', packs, updatedTail) ∧
      (updatedTail = 0 ∨ updatedTail + 2 ≤ size)

/-- The signals between two passes: their buffers are filled alike, and have room for a sample. -/
def Ready (bufSize : ℤ) (dimensions : ℕ) (gs : List Signal) : Prop :=
  gs.length = dimensions ∧ ∃ head tail, Position bufSize head tail ∧
    (2 ≤ bufSize → count bufSize head tail < bufSize) ∧
    ∀ g ∈ gs, Placed bufSize head tail g.aRingBuffer

section Pass

variable {σ P : Type} {analysis : AnalysisDim σ P} {safe : List RingBuffer → ℕ → Prop}
  {bufSize head tail : ℤ} {dimensions : ℕ} {gs : List Signal}

theorem allNew_total (l : List (Signal × RingElement)) (h : MembersRead l) :
    ∃ new, allNew l = some new ∧ (new = true → ∀ p ∈ l, p.1.ts.isSome) := by
  induction l with
  | nil => exact ⟨true, rfl, by simp⟩
  | cons p l ih =>
    obtain ⟨g, latest⟩ := p
    obtain ⟨ts, hts, hrest⟩ := h
    rw [allNew, hts]
    by_cases hnew : latest.timestamp ≠ ts
    · obtain ⟨new, hallnew, hall⟩ := ih (hrest hnew)
      refine ⟨new, by simp [hnew, hallnew], ?_⟩
      intro htrue
      refine List.forall_mem_cons.mpr ⟨?_, hall htrue⟩
      rw [hts]
      rfl
    · exact ⟨false, by simp [hnew], by simp⟩

theorem allEqual_total (gs : List Signal) (h : ∀ g ∈ gs, g.ts.isSome) :
    ∃ same, allEqual gs = some same := by
  induction gs with
  | nil => exact ⟨true, rfl⟩
  | cons g1 gs ih =>
    cases gs with
    | nil => exact ⟨true, rfl⟩
    | cons g2 gs =>
      obtain ⟨ts1, hts1⟩ := Option.isSome_iff_exists.mp (h g1 List.mem_cons_self)
      obtain ⟨ts2, hts2⟩ := Option.isSome_iff_exists.mp
        (h g2 (List.mem_cons_of_mem g1 List.mem_cons_self))
      obtain ⟨same, hsame⟩ := ih fun g hg => h g (List.mem_cons_of_mem g1 hg)
      rw [allEqual, hts1, hts2]
      by_cases heq : ts1 = ts2
      · exact ⟨same, by simp [heq, hsame]⟩
      · exact ⟨false, by simp [heq]⟩

/-- The comparisons have a result, and a new sample has timestamps that are texts. -/
theorem isNewSample_total {latest : List RingElement}
    (hlatest : gs.mapM (fun g => readRing g.aRingBuffer 0) = some latest)
    (hlength : latest.length = gs.length) (hmembers : MembersRead (gs.zip latest)) :
    ∃ new, isNewSample gs = some new ∧ (new = true → ∀ g ∈ gs, g.ts.isSome) := by
  obtain ⟨new, hnew, hall⟩ := allNew_total _ hmembers
  have hts : new = true → ∀ g ∈ gs, g.ts.isSome := by
    intro htrue g hg
    obtain ⟨i, hi, rfl⟩ := List.getElem_of_mem hg
    have hmem : (gs[i], latest[i]) ∈ gs.zip latest := by
      rw [← List.getElem_zip (h := by rw [List.length_zip]; omega)]
      exact List.getElem_mem _
    exact hall htrue _ hmem
  unfold isNewSample
  simp only [hlatest, Option.bind_eq_bind, Option.bind_some, hnew]
  cases new with
  | false => exact ⟨false, rfl, nofun⟩
  | true =>
    obtain ⟨same, hsame⟩ := allEqual_total gs (hts rfl)
    exact ⟨same, hsame, fun _ => hts rfl⟩

/-- The sample of a pass is stored in all buffers or in none. -/
theorem captureSignals_total (hpos : Position bufSize head tail)
    (hroom : 2 ≤ bufSize → count bufSize head tail < bufSize)
    (hplaced : ∀ g ∈ gs, Placed bufSize head tail g.aRingBuffer)
    (hmembers : ∀ latest, gs.mapM (fun g => readRing g.aRingBuffer 0) = some latest →
      MembersRead (gs.zip latest))
    (hvalues : isNewSample gs = some true → ∀ g ∈ gs, g.value.isSome) :
    ∃ gs' head', captureSignals gs = some gs' ∧ gs'.length = gs.length ∧
      Position bufSize head' tail ∧ (2 ≤ bufSize → count bufSize head' tail ≤ bufSize) ∧
      ∀ g ∈ gs', Placed bufSize head' tail g.aRingBuffer := by
  have hsize := hpos.head_nonneg.trans hpos.head_le
  have hreads : ∀ g ∈ gs, (readRing g.aRingBuffer 0).isSome := fun g hg =>
    (hplaced g hg).readRing hpos (show (-1 : ℤ) ≤ 0 by omega) hsize
  obtain ⟨latest, hlatest⟩ := Option.isSome_iff_exists.mp (isSome_mapM_iff.mpr hreads)
  have hlength := length_of_mapM hlatest
  obtain ⟨new, hnew, hts⟩ := isNewSample_total hlatest hlength (hmembers latest hlatest)
  unfold captureSignals
  rw [hnew]
  cases new with
  | false =>
    exact ⟨gs, head, rfl, rfl, hpos, fun hsize => (hroom hsize).le, hplaced⟩
  | true =>
    have hwrites : ∀ g ∈ gs, ∃ g', Signal.write g = some g' ∧
        Placed bufSize (nextHead bufSize head) tail g'.aRingBuffer := by
      intro g hg
      obtain ⟨value, hvalue⟩ := Option.isSome_iff_exists.mp (hvalues hnew g hg)
      obtain ⟨ts, hts⟩ := Option.isSome_iff_exists.mp (hts rfl g hg)
      obtain ⟨r, hwrite, hr⟩ := (hplaced g hg).writeRing hpos value ts
      exact ⟨{ g with aRingBuffer := r }, by simp [Signal.write, hvalue, hts, hwrite], hr⟩
    obtain ⟨gs', hgs'⟩ := Option.isSome_iff_exists.mp (isSome_mapM_iff.mpr fun g hg =>
      Option.isSome_iff_exists.mpr ((hwrites g hg).imp fun _ h => h.1))
    obtain ⟨hnext, hcount⟩ := hpos.next hroom
    refine ⟨gs', _, hgs', length_of_mapM hgs', hnext, hcount, fun g' hg' => ?_⟩
    obtain ⟨g, hg, hwrite⟩ := (mem_of_mapM hgs').mp hg'
    obtain ⟨g₁, hg₁, hplaced₁⟩ := hwrites g hg
    obtain rfl := Option.some.inj (hwrite.symm.trans hg₁)
    exact hplaced₁

theorem setTails_placed (hplaced : ∀ g ∈ gs, Placed bufSize head tail g.aRingBuffer)
    (updatedTail : ℕ) : ∀ g ∈ setTails updatedTail gs,
      Placed bufSize head (head - (updatedTail + 1)) g.aRingBuffer := by
  intro g hg
  obtain ⟨g', hg', rfl⟩ := List.mem_map.mp hg
  obtain ⟨hsize, hlength, hhead, -⟩ := hplaced g' hg'
  refine ⟨hsize, hlength, hhead, ?_⟩
  rw [setRingTail, hhead]

/-- A safe pass has a result, after which the signals are ready for the next one. -/
theorem passDim_total (htotal : TotalAnalysis analysis safe dimensions) (hdim : 0 < dimensions)
    {s : σ} (hready : Ready bufSize dimensions gs) {x : SignalPass}
    (hsafe : SafePass safe bufSize gs x) :
    ∃ gs' s' packs, passDim analysis bufSize (gs, s) x = some ((gs', s'), packs) ∧
      Ready bufSize dimensions gs' := by
  obtain ⟨hlength, head, tail, hpos, hroom, hplaced⟩ := hready
  have hread : ∀ g ∈ gs.zipWith Signal.read x.dps, Placed bufSize head tail g.aRingBuffer := by
    intro g hg
    obtain ⟨i, hi, rfl⟩ := List.getElem_of_mem hg
    have hwithin : i < gs.length := by
      rw [List.length_zipWith] at hi
      omega
    rw [List.getElem_zipWith]
    exact hplaced gs[i] (List.getElem_mem hwithin)
  have hlengthRead : (gs.zipWith Signal.read x.dps).length = dimensions := by
    rw [List.length_zipWith, hsafe.dps, hlength, min_self]
  obtain ⟨gs', head', hcapture, hlength', hpos', hroom', hplaced'⟩ :=
    captureSignals_total hpos hroom hread hsafe.members hsafe.values
  rw [hlengthRead] at hlength'
  obtain ⟨first, rest, rfl⟩ : ∃ first rest, gs' = first :: rest := by
    cases gs' with
    | nil =>
      rw [List.length_nil] at hlength'
      omega
    | cons first rest => exact ⟨first, rest, rfl⟩
  have hfirst := hplaced' first List.mem_cons_self
  unfold passDim analyzeSignals
  simp only [hcapture, Option.bind_eq_bind, Option.bind_some, List.head?_cons]
  by_cases hanalyze : getNumOfPopulatedRingElements first.aRingBuffer = bufSize ∨ x.close = true
  · obtain ⟨s', packs, updatedTail, hanalysis, htail⟩ := htotal s
      ((first :: rest).map fun g => g.aRingBuffer)
      (getNumOfPopulatedRingElements first.aRingBuffer).toNat x.now
      (by rw [List.length_map, hlength'])
      (by
        intro r hr
        obtain ⟨g, hg, rfl⟩ := List.mem_map.mp hr
        rw [hfirst.populated]
        exact (hplaced' g hg).reads hpos' hroom')
      (hsafe.analyzed first rest hcapture hanalyze)
    have hnonneg := count_nonneg hpos'
    rw [hfirst.populated] at htail
    obtain ⟨hpos'', hroom''⟩ := @hpos'.analyzed _ _ _ hroom' updatedTail (by omega)
    refine ⟨setTails updatedTail (first :: rest), s', packs, ?_, ?_, ?_⟩
    · rw [if_pos hanalyze, hanalysis]
      rfl
    · rw [setTails, List.length_map, hlength']
    · exact ⟨head', _, hpos'', hroom'', setTails_placed hplaced' updatedTail⟩
  · refine ⟨first :: rest, s, [], by rw [if_neg hanalyze], hlength', head', tail, hpos', ?_,
      hplaced'⟩
    intro hsize
    have hcount := hroom' hsize
    rw [not_or, hfirst.populated] at hanalyze
    omega

/-- Every pass of a session is safe. -/
def SafeRun (analysis : AnalysisDim σ P) (safe : List RingBuffer → ℕ → Prop) (bufSize : ℤ) :
    List Signal × σ → List SignalPass → Prop
  | _, [] => True
  | state, x :: xs => SafePass safe bufSize state.1 x ∧
      (x.close = false → ∀ state' packs, passDim analysis bufSize state x = some (state', packs) →
        SafeRun analysis safe bufSize state' xs)

theorem passesDim_total (htotal : TotalAnalysis analysis safe dimensions) (hdim : 0 < dimensions)
    (xs : List SignalPass) {s : σ} (hready : Ready bufSize dimensions gs)
    (hsafe : SafeRun analysis safe bufSize (gs, s) xs) :
    (passesDim analysis bufSize (gs, s) xs).isSome := by
  induction xs generalizing gs s with
  | nil => rfl
  | cons x xs ih =>
    obtain ⟨hpass, hrest⟩ := hsafe
    obtain ⟨gs', s', packs, heq, hready'⟩ := passDim_total htotal hdim hready hpass
    rw [passesDim, heq]
    by_cases hclose : x.close = true
    · simp [hclose]
    · have hopen : x.close = false := Bool.eq_false_iff.mpr hclose
      have hpasses := ih hready' (hrest hopen _ _ heq)
      obtain ⟨rest, hpasses⟩ := Option.isSome_iff_exists.mp hpasses
      simp [hclose, hpasses]

/-- The buffers of a session before its first pass. -/
def startSignals (bufSize : ℤ) (dimensions : ℕ) : List Signal :=
  List.replicate dimensions
    { aRingBuffer :=
        { bufSize := bufSize + 1
          ringElem := List.replicate (bufSize + 1).toNat { value := [], timestamp := [] }
          head := 0
          tail := 0 } }

theorem captureDim_total (htotal : TotalAnalysis analysis safe dimensions) (hdim : 0 < dimensions)
    (hsize : 0 ≤ bufSize) (s : σ) (xs : List SignalPass)
    (hsafe : SafeRun analysis safe bufSize (startSignals bufSize dimensions, s) xs) :
    (captureDim analysis bufSize dimensions s xs).isSome := by
  have hcreate : createRingBuffer (bufSize + 1) = some
      { bufSize := bufSize + 1
        ringElem := List.replicate (bufSize + 1).toNat { value := [], timestamp := [] }
        head := 0
        tail := 0 } := if_neg (by omega)
  have hready : Ready bufSize dimensions (startSignals bufSize dimensions) := by
    refine ⟨List.length_replicate, 0, 0, ⟨le_refl _, hsize, hsize, ?_⟩, ?_, ?_⟩
    · omega
    · intro hlarge
      rw [count]
      omega
    · intro g hg
      rw [List.eq_of_mem_replicate hg]
      refine ⟨rfl, ?_, rfl, rfl⟩
      dsimp only
      rw [List.length_replicate]
      omega
  rw [captureDim, hcreate]
  exact passesDim_total htotal hdim xs hready hsafe

end Pass

/-! ## The captures -/

theorem analysis1dim_safe (c : ClSession) :
    TotalAnalysis (analysis1dim c) (SafeAnalysis1dim c) 1 := by
  intro postProc rings size now hlength hreads hsafe
  obtain ⟨r, rfl⟩ := List.length_eq_one_iff.mp hlength
  exact analysis1dim_total (hreads r (List.mem_singleton_self r)) hsafe postProc now

theorem analysis2dim_safe (c : ClSession) (path2 : GoString) :
    TotalAnalysis (analysis2dim c path2) (SafeAnalysis c.numbers) 2 := by
  intro _ rings size now hlength hreads hsafe
  obtain ⟨r1, r2, rfl⟩ := List.length_eq_two.mp hlength
  obtain ⟨data1, data2, updatedTail, hanalyze, htail⟩ :=
    @clAnalyze2dim_total c.numbers r1 r2 size c.maxError (hreads r1 (by simp))
      (hreads r2 (by simp)) hsafe
  refine ⟨(), [[c.pack (.saved data1), { c with path := path2 }.pack (.saved data2)]],
    updatedTail, ?_, htail⟩
  simp only [analysis2dim, hanalyze, Option.bind_eq_bind, Option.bind_some]

theorem analysis3dim_safe (c : ClSession) (path2 path3 : GoString) :
    TotalAnalysis (analysis3dim c path2 path3) (SafeAnalysis c.numbers) 3 := by
  intro _ rings size now hlength hreads hsafe
  obtain ⟨r1, r2, r3, rfl⟩ := List.length_eq_three.mp hlength
  obtain ⟨data1, data2, data3, updatedTail, hanalyze, htail⟩ :=
    @clAnalyze3dim_total c.numbers r1 r2 r3 size c.maxError (hreads r1 (by simp))
      (hreads r2 (by simp)) (hreads r3 (by simp)) hsafe
  refine ⟨(), [[c.pack (.saved data1), { c with path := path2 }.pack (.saved data2),
    { c with path := path3 }.pack (.saved data3)]], updatedTail, ?_, htail⟩
  simp only [analysis3dim, hanalyze, Option.bind_eq_bind, Option.bind_some]

theorem session_bufSize {n : Numbers} {opValue path : GoString} {subscriptionId : ℤ}
    (h : 0 ≤ (getCurveLoggingParams n opValue).2) :
    0 ≤ (session n opValue subscriptionId path).bufSize := by
  exact le_min h (by decide)

/-- A library that can read the number 0 only, and no time. -/
def zeroOnly : Numbers where
  parseFloat := fun s => if s = str "0" then some 0 else none
  parseTime := fun _ => none
  parseTime_nil := rfl

/-- A datapoint without data, as getVehicleData gives it. -/
def notFound (ts : String) (close : Bool) : SignalPass where
  dps := [str "\x7b\"value\":\"Data-not-found\",\"ts\":\"" ++ str ts ++ str "\"\x7d"]
  close := close
  now := fun _ => 0

def filterOf (bufsize : String) : GoString :=
  str "\x7b\"maxerr\":\"0\",\"bufsize\":\"" ++ str bufsize ++ str "\"\x7d"

end VissServer.ServiceMgr.CurveLog
