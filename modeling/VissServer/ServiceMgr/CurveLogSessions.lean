import VissServer.ServiceMgr.CurveLogClock
import VissServer.ServiceMgr.CurveLogError

/-!
Whole sessions of curve logging, and the curve through what they deliver.
-/
namespace VissServer.ServiceMgr.CurveLog

open Go Polylines

/-- The curve through the delivered datapoints deviates by at most the maximum from each captured
sample between two of them. -/
def WithinError (n : Numbers) (ε : ℚ) (delivered samples : List RingElement) : Prop :=
  ∀ dp ∈ samples, ∀ s, n.point dp = some s →
    NearCurve ε {p | ∃ dp ∈ delivered, n.point dp = some p} s

/-- The samples that the passes read, up to the end of the session. -/
def samplesOf : List Pass → List RingElement
  | [] => []
  | x :: xs => x.reading.sample :: if x.close then [] else samplesOf xs

/-- The samples of one signal, in the order of time, each of them read at least once. -/
structure Stream (n : Numbers) (samples : List RingElement) : Prop where
  numeric : ∀ dp ∈ samples, (n.point dp).isSome
  increasing : samples.Pairwise fun a b => a = b ∨ Earlier n a b

/-- A session that ends delivers at its end the sample that it read last. -/
def EndsWithLast (final : Reading) : List Pass → Prop
  | [] => True
  | x :: xs => if x.close then final.sample = x.reading.sample else EndsWithLast final xs

/-- Each buffer that is full before the end of the session has a sample off its chord. -/
def SelectingRun (c : ClSession) (ε : ℚ) : ClState → List Pass → Prop
  | _, [] => True
  | s, x :: xs => x.close = false →
      (∀ r, capture s.aRingBuffer x.reading = some r →
        getNumOfPopulatedRingElements r = c.bufSize → Bends c.numbers ε r) ∧
      ∀ s' packs, pass c s x = some (s', packs) → SelectingRun c ε s' xs

section Sessions

variable {c : ClSession} {ε : ℚ} {s : ClState} {w w' : List RingElement} {D E E' : Set ℕ} {a : ℕ}
  {final : Reading} {packs packs' : List CLPack}

theorem Delivers.append (h : Delivers w E packs) (h' : Delivers w' E' packs')
    (hw : w <+: w') : Delivers w' (E ∪ E') (packs ++ packs') := by
  have hlength := hw.length_le
  have hget : ∀ i ∈ E, w'[i]? = w[i]? := by
    intro i hi
    obtain ⟨rest, rfl⟩ := hw
    rw [List.getElem?_append_left (h.1 i hi)]
  refine ⟨?_, ?_⟩
  · rintro i (hi | hi)
    · exact (h.1 i hi).trans_le hlength
    · exact h'.1 i hi
  · intro dp
    rw [List.flatMap_append, List.mem_append, h.2, h'.2]
    constructor
    · rintro (⟨i, hi, hdp⟩ | ⟨i, hi, hdp⟩)
      · exact ⟨i, .inl hi, (hget i hi).trans hdp⟩
      · exact ⟨i, .inr hi, hdp⟩
    · rintro ⟨i, hi | hi, hdp⟩
      · exact .inl ⟨i, hi, (hget i hi).symm.trans hdp⟩
      · exact .inr ⟨i, hi, hdp⟩

/-- What the passes of a session deliver, and which samples they have captured by then. -/
structure Delivered (c : ClSession) (ε : ℚ) (w : List RingElement) (D : Set ℕ) (xs : List Pass)
    (w' : List RingElement) (E : Set ℕ) (packs : List CLPack) : Prop where
  ordered : Ordered c.numbers w'
  covers : Covers (points c.numbers w') ε (D ∪ E)
  bounded : w' ≠ [] → ∀ i ∈ D, i < w'.length
  delivers : Delivers w' E packs
  mem : ∀ dp ∈ samplesOf xs, dp ∈ w'
  head : w'.head? = (w ++ samplesOf xs).head?
  keeps : w <+: w'

/-- One pass that does not end the session. -/
theorem Logged.pass (h : Logged c ε s w D a) (herror : c.maxError = .fin ε) (hε : 0 ≤ ε)
    {x : Pass} (hopen : x.close = false) (he : Follows c.numbers w x.reading.sample)
    (hbends : ∀ r, capture s.aRingBuffer x.reading = some r →
      getNumOfPopulatedRingElements r = c.bufSize → Bends c.numbers ε r) :
    ∃ s' packs E a', CurveLog.pass c s x = some (s', packs) ∧
      Logged c ε s' (captured w x.reading.sample) (D ∪ E) a' ∧
      Delivers (captured w x.reading.sample) E packs := by
  obtain ⟨r, hcapture, -⟩ := capture_spec h he
  by_cases hfull : getNumOfPopulatedRingElements r = c.bufSize
  · have hpass : CurveLog.pass c s x = analyze c { s with aRingBuffer := r } x.now := by
      simp [CurveLog.pass, hcapture, hfull]
    rw [hpass]
    apply h.saved herror hε he _ hcapture
    intro r' hcapture'
    rw [hcapture] at hcapture'
    cases hcapture'
    exact hbends r hcapture hfull
  · have hpass : CurveLog.pass c s x = some ({ s with aRingBuffer := r }, []) := by
      simp [CurveLog.pass, hcapture, hfull, hopen]
    refine ⟨_, _, ∅, a, hpass, ?_, ?_⟩
    · rw [Set.union_empty]
      exact h.stored he hcapture hfull
    · exact ⟨nofun, fun dp => by simp⟩

theorem head_captured (w : List RingElement) (e : RingElement) (rest : List RingElement) :
    (captured w e ++ rest).head? = (w ++ e :: rest).head? := by
  unfold captured
  split
  · next hmem =>
    cases w with
    | nil => exact nomatch hmem
    | cons dp w => rfl
  · rw [List.append_assoc, List.singleton_append]

/-- The passes one after the other, up to the end of the session or to the present. -/
theorem passes_delivered (herror : c.maxError = .fin ε) (hε : 0 ≤ ε) (xs : List Pass)
    (h : Logged c ε s w D a) (hstream : Stream c.numbers (samplesOf xs))
    (hfollows : ∀ dp ∈ w, ∀ e ∈ samplesOf xs, dp = e ∨ Earlier c.numbers dp e)
    (hends : EndsWithLast final xs) (hselect : SelectingRun c ε s xs) :
    ∃ packs w' E, passes c final s xs = some packs ∧ Delivered c ε w D xs w' E packs := by
  induction xs generalizing s w D a with
  | nil =>
    refine ⟨[], w, ∅, rfl, h.ordered, ?_, ?_, ⟨nofun, fun dp => by simp⟩, nofun, ?_,
      List.prefix_rfl⟩
    · rw [Set.union_empty]
      exact h.covers
    · intro hne i hi
      have hpos := h.pos hne
      have hpopulated := h.populated
      have hle := h.le i hi
      omega
    · simp [samplesOf]
  | cons x xs ih =>
    have hhead : x.reading.sample ∈ samplesOf (x :: xs) := List.mem_cons_self
    have he : Follows c.numbers w x.reading.sample :=
      ⟨hstream.numeric _ hhead, fun dp hdp => hfollows dp hdp _ hhead⟩
    cases hclose : x.close with
    | true =>
      have hsamples : samplesOf (x :: xs) = [x.reading.sample] := by simp [samplesOf, hclose]
      rw [EndsWithLast, if_pos hclose] at hends
      obtain ⟨r, hcapture, -⟩ := capture_spec h he
      obtain ⟨s', packs, E, hanalyze, hcovers, hbounded, hdelivers⟩ :=
        h.closed herror hε he hends hcapture
      refine ⟨packs ++ [returnSingleDp c final], _, E, ?_, ordered_captured h.ordered he, hcovers,
        fun _ => hbounded, hdelivers, ?_, ?_, prefix_captured _ _⟩
      · simp [passes, CurveLog.pass, hcapture, hclose, hanalyze]
      · rw [hsamples]
        intro dp hdp
        rw [List.mem_singleton.mp hdp]
        exact mem_captured _ _
      · rw [hsamples]
        simpa using head_captured w x.reading.sample []
    | false =>
      have hsamples : samplesOf (x :: xs) = x.reading.sample :: samplesOf xs := by
        simp [samplesOf, hclose]
      rw [EndsWithLast, if_neg (by simp [hclose])] at hends
      rw [hsamples] at hstream hfollows
      obtain ⟨hbends, hrest⟩ := hselect hclose
      obtain ⟨s', packs, E, a', hpass, hlogged, hdelivers⟩ := h.pass herror hε hclose he hbends
      obtain ⟨hnew, hincreasing⟩ := List.pairwise_cons.mp hstream.increasing
      have hfollows' : ∀ dp ∈ captured w x.reading.sample, ∀ e ∈ samplesOf xs,
          dp = e ∨ Earlier c.numbers dp e := by
        intro dp hdp e hmem
        unfold captured at hdp
        split at hdp
        · exact hfollows dp hdp e (List.mem_cons_of_mem _ hmem)
        · rcases List.mem_append.mp hdp with hdp | hdp
          · exact hfollows dp hdp e (List.mem_cons_of_mem _ hmem)
          · rw [List.mem_singleton.mp hdp]
            exact hnew e hmem
      obtain ⟨packs', w', E', hpasses, hdelivered⟩ := ih hlogged
        ⟨fun dp hdp => hstream.numeric dp (List.mem_cons_of_mem _ hdp), hincreasing⟩ hfollows'
        hends (hrest s' packs hpass)
      refine ⟨packs ++ packs', w', E ∪ E', ?_, hdelivered.ordered, ?_, ?_,
        hdelivers.append hdelivered.delivers hdelivered.keeps, ?_, ?_,
        (prefix_captured _ _).trans hdelivered.keeps⟩
      · simp [passes, hpass, hclose, hpasses]
      · rw [← Set.union_assoc]
        exact hdelivered.covers
      · intro hne i hi
        exact hdelivered.bounded hne i (.inl hi)
      · rw [hsamples]
        intro dp hdp
        rcases List.mem_cons.mp hdp with rfl | hdp
        · exact hdelivered.keeps.subset (mem_captured _ _)
        · exact hdelivered.mem dp hdp
      · rw [hdelivered.head, hsamples]
        exact head_captured w x.reading.sample (samplesOf xs)

/-- A session before its first pass, of which the datapoint at its start is the only one. -/
theorem logged_start (hbuf : 2 ≤ c.bufSize) :
    ∃ r, createRingBuffer (c.bufSize + 1) = some r ∧
      Logged c ε { aRingBuffer := r, postProc := {} } [] {0} 0 := by
  obtain ⟨r, hr, hholds, hsize, hnum⟩ := createRingBuffer_holds (show 0 < c.bufSize + 1 by omega)
  refine ⟨r, hr, hholds, hsize, ⟨nofun, List.Pairwise.nil⟩, ?_, ?_, fun h => absurd rfl h,
    ⟨(by decide : (0 : ℤ) ≠ -1), .inr rfl⟩, covers_subsingleton Set.subsingleton_singleton, ?_, rfl⟩
  · rw [hnum]
    rfl
  · rw [hnum]
    omega
  · rintro i rfl
    exact le_refl _

/-- What the delivered datapoints are as points, where they are those at numbers of samples. -/
theorem points_delivered {n : Numbers} {delivered : List RingElement} (hw : Ordered n w)
    (hD : ∀ i ∈ D, i < w.length)
    (h : ∀ dp, dp ∈ delivered ↔ ∃ i ∈ D, w[i]? = some dp) :
    {p | ∃ dp ∈ delivered, n.point dp = some p} = points n w '' D := by
  ext p
  constructor
  · rintro ⟨dp, hdp, hp⟩
    obtain ⟨i, hi, hget⟩ := (h dp).mp hdp
    rw [List.getElem?_eq_getElem (hD i hi)] at hget
    cases hget
    rw [points_eq hw] at hp
    cases hp
    exact ⟨i, hi, rfl⟩
  · rintro ⟨i, hi, rfl⟩
    have hlt := hD i hi
    exact ⟨w[i], (h _).mpr ⟨i, hi, List.getElem?_eq_getElem hlt⟩, points_eq hw hlt⟩

/-- The session from its start on selects a sample of each full buffer. -/
def SelectingSession (c : ClSession) (ε : ℚ) (xs : List Pass) : Prop :=
  ∀ aRingBuffer, createRingBuffer (c.bufSize + 1) = some aRingBuffer →
    SelectingRun c ε { aRingBuffer, postProc := {} } xs

/-- The error of a curve log is bounded over a whole session, if each buffer that is full before
its end has a sample off its chord, and if the datapoints at the start and at the end of the
session are the first and the last sample that are captured. -/
theorem curveLog1dim_error_bound (c : ClSession) (ε : ℚ) (initial final : Reading)
    (xs : List Pass) (hbuf : 2 ≤ c.bufSize) (herror : c.maxError = .fin ε) (hε : 0 ≤ ε)
    (hstream : Stream c.numbers (samplesOf xs))
    (hinitial : ∀ x ∈ xs.head?, x.reading.sample = initial.sample)
    (hfinal : EndsWithLast final xs) (hselect : SelectingSession c.limited ε xs) :
    ∃ packs, curveLog1dim c initial xs final = some packs ∧
      WithinError c.numbers ε (packs.flatMap fun p => p.data.dps) (samplesOf xs) := by
  have hbuf' : 2 ≤ c.limited.bufSize := le_min hbuf (by decide)
  obtain ⟨r, hr, hlogged⟩ := logged_start hbuf'
  have herror' : c.limited.maxError = .fin ε := herror
  obtain ⟨packs, w, E, hpasses, hdelivered⟩ := passes_delivered herror' hε xs hlogged hstream
    (fun _ hdp => absurd hdp List.not_mem_nil) hfinal (hselect r hr)
  have hordered : Ordered c.numbers w := hdelivered.ordered
  have hcovers : Covers (points c.numbers w) ε ({0} ∪ E) := hdelivered.covers
  refine ⟨returnSingleDp c initial :: packs, ?_, ?_⟩
  · simp only [curveLog1dim, clCapture1dim, hr, Option.bind_eq_bind, Option.bind_some, hpasses]
  · intro dp hdp s hs
    have hmem := hdelivered.mem dp hdp
    have hne := List.ne_nil_of_mem hmem
    have hfirst : w[0]? = some initial.sample := by
      rw [← List.head?_eq_getElem?, hdelivered.head]
      cases xs with
      | nil => exact absurd hdp List.not_mem_nil
      | cons x xs => exact congrArg some (hinitial x rfl)
    have hbounded : ∀ i ∈ {0} ∪ E, i < w.length := by
      rintro i (hi | hi)
      · exact hdelivered.bounded hne i hi
      · exact hdelivered.delivers.1 i hi
    have hall : ∀ dp, dp ∈ ((returnSingleDp c initial :: packs).flatMap fun p => p.data.dps) ↔
        ∃ i ∈ {0} ∪ E, w[i]? = some dp := by
      intro dp
      have hsingle : (returnSingleDp c initial).data.dps = [initial.sample] := rfl
      rw [List.flatMap_cons, List.mem_append, hdelivered.delivers.2, hsingle, List.mem_singleton]
      constructor
      · rintro (rfl | ⟨i, hi, hget⟩)
        · exact ⟨0, .inl rfl, hfirst⟩
        · exact ⟨i, .inr hi, hget⟩
      · rintro ⟨i, rfl | hi, hget⟩
        · rw [hfirst] at hget
          cases hget
          exact .inl rfl
        · exact .inr ⟨i, hi, hget⟩
    obtain ⟨k, hk, rfl⟩ := List.getElem_of_mem hmem
    rw [points_eq hordered hk] at hs
    cases hs
    rw [points_delivered hordered hbounded hall]
    apply hcovers.nearCurve (n := w.length - 1) _ _ (by omega)
    · intro i j hij hj
      exact points_increasing hordered hij (by omega)
    · intro i hi
      have hlt := hbounded i hi
      omega

end Sessions

/-! ## Examples of sessions -/

/-- The session with buffers of three samples. -/
def threeSession : ClSession := { smallSession with bufSize := 3 }

/-- A signal that leaves 0 for one sample. -/
def peak : List Pass :=
  [passAt (str "0") (str "2020-01-01T00:00:00Z") false 100,
   passAt (str "5") (str "2020-01-01T00:00:01Z") false 100,
   passAt (str "0") (str "2020-01-01T00:00:02Z") false 100,
   passAt (str "0") (str "2020-01-01T00:00:03Z") true 100]

theorem peak_stream : Stream smallNumbers (samplesOf peak) where
  numeric := by decide
  increasing := by decide +kernel

theorem peak_selecting : SelectingSession threeSession.limited 1 peak := by
  intro aRingBuffer hring
  cases hring
  intro _
  refine ⟨?_, ?_⟩
  · intro r hr hfull
    cases hr
    exact absurd hfull (by decide)
  intro s1 packs1 h1 _
  cases h1
  refine ⟨?_, ?_⟩
  · intro r hr hfull
    cases hr
    exact absurd hfull (by decide)
  intro s2 packs2 h2 _
  cases h2
  refine ⟨?_, ?_⟩
  · intro r hr _
    cases hr
    refine ⟨1, _, _, _, _, _, _, by decide, rfl, rfl, rfl, rfl, rfl, rfl, ?_⟩
    decide +kernel
  intro s3 packs3 h3 hopen
  exact absurd hopen (by decide)

/-- The curve log of the peak is within 1 of all samples. -/
theorem curveLog1dim_error_bound_peak :
    ∃ packs, curveLog1dim threeSession (readingAt (str "0") (str "2020-01-01T00:00:00Z")) peak
        (readingAt (str "0") (str "2020-01-01T00:00:03Z")) = some packs ∧
      WithinError smallNumbers 1 (packs.flatMap fun p => p.data.dps) (samplesOf peak) :=
  curveLog1dim_error_bound threeSession 1 _ _ peak (by decide) rfl (by decide) peak_stream
    (fun x hx => by cases hx; rfl) rfl peak_selecting

/-- A signal that jumps to 5 in a session with buffers of two samples. -/
def jump : List Pass := threePasses (str "0") (str "5") (str "5") 100 100

/-- The sample of the jump is not delivered, and the curve is more than 1 away from it. -/
theorem jump_missed :
    Stream smallNumbers (samplesOf jump) ∧
    ∃ packs, curveLog1dim smallSession (readingAt (str "0") (str "2020-01-01T00:00:00Z")) jump
        (readingAt (str "5") (str "2020-01-01T00:00:02Z")) = some packs ∧
      ¬ WithinError smallNumbers 1 (packs.flatMap fun p => p.data.dps) (samplesOf jump) := by
  refine ⟨⟨by decide +kernel, by decide +kernel⟩,
    [smallSession.pack (.single (readingAt (str "0") (str "2020-01-01T00:00:00Z"))),
     smallSession.pack (.single (readingAt (str "5") (str "2020-01-01T00:00:02Z")))],
    by decide +kernel, ?_⟩
  intro h
  have hnear := h ⟨str "5", str "2020-01-01T00:00:01Z"⟩ (by decide) _ rfl
  have hdeviates := hnear _ ⟨⟨str "0", str "2020-01-01T00:00:00Z"⟩, by decide, rfl⟩
    _ ⟨⟨str "5", str "2020-01-01T00:00:02Z"⟩, by decide +kernel, rfl⟩ (by decide +kernel) ?_
    (by decide +kernel) (by decide +kernel)
  · revert hdeviates
    decide +kernel
  · rintro r ⟨dp, hdp, hr⟩ hbetween
    have hcases : dp = ⟨str "0", str "2020-01-01T00:00:00Z"⟩ ∨
        dp = ⟨str "5", str "2020-01-01T00:00:02Z"⟩ := by
      simpa [ClSession.pack, CLData.dps, Reading.sample, readingAt] using hdp
    rcases hcases with rfl | rfl
    · cases hr
      exact absurd hbetween.1 (lt_irrefl _)
    · cases hr
      exact absurd hbetween.2 (lt_irrefl _)

end VissServer.ServiceMgr.CurveLog
