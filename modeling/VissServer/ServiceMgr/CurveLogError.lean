import VissServer.Library.Traversals
import VissServer.ServiceMgr.CurveLogReduction
import VissServer.ServiceMgr.CurveLogRing

/-!
The error of a curve log. As long as each full buffer has a sample that the reduction saves, the
datapoints delivered cover all captured samples: the buffer begins with the datapoint that was
delivered last.
-/
namespace VissServer.ServiceMgr.CurveLog

open Go Polylines

/-! ## Samples that are numbers -/

/-- The sample as a point, with the seconds since 1970. -/
def Numbers.point (n : Numbers) (dp : RingElement) : Option (Point ℚ) :=
  match n.parseFloat dp.value, n.parseTime dp.timestamp with
  | some (.fin v), some t => some { t := (t : ℚ) / 1000000000, v }
  | _, _ => none

/-- Both samples are numbers, and the first one is the earlier one. -/
def Earlier (n : Numbers) (a b : RingElement) : Prop :=
  ∃ p q, n.point a = some p ∧ n.point b = some q ∧ p.t < q.t

instance (n : Numbers) (a b : RingElement) : Decidable (Earlier n a b) :=
  match ha : n.point a, hb : n.point b with
  | some p, some q => decidable_of_iff (p.t < q.t) (by simp [Earlier, ha, hb])
  | none, _ => isFalse (by simp [Earlier, ha])
  | _, none => isFalse (by simp [Earlier, hb])

/-- Samples of numbers with increasing times. -/
structure Ordered (n : Numbers) (w : List RingElement) : Prop where
  numeric : ∀ dp ∈ w, (n.point dp).isSome
  increasing : w.Pairwise (Earlier n)

/-- The points of the samples, by number. -/
def points (n : Numbers) (w : List RingElement) (i : ℕ) : Point ℚ :=
  ((w[i]?).bind n.point).getD { t := 0, v := 0 }

section Samples

variable {n : Numbers} {w : List RingElement} {a b dp : RingElement} {p : Point ℚ}

theorem Earlier.ne (h : Earlier n a b) : a.timestamp ≠ b.timestamp := by
  obtain ⟨p, q, hp, hq, hlt⟩ := h
  intro heq
  unfold Numbers.point at hp hq
  rw [heq] at hp
  split at hp
  · next ht =>
    split at hq
    · next ht' =>
      cases hp
      cases hq
      rw [ht] at ht'
      cases ht'
      exact absurd hlt (lt_irrefl _)
    · exact nomatch hq
  · exact nomatch hp

theorem timestamp_ne_nil (h : (n.point dp).isSome) : dp.timestamp ≠ [] := by
  intro hnil
  unfold Numbers.point at h
  rw [hnil, n.parseTime_nil] at h
  split at h
  · next heq => exact nomatch heq
  · exact nomatch h

theorem Earlier.asymm (h : Earlier n a b) : ¬ Earlier n b a := by
  obtain ⟨p, q, hp, hq, hlt⟩ := h
  rintro ⟨q', p', hq', hp', hlt'⟩
  rw [hp] at hp'
  rw [hq] at hq'
  cases hp'
  cases hq'
  exact hlt.not_gt hlt'

theorem transform_point (h : n.point dp = some p) (tsBase : ℤ) :
    transform n dp tsBase =
      (element { t := p.t - (tsBase : ℚ) / 1000000000, v := p.v }, true) := by
  unfold Numbers.point at h
  split at h
  · next v t hv ht =>
    cases h
    have hseconds : secondsSince t tsBase = .fin ((t : ℚ) / 1000000000 - tsBase / 1000000000) := by
      rw [secondsSince, Int.cast_sub, sub_div]
    simp [transform, hv, ht, element, hseconds]
  · cases h

theorem points_eq (hw : Ordered n w) {i : ℕ} (hi : i < w.length) :
    n.point w[i] = some (points n w i) := by
  obtain ⟨p, hp⟩ := Option.isSome_iff_exists.mp (hw.numeric _ (List.getElem_mem hi))
  simp [points, hi, hp]

theorem points_increasing (hw : Ordered n w) {i j : ℕ} (hij : i < j) (hj : j < w.length) :
    (points n w i).t < (points n w j).t := by
  have hearlier := List.pairwise_iff_getElem.mp hw.increasing i j (hij.trans hj) hj hij
  obtain ⟨p, q, hp, hq, hlt⟩ := hearlier
  rw [points_eq hw] at hp hq
  cases hp
  cases hq
  exact hlt

theorem points_append (w rest : List RingElement) {i : ℕ} (hi : i < w.length) :
    points n (w ++ rest) i = points n w i := by
  rw [points, points, List.getElem?_append_left hi]

theorem Ordered.append (hw : Ordered n w) (he : (n.point a).isSome)
    (hall : ∀ dp ∈ w, Earlier n dp a) : Ordered n (w ++ [a]) where
  numeric := by
    intro dp hdp
    rcases List.mem_append.mp hdp with hdp | hdp
    · exact hw.numeric dp hdp
    · rw [List.mem_singleton.mp hdp]
      exact he
  increasing := by
    rw [List.pairwise_append]
    refine ⟨hw.increasing, List.pairwise_singleton _ _, ?_⟩
    intro dp hdp e he
    rw [List.mem_singleton.mp he]
    exact hall dp hdp

end Samples

/-! ## The analysis of a buffer -/

section Analysis

variable {n : Numbers} {r : RingBuffer} {w : List RingElement} {ε : ℚ} {size : ℕ}

theorem transformAll_eq {tsBase : ℤ} (e : ℕ → CLBufElement) (indices : List ℕ)
    (h : ∀ k ∈ indices, transformDataPoint n r k tsBase = some (e k, true)) :
    transformAll n r tsBase indices = some (some (indices.map e)) := by
  induction indices with
  | nil => rfl
  | cons k indices ih =>
    have hrest := ih fun l hl => h l (List.mem_cons_of_mem k hl)
    simp [transformAll, h k List.mem_cons_self, hrest]

/-- The populated elements, from the latest to the first. -/
def latest (n : Numbers) (w : List RingElement) (k : ℕ) : Point ℚ := points n w (w.length - 1 - k)

theorem readRing_latest (hholds : Holds r w) {k : ℕ} (hk : k < w.length) (hsize : k < r.bufSize) :
    readRing r k = some w[w.length - 1 - k] := by
  rw [hholds.contents k hsize hk, List.getElem?_eq_getElem]

/-- The elements of the buffer are the latest points, with times from some instant on. -/
theorem transformDataPoints_eq (hholds : Holds r w) (hw : Ordered n w) (hpos : 0 < size)
    (hsize : size ≤ r.bufSize) (hlength : size ≤ w.length) :
    ∃ c clBuffer, transformDataPoints n r size = some (some clBuffer) ∧
      Buffers clBuffer (fun k => ⟨(latest n w k).t - c, (latest n w k).v⟩) (size - 1) := by
  have hread : ∀ k, k < size → readRing r k = some w[w.length - 1 - k] :=
    fun k hk => readRing_latest hholds (by omega) (by omega)
  have hfirst : readRing r ((size : ℤ) - 1) = some w[w.length - 1 - (size - 1)] := by
    have hcast : (size : ℤ) - 1 = (size - 1 : ℕ) := by omega
    rw [hcast, hread (size - 1) (by omega)]
  unfold transformDataPoints
  rw [hfirst]
  simp only [Option.bind_eq_bind, Option.bind_some]
  generalize (n.parseTime _).getD zeroTime = tsBase
  have hall : ∀ k ∈ List.range size, transformDataPoint n r k tsBase =
      some (element ⟨(latest n w k).t - tsBase / 1000000000, (latest n w k).v⟩, true) := by
    intro k hk
    rw [List.mem_range] at hk
    rw [transformDataPoint, hread k hk, Option.map_some,
      transform_point (points_eq hw (by omega)) tsBase]
    rfl
  refine ⟨(tsBase : ℚ) / 1000000000, _, transformAll_eq _ _ hall, ?_⟩
  intro k hk
  rw [List.getElem?_map, List.getElem?_range (by omega)]
  rfl

/-- A sample of the populated elements is further from the chord between the first and the
latest of them than the maximum. -/
def Bends (n : Numbers) (ε : ℚ) (r : RingBuffer) : Prop :=
  ∃ (k : ℕ) (first sample head : RingElement) (p s q : Point ℚ),
    (k : ℤ) < getNumOfPopulatedRingElements r ∧
    readRing r (getNumOfPopulatedRingElements r - 1) = some first ∧ n.point first = some p ∧
    readRing r k = some sample ∧ n.point sample = some s ∧
    readRing r 0 = some head ∧ n.point head = some q ∧ ε < |s.v - chord q p s.t|

/-- What the analysis of the populated elements gives. -/
structure Analysis (n : Numbers) (ε : ℚ) (r : RingBuffer) (w : List RingElement) (size : ℕ)
    (data : List RingElement) (lastSelected firstSelected : ℕ) (saved : List ℕ) : Prop where
  inside : ∀ k ∈ saved, 0 < k ∧ k < size - 1
  covers : Covers (latest n w) ε (withEnds saved 0 (size - 1))
  none_saved : saved = [] → lastSelected = 0 ∧ firstSelected = 0
  last_mem : saved ≠ [] → lastSelected ∈ saved
  first_mem : saved ≠ [] → firstSelected ∈ saved
  last_le : ∀ k ∈ saved, lastSelected ≤ k
  data : saved ≠ [] → ∀ dp, dp ∈ data ↔ ∃ k ∈ saved, readRing r k = some dp
  some_of_bends : (size : ℤ) = getNumOfPopulatedRingElements r → Bends n ε r → saved ≠ []

theorem clAnalyze1dim_spec (hε : 0 ≤ ε) (hholds : Holds r w) (hw : Ordered n w) (hpos : 0 < size)
    (hsize : size ≤ r.bufSize) (hlength : size ≤ w.length) :
    ∃ data lastSelected firstSelected saved,
      clAnalyze1dim n r size (.fin ε) = some (data, lastSelected, firstSelected) ∧
      Analysis n ε r w size data lastSelected firstSelected saved := by
  obtain ⟨c, clBuffer, htransform, hbuffers⟩ := transformDataPoints_eq hholds hw hpos hsize hlength
  have hmono : ∀ i j, i < j → j ≤ size - 1 →
      (latest n w j).t - c < (latest n w i).t - c := by
    intro i j hij hj
    have hlt : (latest n w j).t < (latest n w i).t :=
      points_increasing hw (by omega) (by omega)
    exact sub_lt_sub_right hlt c
  obtain ⟨saved, hsaved, hreduced⟩ := clReduction1Dim_spec hε size 0 (size - 1) hbuffers
    (fun i j hij hj => (hmono i j hij hj).ne') (Nat.zero_le _) (by omega)
  have hsorted : ∀ k, k ∈ saved.insertionSort (· ≥ ·) ↔ k ∈ saved := fun k =>
    List.mem_insertionSort (· ≥ ·)
  unfold clAnalyze1dim
  rw [htransform]
  simp only [Option.bind_eq_bind, Option.bind_some, Option.getD_some, hsaved]
  have hcovers : Covers (latest n w) ε (withEnds saved 0 (size - 1)) := hreduced.covers.shift
  have hbends : (size : ℤ) = getNumOfPopulatedRingElements r → Bends n ε r → saved ≠ [] := by
    rintro hnum ⟨k, first, sample, head, p, s, q, hk, hfirst, hp, hsample, hs, hhead, hq, hdev⟩
    apply hreduced.some_of_deviates
    have hcast : getNumOfPopulatedRingElements r - 1 = (size - 1 : ℕ) := by omega
    rw [hcast, readRing_latest hholds (by omega) (by omega)] at hfirst
    rw [readRing_latest hholds (by omega) (by omega)] at hsample
    rw [← Nat.cast_zero, readRing_latest hholds (by omega) (by omega)] at hhead
    cases hfirst
    cases hsample
    cases hhead
    rw [points_eq hw] at hp hs hq
    cases hp
    cases hs
    cases hq
    refine ⟨k, Nat.zero_le k, by omega, ?_⟩
    rw [deviation, chord_shift]
    exact hdev
  cases hsort : saved.insertionSort (· ≥ ·) with
  | nil =>
    have hnil : saved = [] := by
      apply List.eq_nil_iff_forall_not_mem.mpr
      intro k hk
      rw [← hsorted, hsort] at hk
      exact List.not_mem_nil hk
    have hread := readRing_latest hholds (k := 0) (by omega) (by omega)
    rw [Nat.cast_zero] at hread
    refine ⟨[w[w.length - 1 - 0]], 0, 0, saved, by simp [hread], ?_⟩
    subst hnil
    exact ⟨hreduced.inside, hcovers, fun _ => ⟨rfl, rfl⟩, fun h => absurd rfl h,
      fun h => absurd rfl h, by simp, fun h => absurd rfl h, hbends⟩
  | cons firstSelected rest =>
    have hmem : ∀ k, k ∈ firstSelected :: rest ↔ k ∈ saved := by
      intro k
      rw [← hsort, hsorted]
    have hdescending : (firstSelected :: rest).Pairwise (· ≥ ·) := by
      rw [← hsort]
      exact List.pairwise_insertionSort (· ≥ ·) saved
    have hne : saved ≠ [] := List.ne_nil_of_mem ((hmem firstSelected).mp List.mem_cons_self)
    have hreads : ∀ k ∈ firstSelected :: rest, (readRing r k).isSome := by
      intro k hk
      have hin := hreduced.inside k ((hmem k).mp hk)
      rw [readRing_latest hholds (by omega) (by omega)]
      rfl
    obtain ⟨data, hdata⟩ := Option.isSome_iff_exists.mp (Traversals.isSome_mapM_iff.mpr hreads)
    have hdps : ∀ dp, dp ∈ data ↔ ∃ k ∈ firstSelected :: rest, readRing r k = some dp := fun dp =>
      Traversals.mem_of_mapM hdata
    refine ⟨data, (firstSelected :: rest).getLast (List.cons_ne_nil _ _), firstSelected, saved,
      by simp [hdata], ?_⟩
    have hlast := (hmem _).mp (List.getLast_mem (List.cons_ne_nil firstSelected rest))
    refine ⟨hreduced.inside, hcovers, fun h => absurd h hne, fun _ => hlast,
      fun _ => (hmem firstSelected).mp List.mem_cons_self, ?_, ?_, hbends⟩
    · intro k hk
      rw [← hmem, ← List.dropLast_append_getLast (List.cons_ne_nil firstSelected rest),
        List.mem_append, List.mem_singleton] at hk
      rcases hk with hk | rfl
      · rw [← List.dropLast_append_getLast (List.cons_ne_nil firstSelected rest),
          List.pairwise_append] at hdescending
        exact hdescending.2.2 k hk _ (List.mem_singleton_self _)
      · exact le_refl _
    · intro _ dp
      simp only [hdps, hmem]

end Analysis

/-! ## A pass -/

/-- Post-processing has no datapoint in the middle that it could return. -/
def Quiet (p : PostProc) : Prop := p.pos0.type ≠ -1 ∧ (p.pos1.type = -1 ∨ p.pos1.dp = none)

theorem postProcess1dim_quiet (n : Numbers) {r : RingBuffer} {firstSelected lastSelected : ℕ}
    {p : PostProc} (h : Quiet p) (hfirst : (readRing r firstSelected).isSome)
    (hlast : (readRing r lastSelected).isSome) (maxError : Float64) (now : ℕ → ℤ) :
    ∃ p', postProcess1dim n r firstSelected lastSelected p maxError now = some (none, p') ∧
      (firstSelected ≠ 0 → Quiet p') := by
  obtain ⟨h0, h1⟩ := h
  obtain ⟨first, hfirst⟩ := Option.isSome_iff_exists.mp hfirst
  obtain ⟨last, hlast⟩ := Option.isSome_iff_exists.mp hlast
  have hnat : ∀ k : ℕ, (k : ℤ) ≠ -1 := fun k => by omega
  simp only [postProcess1dim, if_neg h0, writePostProcElement1dim_eq, hfirst, hlast,
    Option.map_some, Option.bind_eq_bind, Option.bind_some]
  by_cases hempty : p.pos1.type = -1
  · rw [if_pos hempty]
    by_cases hzero : firstSelected = 0
    · exact ⟨_, if_pos hzero, fun hne => absurd hzero hne⟩
    · exact ⟨_, if_neg hzero, fun _ => ⟨hnat lastSelected, .inl hempty⟩⟩
  · have hmiddle : p.pos1.dp = none := h1.resolve_left hempty
    simp only [if_neg hempty, hmiddle, ite_self]
    by_cases hzero : firstSelected = 0
    · exact ⟨_, if_pos hzero, fun hne => absurd hzero hne⟩
    · exact ⟨_, if_neg hzero, fun _ => ⟨hnat lastSelected, .inl rfl⟩⟩

/-- The state of a session whose datapoints so far, at the numbers in D, cover the samples up to
number a, from which on they are populated elements of the buffer. -/
structure Logged (c : ClSession) (ε : ℚ) (s : ClState) (w : List RingElement) (D : Set ℕ)
    (a : ℕ) : Prop where
  holds : Holds s.aRingBuffer w
  size : s.aRingBuffer.bufSize = c.bufSize + 1
  ordered : Ordered c.numbers w
  populated : getNumOfPopulatedRingElements s.aRingBuffer + a = w.length
  room : getNumOfPopulatedRingElements s.aRingBuffer < c.bufSize
  pos : w ≠ [] → 0 < getNumOfPopulatedRingElements s.aRingBuffer
  quiet : Quiet s.postProc
  covers : Covers (points c.numbers w) ε D
  le : ∀ i ∈ D, i ≤ a
  mem : a ∈ D

/-- The samples go on in time, where the latest one may be read again. -/
def Follows (n : Numbers) (w : List RingElement) (e : RingElement) : Prop :=
  (n.point e).isSome ∧ ∀ dp ∈ w, dp = e ∨ Earlier n dp e

/-- The datapoints of the packs are the samples at the numbers in E. -/
def Delivers (w : List RingElement) (E : Set ℕ) (packs : List CLPack) : Prop :=
  (∀ i ∈ E, i < w.length) ∧
    ∀ dp, dp ∈ packs.flatMap (fun p => p.data.dps) ↔ ∃ i ∈ E, w[i]? = some dp

section Passes

variable {c : ClSession} {ε : ℚ} {s : ClState} {w : List RingElement} {D : Set ℕ} {a : ℕ}
  {x : Pass} {final : Reading}

/-- The samples after a capture. -/
def captured (w : List RingElement) (e : RingElement) : List RingElement :=
  if e ∈ w then w else w ++ [e]

theorem prefix_captured (w : List RingElement) (e : RingElement) : w <+: captured w e := by
  unfold captured
  split
  · exact List.prefix_rfl
  · exact List.prefix_append w [e]

theorem mem_captured (w : List RingElement) (e : RingElement) : e ∈ captured w e := by
  unfold captured
  split
  · assumption
  · simp

theorem Ordered.earlier_last {n : Numbers} {front : List RingElement} {last dp : RingElement}
    (h : Ordered n (front ++ [last])) (hdp : dp ∈ front) : Earlier n dp last := by
  have hpairs := List.pairwise_append.mp h.increasing
  exact hpairs.2.2 dp hdp last (List.mem_singleton_self last)

/-- A sample that is read again is the latest one. -/
theorem last_of_mem {n : Numbers} {front : List RingElement} {last e : RingElement}
    (hw : Ordered n (front ++ [last])) (he : Follows n (front ++ [last]) e) :
    e ∈ front ++ [last] ↔ last = e := by
  constructor
  · intro hmem
    rcases he.2 last (by simp) with heq | hearlier
    · exact heq
    · rcases List.mem_append.mp hmem with hfront | hlast
      · exact absurd hearlier (hw.earlier_last hfront).asymm
      · exact (List.mem_singleton.mp hlast).symm
  · rintro rfl
    simp

theorem ordered_captured {n : Numbers} {e : RingElement} (hw : Ordered n w)
    (he : Follows n w e) : Ordered n (captured w e) := by
  unfold captured
  split
  · exact hw
  · next hnew =>
    apply hw.append he.1
    intro dp hdp
    rcases he.2 dp hdp with rfl | hearlier
    · exact absurd hdp hnew
    · exact hearlier

/-- The sample that was read is the latest one. -/
theorem captured_last {n : Numbers} {e : RingElement} (hw : Ordered n w)
    (he : Follows n w e) : (captured w e)[(captured w e).length - 1]? = some e := by
  unfold captured
  split
  · next hmem =>
    rcases List.eq_nil_or_concat' w with rfl | ⟨front, last, rfl⟩
    · exact nomatch hmem
    · rw [last_of_mem hw he] at hmem
      simp [hmem]
  · simp

/-- The ring buffer after a capture. -/
theorem capture_spec (h : Logged c ε s w D a) (he : Follows c.numbers w x.reading.sample) :
    ∃ r, capture s.aRingBuffer x.reading = some r ∧ Holds r (captured w x.reading.sample) ∧
      r.bufSize = c.bufSize + 1 ∧ 0 < getNumOfPopulatedRingElements r ∧
      getNumOfPopulatedRingElements r ≤ c.bufSize ∧
      getNumOfPopulatedRingElements r + a = (captured w x.reading.sample).length := by
  have hsize := h.size
  have hroom := h.room
  have hpopulated := h.populated
  have hnonneg := populated_nonneg h.holds
  have hwrite : ∀ latest, readRing s.aRingBuffer 0 = some latest →
      latest.timestamp ≠ x.reading.ts → x.reading.sample ∉ w →
      ∃ r, capture s.aRingBuffer x.reading = some r ∧
        Holds r (captured w x.reading.sample) ∧ r.bufSize = c.bufSize + 1 ∧
        0 < getNumOfPopulatedRingElements r ∧ getNumOfPopulatedRingElements r ≤ c.bufSize ∧
        getNumOfPopulatedRingElements r + a = (captured w x.reading.sample).length := by
    intro latest hlatest hts hnew
    have hnum := written_populated (e := x.reading.sample) h.holds (by omega)
    refine ⟨written s.aRingBuffer x.reading.sample, ?_, ?_, hsize, by omega, by omega, ?_⟩
    · rw [capture, hlatest]
      simp only [Option.bind_eq_bind, Option.bind_some, if_pos hts]
      exact writeRing_eq h.holds x.reading.sample
    · rw [captured, if_neg hnew]
      exact written_holds h.holds
    · rw [captured, if_neg hnew, List.length_append, List.length_singleton]
      omega
  rcases List.eq_nil_or_concat' w with rfl | ⟨front, last, rfl⟩
  · have hread := h.holds.blank rfl
    exact hwrite _ hread (timestamp_ne_nil he.1).symm (by simp)
  · have hlast : readRing s.aRingBuffer 0 = some last := by
      have hcontents := h.holds.contents 0 (by omega) (by simp)
      simpa using hcontents
    by_cases hsame : last = x.reading.sample
    · have hmem := (last_of_mem h.ordered he).mpr hsame
      refine ⟨s.aRingBuffer, ?_, ?_, hsize, h.pos (by simp), by omega, ?_⟩
      · have hts : ¬ last.timestamp ≠ x.reading.ts := by
          rw [hsame]
          exact fun hne => hne rfl
        rw [capture, hlast]
        simp only [Option.bind_eq_bind, Option.bind_some, if_neg hts]
      · rw [captured, if_pos hmem]
        exact h.holds
      · rw [captured, if_pos hmem]
        exact hpopulated
    · have hnew := mt (last_of_mem h.ordered he).mp hsame
      have hearlier := (he.2 last (by simp)).resolve_left hsame
      exact hwrite last hlast hearlier.ne hnew

/-- The numbers of the elements with the given indices in the buffer. -/
def numbersOf (w : List RingElement) (indices : Set ℕ) : Set ℕ :=
  {k | k ≤ w.length - 1 ∧ w.length - 1 - k ∈ indices}

/-- The datapoints up to the populated elements, and those saved of them. -/
theorem join_analysis {n : Numbers} {size lastSelected firstSelected : ℕ} {r : RingBuffer}
    {data : List RingElement} {saved : List ℕ} (hw : Ordered n w)
    (hD : Covers (points n w) ε D) (hle : ∀ i ∈ D, i ≤ a) (hmem : a ∈ D) (hpos : 0 < size)
    (hsize : size + a = w.length)
    (h : Analysis n ε r w size data lastSelected firstSelected saved) :
    Covers (points n w) ε (D ∪ numbersOf w (withEnds saved 0 (size - 1))) := by
  have hends : ∀ i ∈ withEnds saved 0 (size - 1), i ≤ size - 1 := by
    rintro i (rfl | rfl | hi)
    · exact Nat.zero_le _
    · exact le_refl _
    · exact (h.inside i hi).2.le
  have hreverse : Covers (points n w) ε (numbersOf w (withEnds saved 0 (size - 1))) := by
    apply h.covers.reverse
    · intro i hi
      have hi' := hends i hi
      omega
    · intro i j hij hj
      exact (points_increasing hw (by omega) (by omega)).ne'
    · intro k hk
      rw [latest]
      congr 1
      omega
  apply hD.join hreverse hmem ⟨by omega, .inr (.inl (by omega))⟩ hle
  rintro k ⟨hk, hindex⟩
  have hindex' := hends _ hindex
  omega

/-- The analysis in a pass that reads a following sample. -/
theorem analyze_spec (h : Logged c ε s w D a) (herror : c.maxError = .fin ε) (hε : 0 ≤ ε)
    (he : Follows c.numbers w x.reading.sample) :
    ∃ (r : RingBuffer) (size : ℕ) (data : List RingElement) (lastSelected firstSelected : ℕ)
      (saved : List ℕ) (p' : PostProc),
      capture s.aRingBuffer x.reading = some r ∧ Holds r (captured w x.reading.sample) ∧
      r.bufSize = c.bufSize + 1 ∧ 0 < size ∧ getNumOfPopulatedRingElements r = size ∧
      (size : ℤ) ≤ c.bufSize ∧ size + a = (captured w x.reading.sample).length ∧
      Analysis c.numbers ε r (captured w x.reading.sample) size data lastSelected firstSelected
        saved ∧
      (saved ≠ [] → Quiet p') ∧
      analyze c { s with aRingBuffer := r } x.now =
        some ({ aRingBuffer := setRingTail r lastSelected, postProc := p' },
          if 0 < lastSelected then [c.pack (.saved data)] else []) := by
  obtain ⟨r, hcapture, hholds, hsize, hpos, hroom, hpopulated⟩ := capture_spec h he
  obtain ⟨size, hnum⟩ := Int.eq_ofNat_of_zero_le hpos.le
  have hw := ordered_captured h.ordered he
  obtain ⟨data, lastSelected, firstSelected, saved, hanalyze, hanalysis⟩ :=
    clAnalyze1dim_spec hε hholds hw (show 0 < size by omega) (by omega) (by omega)
  have hread : ∀ k : ℕ, k < size → (readRing r k).isSome := by
    intro k hk
    rw [readRing_latest hholds (by omega) (by omega)]
    rfl
  have hbounds : lastSelected < size ∧ firstSelected < size := by
    by_cases hnil : saved = []
    · have hzero := hanalysis.none_saved hnil
      omega
    · have hlast := hanalysis.inside _ (hanalysis.last_mem hnil)
      have hfirst := hanalysis.inside _ (hanalysis.first_mem hnil)
      omega
  obtain ⟨p', hpost, hquiet⟩ := postProcess1dim_quiet c.numbers h.quiet
    (hread _ hbounds.2) (hread _ hbounds.1) c.maxError x.now
  refine ⟨r, size, data, lastSelected, firstSelected, saved, p', hcapture, hholds, hsize,
    by omega, hnum, by omega, by omega, hanalysis, ?_, ?_⟩
  · intro hne
    apply hquiet
    have hfirst := hanalysis.inside _ (hanalysis.first_mem hne)
    omega
  · have hnat : (getNumOfPopulatedRingElements r).toNat = size := by omega
    rw [herror] at hpost
    unfold analyze
    simp only [hnat, herror, hanalyze, Option.bind_eq_bind, Option.bind_some, hpost]
    rfl

theorem Logged.covers_captured (h : Logged c ε s w D a) (e : RingElement) :
    Covers (points c.numbers (captured w e)) ε D := by
  have hpopulated := h.populated
  by_cases hnil : w = []
  · apply covers_subsingleton
    have hzero : ∀ i ∈ D, i = 0 := by
      intro i hi
      have hle := h.le i hi
      have hnonneg := populated_nonneg h.holds
      rw [hnil, List.length_nil] at hpopulated
      omega
    intro i hi j hj
    rw [hzero i hi, hzero j hj]
  · have hpos := h.pos hnil
    apply h.covers.congr _ h.le
    intro k hk
    obtain ⟨rest, hrest⟩ := prefix_captured w e
    rw [← hrest, points_append w rest (by omega)]

/-- A pass that leaves the buffer below its size. -/
theorem Logged.stored (h : Logged c ε s w D a) (he : Follows c.numbers w x.reading.sample)
    {r : RingBuffer} (hcapture : capture s.aRingBuffer x.reading = some r)
    (hbelow : getNumOfPopulatedRingElements r ≠ c.bufSize) :
    Logged c ε { s with aRingBuffer := r } (captured w x.reading.sample) D a := by
  obtain ⟨r', hcapture', hholds, hsize, hpos, hroom, hpopulated⟩ := capture_spec h he
  rw [hcapture] at hcapture'
  cases hcapture'
  exact ⟨hholds, hsize, ordered_captured h.ordered he, hpopulated, lt_of_le_of_ne hroom hbelow,
    fun _ => hpos, h.quiet, h.covers_captured _, h.le, h.mem⟩

/-- The datapoints of a pack are those at the numbers of the saved indices. -/
theorem delivers_saved {n : Numbers} {r : RingBuffer} {size lastSelected firstSelected : ℕ}
    {data : List RingElement} {saved : List ℕ} (hholds : Holds r w) (hsize : size ≤ r.bufSize)
    (hlength : size ≤ w.length)
    (h : Analysis n ε r w size data lastSelected firstSelected saved) :
    Delivers w (numbersOf w {k | k ∈ saved})
      (if 0 < lastSelected then [c.pack (.saved data)] else []) := by
  by_cases hnil : saved = []
  · have hzero := h.none_saved hnil
    subst hnil
    rw [if_neg (by omega)]
    refine ⟨?_, fun dp => by simp [numbersOf]⟩
    intro i hi
    exact absurd hi.2 List.not_mem_nil
  · have hlast := h.inside _ (h.last_mem hnil)
    rw [if_pos hlast.1]
    refine ⟨fun i hi => ?_, fun dp => ?_⟩
    · have hindex := h.inside _ hi.2
      have hle := hi.1
      omega
    · have hdps : [c.pack (.saved data)].flatMap (fun p => p.data.dps) = data := by
        simp [ClSession.pack, CLData.dps]
      rw [hdps, h.data hnil]
      constructor
      · rintro ⟨k, hk, hread⟩
        have hindex := h.inside k hk
        rw [readRing_latest hholds (by omega) (by omega)] at hread
        refine ⟨w.length - 1 - k, ⟨by omega, ?_⟩, ?_⟩
        · rwa [Nat.sub_sub_self (by omega)]
        · rw [List.getElem?_eq_getElem (by omega), hread]
      · rintro ⟨i, ⟨hle, hi⟩, hget⟩
        have hindex := h.inside _ hi
        refine ⟨w.length - 1 - i, hi, ?_⟩
        rw [hholds.contents _ (by omega) (by omega), Nat.sub_sub_self hle, hget]

/-- A pass that analyzes a full buffer and goes on. -/
theorem Logged.saved (h : Logged c ε s w D a) (herror : c.maxError = .fin ε) (hε : 0 ≤ ε)
    (he : Follows c.numbers w x.reading.sample)
    (hbends : ∀ r, capture s.aRingBuffer x.reading = some r → Bends c.numbers ε r)
    {r : RingBuffer} (hcapture : capture s.aRingBuffer x.reading = some r) :
    ∃ s' packs E a', analyze c { s with aRingBuffer := r } x.now = some (s', packs) ∧
      Logged c ε s' (captured w x.reading.sample) (D ∪ E) a' ∧
      Delivers (captured w x.reading.sample) E packs := by
  obtain ⟨r', size, data, lastSelected, firstSelected, saved, p', hcapture', hholds, hsize, hpos,
    hnum, hroom, hpopulated, hanalysis, hquiet, hanalyze⟩ := analyze_spec h herror hε he
  rw [hcapture] at hcapture'
  cases hcapture'
  have hne := hanalysis.some_of_bends hnum.symm (hbends r hcapture)
  have hlast := hanalysis.inside _ (hanalysis.last_mem hne)
  have hordered := ordered_captured h.ordered he
  have hjoined := (join_analysis hordered (h.covers_captured _) h.le h.mem hpos hpopulated
    hanalysis).cut ((captured w x.reading.sample).length - 1 - lastSelected)
  refine ⟨_, _, numbersOf (captured w x.reading.sample) {k | k ∈ saved},
    (captured w x.reading.sample).length - 1 - lastSelected, hanalyze, ?_,
    delivers_saved hholds (by omega) (by omega) hanalysis⟩
  generalize captured w x.reading.sample = w' at *
  have hle : ∀ i ∈ D ∪ numbersOf w' {k | k ∈ saved}, i ≤ w'.length - 1 - lastSelected := by
    rintro i (hi | ⟨hi, hindex⟩)
    · have hia := h.le i hi
      omega
    · have hindex' := hanalysis.last_le _ hindex
      omega
  refine ⟨setRingTail_holds hholds lastSelected, hsize, hordered, ?_, ?_, ?_, hquiet hne, ?_, hle,
    .inr ⟨by omega, ?_⟩⟩
  · rw [setRingTail_populated]
    omega
  · rw [setRingTail_populated]
    omega
  · rw [setRingTail_populated]
    omega
  · have hset : D ∪ numbersOf w' {k | k ∈ saved} =
        (D ∪ numbersOf w' (withEnds saved 0 (size - 1))) ∩
          Set.Iic (w'.length - 1 - lastSelected) := by
      ext k
      constructor
      · intro hk
        refine ⟨?_, hle k hk⟩
        rcases hk with hk | ⟨hk, hindex⟩
        · exact .inl hk
        · exact .inr ⟨hk, .inr (.inr hindex)⟩
      · rintro ⟨hk | ⟨hk, hindex⟩, hbound⟩
        · exact .inl hk
        · rw [Set.mem_Iic] at hbound
          rcases hindex with hzero | hend | hindex
          · omega
          · obtain rfl : k = a := by omega
            exact .inl h.mem
          · exact .inr ⟨hk, hindex⟩
    rw [hset]
    exact hjoined
  · rw [Nat.sub_sub_self (by omega)]
    exact hanalysis.last_mem hne

/-- The last pass, where the session ends with the sample it reads. -/
theorem Logged.closed (h : Logged c ε s w D a) (herror : c.maxError = .fin ε) (hε : 0 ≤ ε)
    (he : Follows c.numbers w x.reading.sample) (hfinal : final.sample = x.reading.sample)
    {r : RingBuffer} (hcapture : capture s.aRingBuffer x.reading = some r) :
    ∃ s' packs E, analyze c { s with aRingBuffer := r } x.now = some (s', packs) ∧
      Covers (points c.numbers (captured w x.reading.sample)) ε (D ∪ E) ∧
      (∀ i ∈ D, i < (captured w x.reading.sample).length) ∧
      Delivers (captured w x.reading.sample) E (packs ++ [returnSingleDp c final]) := by
  obtain ⟨r', size, data, lastSelected, firstSelected, saved, p', hcapture', hholds, hsize, hpos,
    hnum, hroom, hpopulated, hanalysis, hquiet, hanalyze⟩ := analyze_spec h herror hε he
  rw [hcapture] at hcapture'
  cases hcapture'
  have hordered := ordered_captured h.ordered he
  have hjoined := join_analysis hordered (h.covers_captured _) h.le h.mem hpos hpopulated hanalysis
  have hdelivers := delivers_saved (c := c) hholds (by omega) (by omega) hanalysis
  have hlatest : (captured w x.reading.sample)[(captured w x.reading.sample).length - 1]? =
      some final.sample := by
    rw [hfinal]
    exact captured_last h.ordered he
  refine ⟨_, _, numbersOf (captured w x.reading.sample) {k | k ∈ saved} ∪
    {(captured w x.reading.sample).length - 1}, hanalyze, ?_, ?_, ?_, ?_⟩
  · have hset : D ∪ (numbersOf (captured w x.reading.sample) {k | k ∈ saved} ∪
        {(captured w x.reading.sample).length - 1}) =
        D ∪ numbersOf (captured w x.reading.sample) (withEnds saved 0 (size - 1)) := by
      ext k
      constructor
      · rintro (hk | ⟨hk, hindex⟩ | rfl)
        · exact .inl hk
        · exact .inr ⟨hk, .inr (.inr hindex)⟩
        · exact .inr ⟨le_refl _, .inl (Nat.sub_self _)⟩
      · rintro (hk | ⟨hk, hzero | hend | hindex⟩)
        · exact .inl hk
        · obtain rfl : k = (captured w x.reading.sample).length - 1 := by omega
          exact .inr (.inr rfl)
        · obtain rfl : k = a := by omega
          exact .inl h.mem
        · exact .inr (.inl ⟨hk, hindex⟩)
    rw [hset]
    exact hjoined
  · intro i hi
    have hle := h.le i hi
    omega
  · rintro i (hi | rfl)
    · exact hdelivers.1 i hi
    · omega
  · intro dp
    have hsingle : [returnSingleDp c final].flatMap (fun p => p.data.dps) = [final.sample] := rfl
    rw [List.flatMap_append, List.mem_append, hdelivers.2, hsingle, List.mem_singleton]
    constructor
    · rintro (⟨i, hi, hget⟩ | rfl)
      · exact ⟨i, .inl hi, hget⟩
      · exact ⟨_, .inr rfl, hlatest⟩
    · rintro ⟨i, hi | rfl, hget⟩
      · exact .inl ⟨i, hi, hget⟩
      · rw [hlatest] at hget
        cases hget
        exact .inr rfl

end Passes

end VissServer.ServiceMgr.CurveLog
