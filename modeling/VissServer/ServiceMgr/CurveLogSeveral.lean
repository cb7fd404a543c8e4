import VissServer.Go.JsonMarks
import VissServer.ServiceMgr.CurveLogClock
import VissServer.ServiceMgr.CurveLogSpace

/-!
The session of a curve log of several signals. Every buffer that is full, and the last one, is
analysed: where no sample is saved the latest one is delivered, so that the datapoints cover all
samples up to the one that is delivered last, and this one is in the buffer.
-/
namespace VissServer.ServiceMgr.CurveLog

open Go Polylines Neighbours SpaceCurves

/-! ## What is captured -/

/-- The text of a datapoint. -/
def Datapoint (dp : GoString) (e : RingElement) : Prop :=
  ∃ members rest, parseFirst dp = some (.obj members, rest) ∧
    lastMember members (str "value") = some (.str e.value) ∧
    lastMember members (str "ts") = some (.str e.timestamp)

/-- The samples that are captured last, blank elements before the first ones. -/
def latestRow (rows : List Row) (d : ℕ) : Row :=
  rows.getLast?.getD (List.replicate d { value := [], timestamp := [] })

/-- Each signal has the time of the one before. -/
def sameTime : Row → Bool
  | e1 :: e2 :: rest => decide (e1.timestamp = e2.timestamp) && sameTime (e2 :: rest)
  | _ => true

/-- No sample has the time of the latest one of its signal. -/
def newTimes (row latest : Row) : Bool :=
  (row.zip latest).all fun p => p.2.timestamp ≠ p.1.timestamp

/-- Samples that are new and of one time are captured. -/
def captureRow (rows : List Row) (row : Row) : List Row :=
  if newTimes row (latestRow rows row.length) && sameTime row then rows ++ [row] else rows

/-- The samples that a session has captured at its end, or by the present. -/
def capturedRows : List Row → List (SignalPass × Row) → List Row
  | rows, [] => rows
  | rows, x :: xs =>
      if x.1.close then captureRow rows x.2 else capturedRows (captureRow rows x.2) xs

theorem prefix_captureRow (rows : List Row) (row : Row) : rows <+: captureRow rows row := by
  unfold captureRow
  split
  · exact List.prefix_append rows [row]
  · exact List.prefix_rfl

theorem prefix_capturedRows (rows : List Row) (xs : List (SignalPass × Row)) :
    rows <+: capturedRows rows xs := by
  induction xs generalizing rows with
  | nil => exact List.prefix_rfl
  | cons x xs ih =>
    rw [capturedRows]
    split
    · exact prefix_captureRow rows x.2
    · exact (prefix_captureRow rows x.2).trans (ih _)

theorem Ordered.earlier {n : Numbers} {rows rows' : List Row} {j : ℕ}
    (h : Ordered n (column rows' j)) (hmore : rows <+: rows') : Ordered n (column rows j) := by
  have hcolumns : column rows j <+: column rows' j := hmore.map _
  exact ⟨fun dp hdp => h.numeric dp (hcolumns.subset hdp), h.increasing.sublist hcolumns.sublist⟩

section Capture

variable {g : Signal} {gs : List Signal} {dp : GoString} {e : RingElement} {row latest : Row}
  {rows : List Row}

theorem get_foldl_set (members : List (GoString × Json)) (m : GoMap Json) (k : GoString) :
    (members.foldl (fun m p => m.set p.1 p.2) m).get k = (lastMember members k).or (m.get k) := by
  induction members generalizing m with
  | nil => rfl
  | cons p members ih =>
    rw [List.foldl_cons, ih, GoMap.get_set, lastMember_cons]
    cases lastMember members k with
    | none => split <;> rfl
    | some v => rfl

/-- What was read before is written over. -/
theorem valueAt_mapRequestInto {k s : GoString} {members : List (GoString × Json)}
    {rest : GoString} (hparse : parseFirst dp = some (.obj members, rest))
    (hmember : lastMember members k = some (.str s)) (m : GoMap Json) :
    valueAt (mapRequestInto m dp) k = .str s := by
  have hlast : lastMember (canonMembers members) k = some (.str s) := by
    have hget := get_canonMembers members k
    rw [GoMap.get_ofMembers, hmember] at hget
    exact hget
  rw [valueAt, mapRequestInto, hparse, get_foldl_set, hlast]
  rfl

/-- The signal has read this sample. -/
def HasRead (g : Signal) (e : RingElement) : Prop :=
  g.value = some e.value ∧ g.ts = some e.timestamp

theorem Datapoint.read (h : Datapoint dp e) (g : Signal) : HasRead (g.read dp) e := by
  obtain ⟨members, rest, hparse, hvalue, hts⟩ := h
  constructor
  · rw [Signal.value, Signal.read, valueAt_mapRequestInto hparse hvalue]
    rfl
  · rw [Signal.ts, Signal.read, valueAt_mapRequestInto hparse hts]
    rfl

theorem allNew_eq (h : List.Forall₂ HasRead gs row) (latest : Row) :
    allNew (gs.zip latest) = some (newTimes row latest) := by
  unfold newTimes
  induction h generalizing latest with
  | nil => rfl
  | @cons g e gs row hread _ ih =>
    cases latest with
    | nil => rfl
    | cons last latest =>
      rw [List.zip_cons_cons, List.zip_cons_cons, allNew, hread.2, List.all_cons]
      simp only [Option.bind_eq_bind, Option.bind_some, ih latest]
      by_cases hnew : last.timestamp = e.timestamp <;> simp [hnew]

theorem allEqual_eq (h : List.Forall₂ HasRead gs row) : allEqual gs = some (sameTime row) := by
  induction h with
  | nil => rfl
  | @cons g1 e1 gs row hread1 hrest ih =>
    cases hrest with
    | nil => rfl
    | @cons g2 e2 gs row hread2 hrest =>
      rw [allEqual, sameTime, hread1.2, hread2.2]
      simp only [Option.bind_eq_bind, Option.bind_some, ih]
      by_cases hsame : e1.timestamp = e2.timestamp <;> simp [hsame]

theorem isNewSample_eq (h : List.Forall₂ HasRead gs row)
    (hlatest : gs.mapM (fun g => readRing g.aRingBuffer 0) = some latest) :
    isNewSample gs = some (newTimes row latest && sameTime row) := by
  rw [isNewSample, hlatest]
  simp only [Option.bind_eq_bind, Option.bind_some, allNew_eq h latest]
  cases newTimes row latest with
  | false => rfl
  | true => rw [if_pos rfl, allEqual_eq h, Bool.true_and]

end Capture

/-! ## A session -/

/-- The number of the sample that was delivered last. -/
def lastDelivered (E : List ℕ) : ℕ := E.getLastD 0

/-- The numbers of the samples that are delivered, with the first one. -/
def fromFirst (E : List ℕ) : Set ℕ := {k | k = 0 ∨ k ∈ E}

/-- A buffer holds the samples from the one delivered last on. -/
structure Buffered (bufSize : ℤ) (rows : List Row) (E : List ℕ) (j : ℕ) (r : RingBuffer) :
    Prop where
  holds : Holds r (column rows j)
  size : r.bufSize = bufSize + 1
  count : getNumOfPopulatedRingElements r + lastDelivered E = rows.length

/-- The session has delivered these samples so far. -/
structure Covering (n : Numbers) (ε : ℚ) (d : ℕ) (rows : List Row) (E : List ℕ) : Prop where
  sorted : E.Pairwise (· ≤ ·)
  lt : ∀ i ∈ E, i < rows.length
  related : Related (SpaceFits (spacePoints n d rows) ε) (fromFirst E)

section Coverings

variable {n : Numbers} {ε : ℚ} {d : ℕ} {rows rows' : List Row} {E : List ℕ}

theorem le_lastDelivered (h : E.Pairwise (· ≤ ·)) : ∀ i ∈ fromFirst E, i ≤ lastDelivered E := by
  unfold lastDelivered
  rcases List.eq_nil_or_concat' E with rfl | ⟨front, last, rfl⟩
  · rintro i (rfl | hi)
    · exact le_refl _
    · simp at hi
  · have hlast : (front ++ [last]).getLastD 0 = last := by simp
    rw [hlast]
    rintro i (rfl | hi)
    · exact Nat.zero_le _
    · rcases List.mem_append.mp hi with hi | hi
      · exact (List.pairwise_append.mp h).2.2 i hi last (List.mem_singleton_self last)
      · exact (List.mem_singleton.mp hi).le

theorem lastDelivered_mem (E : List ℕ) : lastDelivered E ∈ fromFirst E := by
  unfold lastDelivered
  rcases List.eq_nil_or_concat' E with rfl | ⟨front, last, rfl⟩
  · exact .inl rfl
  · right
    simp

theorem Covering.lastDelivered_lt (h : Covering n ε d rows E) (hne : rows ≠ []) :
    lastDelivered E < rows.length := by
  rcases lastDelivered_mem E with hzero | hmem
  · rw [hzero]
    exact List.length_pos_of_ne_nil hne
  · exact h.lt _ hmem

/-- More samples leave those between the delivered ones as they are. -/
theorem Covering.longer (h : Covering n ε d rows E) (hmore : rows <+: rows') :
    Covering n ε d rows' E where
  sorted := h.sorted
  lt := fun i hi => (h.lt i hi).trans_le hmore.length_le
  related := by
    obtain ⟨rest, rfl⟩ := hmore
    refine h.related.mono fun i _ j hj hij hfits => hfits.congr hij.le ?_
    intro signal k hk
    have hjlt : j < rows.length := by
      rcases hj with rfl | hj
      · omega
      · exact h.lt j hj
    have hcolumns : column (rows ++ rest) signal = column rows signal ++ column rest signal :=
      List.map_append
    unfold spacePoints
    rw [hcolumns, points_append]
    rw [length_column]
    omega

end Coverings

/-- The state of a session, with what it has captured and delivered. -/
structure Session (n : Numbers) (ε : ℚ) (d : ℕ) (bufSize : ℤ) (gs : List Signal)
    (rows : List Row) (E : List ℕ) : Prop where
  signals : gs.length = d
  widths : ∀ row ∈ rows, row.length = d
  buffered : ∀ j g, gs[j]? = some g → Buffered bufSize rows E j g.aRingBuffer
  covering : Covering n ε d rows E

section Sessions

variable {n : Numbers} {ε : ℚ} {d : ℕ} {bufSize : ℤ} {gs : List Signal} {rows : List Row}
  {row : Row} {E : List ℕ}

theorem Session.read {dps : List GoString} (h : Session n ε d bufSize gs rows E)
    (hread : List.Forall₂ Datapoint dps row) (hwidth : row.length = d) :
    Session n ε d bufSize (gs.zipWith Signal.read dps) rows E ∧
      List.Forall₂ HasRead (gs.zipWith Signal.read dps) row := by
  have hdps := hread.length_eq
  have hlength : (gs.zipWith Signal.read dps).length = d := by
    rw [List.length_zipWith, h.signals, hdps, hwidth, Nat.min_self]
  refine ⟨⟨hlength, h.widths, ?_, h.covering⟩, List.forall₂_iff_get.mpr ⟨by omega, ?_⟩⟩
  · intro j g hg
    rw [List.getElem?_zipWith] at hg
    cases hgs : gs[j]? with
    | none => simp [hgs] at hg
    | some g' =>
      cases hdp : dps[j]? with
      | none => simp [hgs, hdp] at hg
      | some dp =>
        simp only [hgs, hdp, Option.some.injEq] at hg
        subst hg
        exact h.buffered j g' hgs
  · intro j hj hj'
    have hdatapoint := (List.forall₂_iff_get.mp hread).2 j (by omega) hj'
    simpa using hdatapoint.read _

/-- The latest samples are those that the buffers give. -/
theorem Session.latest (h : Session n ε d bufSize gs rows E) :
    gs.mapM (fun g => readRing g.aRingBuffer 0) = some (latestRow rows d) := by
  have hwidth : (latestRow rows d).length = d := by
    unfold latestRow
    cases hlast : rows.getLast? with
    | none => exact List.length_replicate
    | some last => exact h.widths last (List.mem_of_getLast? hlast)
  refine Traversals.mapM_eq_some_iff.mpr (List.forall₂_iff_get.mpr ⟨?_, ?_⟩)
  · rw [h.signals, hwidth]
  · intro j hj hj'
    have hbuffered := h.buffered j gs[j] (List.getElem?_eq_getElem hj)
    have hhead := hbuffered.holds.head
    rw [List.get_eq_getElem, List.get_eq_getElem]
    rcases List.eq_nil_or_concat' rows with rfl | ⟨front, last, rfl⟩
    · have hblank := hbuffered.holds.blank rfl
      rw [hblank]
      simp [latestRow]
    · have hlast : j < last.length := by
        rw [h.widths last (by simp)]
        omega
      have hread := hbuffered.holds.contents 0 (by omega) (by simp)
      have hcolumn : (column (front ++ [last]) j)[(column (front ++ [last]) j).length - 1 - 0]? =
          some last[j] := by
        rw [length_column, column_append, List.length_append, List.length_singleton,
          List.getElem?_append_right (by rw [length_column]; omega), length_column]
        simp [hlast]
      rw [Nat.cast_zero, hcolumn] at hread
      rw [hread]
      simp [latestRow]

/-- The samples of a pass are stored in all buffers or in none. -/
theorem Session.captured (h : Session n ε d bufSize gs rows E)
    (hread : List.Forall₂ HasRead gs row)
    (hroom : (rows.length : ℤ) < lastDelivered E + bufSize) :
    ∃ gs', captureSignals gs = some gs' ∧
      Session n ε d bufSize gs' (captureRow rows row) E := by
  have hwidth : row.length = d := by rw [← hread.length_eq, h.signals]
  rw [captureSignals, isNewSample_eq hread h.latest, captureRow, hwidth]
  simp only [Option.bind_eq_bind, Option.bind_some]
  by_cases hnew : (newTimes row (latestRow rows d) && sameTime row) = true
  · rw [if_pos hnew, if_pos hnew]
    have hwrite : ∀ j (hj : j < gs.length) (hj' : j < row.length), gs[j].write =
        some { gs[j] with aRingBuffer := written gs[j].aRingBuffer row[j] } := by
      intro j hj hj'
      have hbuffered := h.buffered j gs[j] (List.getElem?_eq_getElem hj)
      have hjread : HasRead gs[j] row[j] := (List.forall₂_iff_get.mp hread).2 j hj hj'
      rw [Signal.write, hjread.1, hjread.2]
      simp only [Option.bind_eq_bind, Option.bind_some, writeRing_eq hbuffered.holds row[j]]
    have hall : ∀ g ∈ gs, g.write.isSome := by
      intro g hg
      obtain ⟨j, hj, rfl⟩ := List.getElem_of_mem hg
      rw [hwrite j hj (by rw [hwidth, ← h.signals]; exact hj)]
      rfl
    obtain ⟨gs', hgs'⟩ := Option.isSome_iff_exists.mp (Traversals.isSome_mapM_iff.mpr hall)
    have hlength := Traversals.length_of_mapM hgs'
    refine ⟨gs', hgs', by rw [hlength, h.signals], ?_, ?_,
      h.covering.longer (List.prefix_append rows [row])⟩
    · rintro row' hrow'
      rcases List.mem_append.mp hrow' with hrow' | hrow'
      · exact h.widths row' hrow'
      · rw [List.mem_singleton.mp hrow', hwidth]
    · intro j g hg
      have hj : j < gs'.length := (List.getElem?_eq_some_iff.mp hg).1
      have hjgs : j < gs.length := by omega
      have hjrow : j < row.length := by rw [hwidth, ← h.signals]; exact hjgs
      have hbuffered := h.buffered j gs[j] (List.getElem?_eq_getElem hjgs)
      have hwritten := (List.forall₂_iff_get.mp (Traversals.mapM_eq_some_iff.mp hgs')).2 j hjgs hj
      have hsize := hbuffered.size
      have hcount := hbuffered.count
      rw [List.get_eq_getElem, hwrite j hjgs hjrow, Option.some.injEq] at hwritten
      rw [List.getElem?_eq_getElem hj, Option.some.injEq] at hg
      rw [List.get_eq_getElem, hg] at hwritten
      subst hwritten
      have helement : row.getD j { value := [], timestamp := [] } = row[j] := by simp [hjrow]
      refine ⟨?_, hsize, ?_⟩
      · rw [column_append, helement]
        exact written_holds hbuffered.holds
      · dsimp only
        rw [written_populated hbuffered.holds (by omega), List.length_append,
          List.length_singleton]
        push_cast
        omega
  · rw [if_neg hnew, if_neg hnew]
    exact ⟨gs, rfl, h⟩

/-- The datapoints of one signal. -/
def deliveredDps (j : ℕ) (packs : List (List CLPack)) : List RingElement :=
  packs.flatMap fun pack => (pack[j]?).elim [] fun p => p.data.dps

/-- The packs hold the samples with these numbers, in their order. -/
def DeliversRows (d : ℕ) (rows : List Row) (E : List ℕ) (packs : List (List CLPack)) : Prop :=
  ∀ j < d, (deliveredDps j packs).map some = E.map fun i => (column rows j)[i]?

/-- The numbers of the samples at indices that count from the latest one. -/
def numbered (rows : List Row) (order : List ℕ) : List ℕ :=
  order.map fun k => rows.length - 1 - k

theorem delivers_numbered {rings : List RingBuffer} {saved order : List ℕ} {pack : List CLPack}
    {updatedTail size : ℕ} (hpack : PackOf rings saved pack updatedTail order)
    (hrings : rings.length = d) (hholds : ∀ j r, rings[j]? = some r →
      Holds r (column rows j) ∧ (size : ℤ) ≤ r.bufSize)
    (hsize : size ≤ rows.length) (horder : ∀ k ∈ order, k < size) :
    DeliversRows d rows (numbered rows order) [pack] := by
  intro j hj
  have hring : rings[j]? = some rings[j] := List.getElem?_eq_getElem (by omega)
  have hj' : j < pack.length := by rw [hpack.1]; omega
  have hp : pack[j]? = some pack[j] := List.getElem?_eq_getElem hj'
  obtain ⟨-, -, hdata, -⟩ := hpack.2 j _ _ hring hp
  obtain ⟨hholds, hbuf⟩ := hholds j _ hring
  rw [deliveredDps, List.flatMap_singleton, hp, Option.elim_some, hdata, numbered, List.map_map]
  refine List.map_congr_left fun k hk => ?_
  have hk' := horder k hk
  rw [hholds.contents k (by omega) (by rw [length_column]; omega), length_column,
    Function.comp_apply]

/-- The samples between those that an analysis selects, from the one delivered last on. -/
theorem Covering.select (h : Covering n ε d rows E) {saved order : List ℕ} {updatedTail size : ℕ}
    (hordered : ∀ j < d, Ordered n (column rows j)) (hselected : Selected n ε d rows size saved)
    (hperm : order.Perm (if saved = [] then [0] else saved)) (hdown : order.Pairwise (· > ·))
    (hlast : order.getLast? = some updatedTail) (hpos : 0 < size)
    (hsize : size + lastDelivered E = rows.length) :
    Covering n ε d rows (E ++ numbered rows order) ∧
      lastDelivered (E ++ numbered rows order) = rows.length - 1 - updatedTail ∧
        updatedTail < size ∧ (updatedTail = 0 ∨ updatedTail + 2 ≤ size) := by
  have hmem : ∀ k, k ∈ order ↔ (saved = [] ∧ k = 0) ∨ k ∈ saved := by
    intro k
    rw [hperm.mem_iff]
    by_cases hnil : saved = [] <;> simp [hnil]
  have hlt : ∀ k ∈ order, k < size ∧ (k = 0 ∨ k + 2 ≤ size) := by
    intro k hk
    rcases (hmem k).mp hk with ⟨-, rfl⟩ | hk
    · exact ⟨hpos, .inl rfl⟩
    · have hin := hselected.inside k hk
      omega
  have hle : ∀ k ∈ order, updatedTail ≤ k := by
    intro k hk
    obtain ⟨front, rfl⟩ := List.getLast?_eq_some_iff.mp hlast
    rcases List.mem_append.mp hk with hk | hk
    · exact ((List.pairwise_append.mp hdown).2.2 k hk updatedTail
        (List.mem_singleton_self updatedTail)).le
    · exact (List.mem_singleton.mp hk).ge
  have htail := List.mem_of_getLast? hlast
  have hmax := le_lastDelivered h.sorted
  have hnumbers : ∀ i ∈ numbered rows order, lastDelivered E ≤ i ∧ i < rows.length ∧
      i ≤ rows.length - 1 - updatedTail := by
    intro i hi
    obtain ⟨k, hk, rfl⟩ := List.mem_map.mp hi
    have hk' := (hlt k hk).1
    have hk'' := hle k hk
    omega
  refine ⟨⟨?_, ?_, ?_⟩, ?_, (hlt updatedTail htail).1, (hlt updatedTail htail).2⟩
  · rw [List.pairwise_append, numbered, List.pairwise_map]
    refine ⟨h.sorted, hdown.imp fun {a b} hab => by omega, ?_⟩
    intro i hi k hk
    exact (hmax i (.inr hi)).trans (hnumbers k hk).1
  · intro i hi
    rcases List.mem_append.mp hi with hi | hi
    · exact h.lt i hi
    · exact (hnumbers i hi).2.1
  · have hback : Related (SpaceFits (spacePoints n d rows) ε)
        {k | k ≤ rows.length - 1 ∧ rows.length - 1 - k ∈ between 0 (size - 1) saved} := by
      have hends : ∀ i ∈ between 0 (size - 1) saved, i ≤ rows.length - 1 := by
        rintro i (rfl | rfl | hi)
        · omega
        · omega
        · have hin := hselected.inside i hi
          omega
      refine hselected.related.reverse hends ?_
      intro i j hij hj hfits
      apply hfits.reverse hj hij
      · intro signal
        exact latest_ne (hordered signal signal.isLt) (le_refl rows.length) hij (by omega)
      · intro signal k hk
        rw [spacePoints, latestSpace, latest, length_column]
    have hjoin := (h.related.join hback (lastDelivered_mem E)
      ⟨by omega, .inr (.inl (by omega))⟩ hmax ?_).cut (rows.length - 1 - updatedTail)
    · have hset : fromFirst (E ++ numbered rows order) = (fromFirst E ∪
          {k | k ≤ rows.length - 1 ∧ rows.length - 1 - k ∈ between 0 (size - 1) saved}) ∩
            Set.Iic (rows.length - 1 - updatedTail) := by
        ext i
        constructor
        · rintro (rfl | hi)
          · exact ⟨.inl (.inl rfl), Nat.zero_le _⟩
          · rcases List.mem_append.mp hi with hi | hi
            · have hi' := hmax i (.inr hi)
              have htail' := (hlt updatedTail htail).1
              exact ⟨.inl (.inr hi), by rw [Set.mem_Iic]; omega⟩
            · have hi' := hnumbers i hi
              obtain ⟨k, hk, rfl⟩ := List.mem_map.mp hi
              refine ⟨.inr ⟨by omega, ?_⟩, hi'.2.2⟩
              have hk' := (hlt k hk).1
              rw [Nat.sub_sub_self (by omega)]
              rcases (hmem k).mp hk with ⟨-, rfl⟩ | hk
              · exact .inl rfl
              · exact .inr (.inr hk)
        · rintro ⟨(rfl | hi) | ⟨hi, hindex⟩, hbound⟩
          · exact .inl rfl
          · exact .inr (List.mem_append_left _ hi)
          · rw [Set.mem_Iic] at hbound
            have hnumbered : ∀ k ∈ order, rows.length - 1 - i = k →
                i ∈ fromFirst (E ++ numbered rows order) := by
              intro k hk heq
              refine .inr (List.mem_append_right _ (List.mem_map.mpr ⟨k, hk, ?_⟩))
              omega
            rcases hindex with hzero | hend | hindex
            · have htail' := (hlt updatedTail htail).1
              have hzero' : updatedTail = 0 := by omega
              exact hnumbered updatedTail htail (by omega)
            · rcases lastDelivered_mem E with hfirst | hdelivered
              · exact .inl (by omega)
              · refine .inr (List.mem_append_left _ ?_)
                rwa [show i = lastDelivered E by omega]
            · exact hnumbered _ ((hmem _).mpr (.inr hindex)) rfl
      rw [hset]
      exact hjoin
    · rintro i ⟨hi, hzero | hend | hindex⟩
      · omega
      · omega
      · have hin := hselected.inside _ hindex
        omega
  · unfold lastDelivered numbered
    obtain ⟨front, rfl⟩ := List.getLast?_eq_some_iff.mp hlast
    simp

variable {analysis : AnalysisDim Unit (List CLPack)}

/-- The analysis of buffers that hold samples, of which the latest one or those that are saved
are delivered. -/
theorem Session.analyzed (h : Session n ε d bufSize gs rows E)
    (hanalysis : SelectingAnalysis n ε d analysis) (hd : 0 < d) (hbuf : 2 ≤ bufSize)
    (hne : rows ≠ []) (hle : (rows.length : ℤ) ≤ lastDelivered E + bufSize)
    (hordered : ∀ j < d, Ordered n (column rows j)) (now : ℕ → ℤ) {close : Bool}
    (hwhen : (rows.length : ℤ) = lastDelivered E + bufSize ∨ close = true) :
    ∃ gs' packs E', analyzeSignals analysis bufSize close now () gs = some ((gs', ()), packs) ∧
      Session n ε d bufSize gs' rows (E ++ E') ∧ DeliversRows d rows E' packs ∧
      (rows.length : ℤ) < lastDelivered (E ++ E') + bufSize := by
  have hlt := h.covering.lastDelivered_lt hne
  have hcount : ∀ (j : ℕ) (g : Signal), gs[j]? = some g →
      getNumOfPopulatedRingElements g.aRingBuffer = (rows.length - lastDelivered E : ℕ) := by
    intro j g hg
    have hj := (h.buffered j g hg).count
    omega
  have hrings : (gs.map fun g => g.aRingBuffer).length = d := by rw [List.length_map, h.signals]
  have hholds : ∀ (j : ℕ) (r : RingBuffer), (gs.map fun g => g.aRingBuffer)[j]? = some r →
      Holds r (column rows j) ∧ ((rows.length - lastDelivered E : ℕ) : ℤ) ≤ r.bufSize := by
    intro j r hr
    rw [List.getElem?_map, Option.map_eq_some_iff] at hr
    obtain ⟨g, hg, rfl⟩ := hr
    have hsize := (h.buffered j g hg).size
    exact ⟨(h.buffered j g hg).holds, by omega⟩
  obtain ⟨saved, pack, updatedTail, order, hresult, hselected, hpack⟩ := hanalysis.spec _ rows
    (rows.length - lastDelivered E) now hrings hholds hordered (by omega) (by omega)
  have hgs : 0 < gs.length := by rw [h.signals]; exact hd
  have hpos : 0 < pack.length := by rw [hpack.1, hrings]; exact hd
  have hp : pack[0]? = some pack[0] := List.getElem?_eq_getElem hpos
  obtain ⟨hperm, hdown, -, hlast⟩ := hpack.2 0 _ _
    (List.getElem?_eq_getElem (by rw [List.length_map]; exact hgs)) hp
  obtain ⟨hcovering, hdelivered, htail, htail'⟩ := h.covering.select hordered hselected hperm hdown
    hlast (by omega) (by omega)
  have horder : ∀ k ∈ order, k < rows.length - lastDelivered E := by
    intro k hk
    have hmem := hperm.mem_iff.mp hk
    split at hmem
    · rw [List.mem_singleton] at hmem
      omega
    · have hin := hselected.inside k hmem
      omega
  refine ⟨setTails updatedTail gs, [pack], numbered rows order, ?_, ⟨?_, h.widths, ?_, hcovering⟩,
    delivers_numbered hpack hrings hholds (by omega) horder, by omega⟩
  · have hfirst := hcount 0 gs[0] (List.getElem?_eq_getElem hgs)
    have hthen : ((rows.length - lastDelivered E : ℕ) : ℤ) = bufSize ∨ close = true :=
      hwhen.imp_left fun hfull => by omega
    unfold analyzeSignals
    simp only [List.head?_eq_getElem?, List.getElem?_eq_getElem hgs, Option.bind_eq_bind,
      Option.bind_some, hfirst, Int.toNat_natCast]
    rw [if_pos hthen, hresult]
    rfl
  · rw [setTails, List.length_map, h.signals]
  · intro j g hg
    rw [setTails, List.getElem?_map, Option.map_eq_some_iff] at hg
    obtain ⟨g', hg', rfl⟩ := hg
    have hbuffered := h.buffered j g' hg'
    refine ⟨setRingTail_holds hbuffered.holds updatedTail, hbuffered.size, ?_⟩
    dsimp only
    rw [setRingTail_populated, hdelivered]
    omega

/-- One pass. -/
theorem Session.pass (h : Session n ε d bufSize gs rows E)
    (hanalysis : SelectingAnalysis n ε d analysis) (hd : 0 < d) (hbuf : 2 ≤ bufSize)
    (hroom : (rows.length : ℤ) < lastDelivered E + bufSize) {x : SignalPass}
    (hread : List.Forall₂ Datapoint x.dps row) (hwidth : row.length = d)
    (hordered : ∀ j < d, Ordered n (column (captureRow rows row) j))
    (hne : x.close = true → captureRow rows row ≠ []) :
    ∃ gs' packs E', passDim analysis bufSize (gs, ()) x = some ((gs', ()), packs) ∧
      Session n ε d bufSize gs' (captureRow rows row) (E ++ E') ∧
      DeliversRows d (captureRow rows row) E' packs ∧
      ((captureRow rows row).length : ℤ) < lastDelivered (E ++ E') + bufSize := by
  obtain ⟨hreadings, hhasRead⟩ := h.read hread hwidth
  obtain ⟨gs₁, hcapture, hcaptured⟩ := hreadings.captured hhasRead hroom
  have hlength : (captureRow rows row).length ≤ rows.length + 1 := by
    unfold captureRow
    split <;> simp
  have hpass : passDim analysis bufSize (gs, ()) x =
      analyzeSignals analysis bufSize x.close x.now () gs₁ := by
    rw [passDim, hcapture]
    rfl
  rw [hpass]
  by_cases hwhen : ((captureRow rows row).length : ℤ) = lastDelivered E + bufSize ∨ x.close = true
  · have hne' : captureRow rows row ≠ [] := by
      rcases hwhen with hfull | hclose
      · intro hnil
        rw [hnil, List.length_nil] at hfull
        omega
      · exact hne hclose
    exact hcaptured.analyzed hanalysis hd hbuf hne' (by omega) hordered x.now hwhen
  · push Not at hwhen
    have hgs : 0 < gs₁.length := by rw [hcaptured.signals]; exact hd
    have hcount := (hcaptured.buffered 0 gs₁[0] (List.getElem?_eq_getElem hgs)).count
    refine ⟨gs₁, [], [], ?_, by rwa [List.append_nil], fun _ _ => rfl, ?_⟩
    · unfold analyzeSignals
      simp only [List.head?_eq_getElem?, List.getElem?_eq_getElem hgs, Option.bind_eq_bind,
        Option.bind_some]
      rw [if_neg]
      rintro (hfull | hclose)
      · omega
      · exact hwhen.2 hclose
    · rw [List.append_nil]
      omega

theorem DeliversRows.append {rows' : List Row} {E' : List ℕ} {packs packs' : List (List CLPack)}
    (h : DeliversRows d rows E packs) (h' : DeliversRows d rows' E' packs')
    (hmore : rows <+: rows') (hlt : ∀ i ∈ E, i < rows.length) :
    DeliversRows d rows' (E ++ E') (packs ++ packs') := by
  intro j hj
  have hhere := h j hj
  have hrest := h' j hj
  unfold deliveredDps at hhere hrest ⊢
  rw [List.flatMap_append, List.map_append, List.map_append, hhere, hrest]
  congr 1
  refine List.map_congr_left fun i hi => ?_
  obtain ⟨more, rfl⟩ := hmore
  have hcolumns : column (rows ++ more) j = column rows j ++ column more j := List.map_append
  rw [hcolumns, List.getElem?_append_left (by rw [length_column]; exact hlt i hi)]

/-- What a session delivers up to its end, or by the present. -/
structure SpaceCovered (n : Numbers) (ε : ℚ) (d : ℕ) (bufSize : ℤ) (rows : List Row)
    (E : List ℕ) (packs : List (List CLPack)) : Prop where
  delivers : DeliversRows d rows E packs
  covering : Covering n ε d rows E
  behind : (rows.length : ℤ) < lastDelivered E + bufSize

/-- It is an induction over the passes. -/
theorem Session.passes (hanalysis : SelectingAnalysis n ε d analysis) (hd : 0 < d)
    (hbuf : 2 ≤ bufSize) (xs : List (SignalPass × Row)) {packs : List (List CLPack)}
    (h : Session n ε d bufSize gs rows E) (hdelivers : DeliversRows d rows E packs)
    (hroom : (rows.length : ℤ) < lastDelivered E + bufSize)
    (hread : ∀ x ∈ xs, List.Forall₂ Datapoint x.1.dps x.2 ∧ x.2.length = d)
    (hordered : ∀ j < d, Ordered n (column (capturedRows rows xs) j))
    (hne : capturedRows rows xs ≠ []) :
    ∃ more E', passesDim analysis bufSize (gs, ()) (xs.map Prod.fst) = some more ∧
      SpaceCovered n ε d bufSize (capturedRows rows xs) (E ++ E') (packs ++ more) := by
  induction xs generalizing gs rows E packs with
  | nil =>
    refine ⟨[], [], rfl, ?_⟩
    rw [List.append_nil, List.append_nil]
    exact ⟨hdelivers, h.covering, hroom⟩
  | cons x xs ih =>
    obtain ⟨⟨hdps, hwidth⟩, hread⟩ := List.forall_mem_cons.mp hread
    have hmore : captureRow rows x.2 <+: capturedRows rows (x :: xs) := by
      rw [capturedRows]
      split
      · exact List.prefix_rfl
      · exact prefix_capturedRows _ _
    obtain ⟨gs', packs', E', hpass, hsession, hdelivers', hroom'⟩ := h.pass hanalysis hd hbuf hroom
      hdps hwidth (fun j hj => (hordered j hj).earlier hmore) (by
        intro hclose
        rwa [capturedRows, if_pos hclose] at hne)
    have hjoined := hdelivers.append hdelivers' (prefix_captureRow rows x.2) h.covering.lt
    rw [List.map_cons, passesDim, hpass]
    simp only [Option.bind_eq_bind, Option.bind_some]
    by_cases hclose : x.1.close = true
    · rw [capturedRows, if_pos hclose, if_pos hclose]
      exact ⟨packs', E', rfl, hjoined, hsession.covering, hroom'⟩
    · have hrows : capturedRows rows (x :: xs) = capturedRows (captureRow rows x.2) xs := by
        rw [capturedRows, if_neg hclose]
      rw [hrows] at hordered hne ⊢
      obtain ⟨more, E'', hmore, hcovered⟩ := ih hsession hjoined hroom' hread hordered hne
      refine ⟨packs' ++ more, E' ++ E'', ?_, ?_⟩
      · rw [if_neg hclose, hmore]
        rfl
      · rw [← List.append_assoc, ← List.append_assoc]
        exact hcovered

/-- Buffers before the first pass. -/
theorem session_start (hbuf : 2 ≤ bufSize) :
    ∃ r, createRingBuffer (bufSize + 1) = some r ∧
      Session n ε d bufSize (List.replicate d { aRingBuffer := r }) [] [] := by
  obtain ⟨r, hr, hholds, hsize, hcount⟩ := createRingBuffer_holds (show 0 < bufSize + 1 by omega)
  refine ⟨r, hr, List.length_replicate, by simp, ?_, ⟨.nil, by simp, ?_⟩⟩
  · intro j g hg
    rw [List.getElem?_replicate, Option.ite_none_right_eq_some, Option.some.injEq] at hg
    obtain ⟨-, rfl⟩ := hg
    refine ⟨hholds, hsize, ?_⟩
    rw [hcount]
    rfl
  · apply related_subsingleton
    rintro i (rfl | hi) k (rfl | hk)
    · rfl
    · simp at hk
    · simp at hi
    · simp at hi

end Sessions

/-- The passes of a session with the samples that they read: samples of numbers with increasing
times are captured, at least one of each signal. -/
structure CapturedInOrder (n : Numbers) (d : ℕ) (xs : List (SignalPass × Row)) : Prop where
  read : ∀ x ∈ xs, List.Forall₂ Datapoint x.1.dps x.2 ∧ x.2.length = d
  ordered : ∀ j < d, Ordered n (column (capturedRows [] xs) j)
  some : capturedRows [] xs ≠ []

theorem captureDim_covered {n : Numbers} {ε : ℚ} {d : ℕ} {bufSize : ℤ}
    {analysis : AnalysisDim Unit (List CLPack)} (hanalysis : SelectingAnalysis n ε d analysis)
    (hd : 0 < d) (hbuf : 2 ≤ bufSize) {xs : List (SignalPass × Row)}
    (hxs : CapturedInOrder n d xs) :
    ∃ packs E, captureDim analysis bufSize d () (xs.map Prod.fst) = some packs ∧
      SpaceCovered n ε d bufSize (capturedRows [] xs) E packs := by
  obtain ⟨r, hr, hsession⟩ := session_start (n := n) (ε := ε) (d := d) hbuf
  have hnone : DeliversRows d [] [] [] := fun _ _ => rfl
  obtain ⟨packs, E, hpasses, hcovered⟩ := hsession.passes hanalysis hd hbuf xs hnone
    (show ((0 : ℕ) : ℤ) < (0 : ℕ) + bufSize by omega) hxs.read hxs.ordered hxs.some
  refine ⟨packs, E, ?_, hcovered⟩
  rw [captureDim, hr]
  exact hpasses

/-- A pass where so many signals have this value. -/
def levelPass (d : ℕ) (value ts : GoString) (close : Bool) : SignalPass × Row :=
  ({ dps := List.replicate d (readingAt value ts).dp
     close := close
     now := fun _ => (smallNumbers.parseTime ts).getD 0 + 100000000 },
   List.replicate d { value := value, timestamp := ts })

/-- Signals that leave 0 for one sample. -/
def levelPeak (d : ℕ) : List (SignalPass × Row) :=
  [levelPass d (str "0") (str "2020-01-01T00:00:00Z") false,
   levelPass d (str "5") (str "2020-01-01T00:00:01Z") false,
   levelPass d (str "0") (str "2020-01-01T00:00:02Z") true]

theorem replicate_read {d : ℕ} {dp : GoString} {e : RingElement} (h : Datapoint dp e) :
    List.Forall₂ Datapoint (List.replicate d dp) (List.replicate d e) := by
  induction d with
  | zero => exact .nil
  | succ d ih => exact .cons h ih

theorem levelPeak_inOrder {d : ℕ} (hd : d = 2 ∨ d = 3) :
    CapturedInOrder smallNumbers d (levelPeak d) where
  read := by
    intro x hx
    have h0 : Datapoint (readingAt (str "0") (str "2020-01-01T00:00:00Z")).dp
        ⟨str "0", str "2020-01-01T00:00:00Z"⟩ := ⟨_, _, rfl, rfl, rfl⟩
    have h1 : Datapoint (readingAt (str "5") (str "2020-01-01T00:00:01Z")).dp
        ⟨str "5", str "2020-01-01T00:00:01Z"⟩ := ⟨_, _, rfl, rfl, rfl⟩
    have h2 : Datapoint (readingAt (str "0") (str "2020-01-01T00:00:02Z")).dp
        ⟨str "0", str "2020-01-01T00:00:02Z"⟩ := ⟨_, _, rfl, rfl, rfl⟩
    simp only [levelPeak, List.mem_cons, List.not_mem_nil, or_false] at hx
    rcases hx with rfl | rfl | rfl
    · exact ⟨replicate_read h0, List.length_replicate⟩
    · exact ⟨replicate_read h1, List.length_replicate⟩
    · exact ⟨replicate_read h2, List.length_replicate⟩
  ordered := by
    have hpeak : Ordered smallNumbers
        [⟨str "0", str "2020-01-01T00:00:00Z"⟩, ⟨str "5", str "2020-01-01T00:00:01Z"⟩,
          ⟨str "0", str "2020-01-01T00:00:02Z"⟩] :=
      ⟨by decide +kernel, by decide +kernel⟩
    have htwo : ∀ j < 2, column (capturedRows [] (levelPeak 2)) j =
        column (capturedRows [] (levelPeak 2)) 0 := by decide +kernel
    have hthree : ∀ j < 3, column (capturedRows [] (levelPeak 3)) j =
        column (capturedRows [] (levelPeak 3)) 0 := by decide +kernel
    intro j hj
    rcases hd with rfl | rfl
    · rw [htwo j hj]
      exact hpeak
    · rw [hthree j hj]
      exact hpeak
  some := by
    rcases hd with rfl | rfl
    · decide +kernel
    · decide +kernel

end VissServer.ServiceMgr.CurveLog
