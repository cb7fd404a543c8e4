import Mathlib.Data.List.TakeWhile
import VissServer.Go.JsonStrings

/-!
Number literals: what the reader of a number takes off a text is read in the same
way in front of any other text that does not continue a number.
-/
namespace VissServer.Go

/-- The text does not go on with one of the given bytes. -/
def NotHead (p : UInt8 → Bool) (s : GoString) : Prop := ∀ c ∈ s.head?, p c = false

/-- The bytes that continue a number. -/
def continuesNumber (c : UInt8) : Bool := isDigit c || c = 46 || c = 101 || c = 69

/-- A literal that starts as a number and is read whole in front of other texts. -/
structure Numeral (lit : GoString) : Prop where
  head : ∃ c t, lit = c :: t ∧ (c = 45 ∨ isDigit c = true)
  read : ∀ rest, NotHead continuesNumber rest → afterNumber (lit ++ rest) = some rest

/-- The reader takes a part off the text, and the same part off other texts. -/
structure Reads (reader : GoString → Option GoString) (stop : UInt8 → Bool)
    (s part rest : GoString) : Prop where
  split : s = part ++ rest
  again : ∀ rest', NotHead stop rest' → reader (part ++ rest') = some rest'

theorem NotHead.mono {p q : UInt8 → Bool} {s : GoString} (h : NotHead q s)
    (hpq : ∀ c, p c = true → q c = true) : NotHead p s := by
  intro c hc
  have hq := h c hc
  by_contra hp
  rw [hpq c (by simpa using hp)] at hq
  exact absurd hq (by decide)

theorem notHead_nil {p : UInt8 → Bool} : NotHead p [] := by
  intro c hc
  cases hc

/-- A nonempty part decides what the text does not go on with. -/
theorem notHead_cons {p : UInt8 → Bool} {c : UInt8} (h : p c = false) (s : GoString) :
    NotHead p (c :: s) := by
  intro d hd
  rw [← Option.some.inj hd]
  exact h

theorem takeWhile_append_of_notHead {p : UInt8 → Bool} {part rest : GoString}
    (hpart : ∀ c ∈ part, p c = true) (hrest : NotHead p rest) :
    (part ++ rest).takeWhile p = part ∧ (part ++ rest).dropWhile p = rest := by
  have hempty : rest.takeWhile p = [] ∧ rest.dropWhile p = rest := by
    cases rest with
    | nil => simp
    | cons c rest => simp [hrest c rfl]
  constructor
  · rw [List.takeWhile_append_of_pos hpart, hempty.1, List.append_nil]
  · rw [List.dropWhile_append_of_pos hpart, hempty.2]

theorem readDigits_reads {s rest : GoString} (h : readDigits s = some rest) :
    ∃ part, part ≠ [] ∧ (∀ c ∈ part, isDigit c = true) ∧ Reads readDigits isDigit s part rest := by
  unfold readDigits at h
  split at h
  · simp at h
  · next hne =>
    have hpart : ∀ c ∈ s.takeWhile isDigit, isDigit c = true := fun c hc =>
      List.mem_takeWhile_imp hc
    refine ⟨s.takeWhile isDigit, by simpa using hne, hpart, ?_, fun rest' hrest' => ?_⟩
    · rw [← Option.some.inj h, List.takeWhile_append_dropWhile]
    · obtain ⟨htake, hdrop⟩ := takeWhile_append_of_notHead hpart hrest'
      rw [readDigits, htake, hdrop, if_neg hne]

theorem readInteger_reads {s rest : GoString} (h : readInteger s = some rest) :
    ∃ c t, isDigit c = true ∧ Reads readInteger isDigit s (c :: t) rest := by
  unfold readInteger at h
  split at h
  · next r hr =>
    rw [← Option.some.inj h]
    exact ⟨48, [], by decide, expect_some hr, fun rest' _ => by simp [readInteger]⟩
  · next hnone =>
    obtain ⟨part, hne, hdigits, hsplit, hagain⟩ := readDigits_reads h
    obtain ⟨c, t, rfl⟩ := List.exists_cons_of_ne_nil hne
    have hc : c ≠ 48 := by
      rintro rfl
      rw [hsplit, List.cons_append, expect_self] at hnone
      simp at hnone
    refine ⟨c, t, hdigits c (List.mem_cons_self ..), hsplit, fun rest' hrest' => ?_⟩
    rw [readInteger, List.cons_append, expect_of_ne hc, ← List.cons_append]
    exact hagain rest' hrest'

theorem readFraction_reads {s rest : GoString} (h : readFraction s = some rest) :
    ∃ part, (part = [] ∨ part.head? = some 46) ∧
      Reads readFraction (fun c => isDigit c || c = 46) s part rest := by
  unfold readFraction at h
  split at h
  · next r hr =>
    obtain ⟨part, -, -, hsplit, hagain⟩ := readDigits_reads h
    refine ⟨46 :: part, .inr rfl, ?_, fun rest' hrest' => ?_⟩
    · rw [expect_some hr, hsplit, List.cons_append]
    · simp only [readFraction, List.cons_append, expect_self]
      exact hagain rest' (hrest'.mono (by simp +contextual))
  · rw [← Option.some.inj h]
    refine ⟨[], .inl rfl, rfl, fun rest' hrest' => ?_⟩
    cases rest' with
    | nil => rfl
    | cons c rest' =>
      have hc : c ≠ 46 := by
        rintro rfl
        exact absurd (hrest' 46 rfl) (by decide)
      simp [readFraction, expect_of_ne hc]

theorem readExponent_reads {s rest : GoString} (h : readExponent s = some rest) :
    ∃ part, (part = [] ∨ part.head? = some 101 ∨ part.head? = some 69) ∧
      Reads readExponent (fun c => isDigit c || c = 101 || c = 69) s part rest := by
  have hempty : ∀ rest', NotHead (fun c => isDigit c || c = 101 || c = 69) rest' →
      readExponent ([] ++ rest') = some rest' := by
    intro rest' hrest'
    cases rest' with
    | nil => rfl
    | cons c rest' =>
      have hc : ¬ (c = 101 ∨ c = 69) := by
        rintro (rfl | rfl)
        · exact absurd (hrest' 101 rfl) (by decide)
        · exact absurd (hrest' 69 rfl) (by decide)
      simp [readExponent, hc]
  cases s with
  | nil =>
    rw [readExponent, Option.some.injEq] at h
    exact ⟨[], .inl rfl, h, hempty⟩
  | cons c s =>
    simp only [readExponent] at h
    split at h
    · next hc =>
      have hhead : ∀ t : GoString, (c :: t).head? = some 101 ∨ (c :: t).head? = some 69 := by
        intro t
        rcases hc with rfl | rfl
        · exact .inl rfl
        · exact .inr rfl
      cases s with
      | nil => simp at h
      | cons d s =>
        simp only at h
        split at h
        · next hd =>
          obtain ⟨part, -, -, hsplit, hagain⟩ := readDigits_reads h
          refine ⟨c :: d :: part, .inr (hhead _), by rw [hsplit]; rfl, fun rest' hrest' => ?_⟩
          simp only [readExponent, List.cons_append, if_pos hc, if_pos hd]
          exact hagain rest' (hrest'.mono (by simp +contextual))
        · next hd =>
          obtain ⟨part, hne, -, hsplit, hagain⟩ := readDigits_reads h
          obtain ⟨d', t, rfl⟩ := List.exists_cons_of_ne_nil hne
          obtain ⟨rfl, hs⟩ := List.cons.inj hsplit
          refine ⟨c :: d :: t, .inr (hhead _), by rw [hs]; rfl, fun rest' hrest' => ?_⟩
          simp only [readExponent, List.cons_append, if_pos hc, if_neg hd]
          exact hagain rest' (hrest'.mono (by simp +contextual))
    · rw [← Option.some.inj h]
      exact ⟨[], .inl rfl, rfl, hempty⟩

/-- The reader of a number takes a literal off the text. -/
theorem afterNumber_numeral {s rest : GoString} (h : afterNumber s = some rest) :
    ∃ lit, s = lit ++ rest ∧ Numeral lit := by
  simp only [afterNumber, Option.bind_eq_bind, Option.bind_eq_some_iff] at h
  obtain ⟨afterInt, hint, afterFrac, hfrac, hexp⟩ := h
  obtain ⟨c, t, hc, hintSplit, hintAgain⟩ := readInteger_reads hint
  obtain ⟨frac, hfracHead, hfracSplit, hfracAgain⟩ := readFraction_reads hfrac
  obtain ⟨exp, hexpHead, hexpSplit, hexpAgain⟩ := readExponent_reads hexp
  have hc45 : c ≠ 45 := by
    rintro rfl
    exact absurd hc (by decide)
  -- the parts are read again in front of any text that does not continue the number
  have hagain : ∀ rest', NotHead continuesNumber rest' →
      (readInteger (c :: t ++ (frac ++ (exp ++ rest')))).bind
        (fun s => (readFraction s).bind readExponent) = some rest' := by
    intro rest' hrest'
    have hstopExp : NotHead (fun c => isDigit c || c = 101 || c = 69) rest' := by
      refine hrest'.mono fun c hc => ?_
      simp only [continuesNumber, Bool.or_eq_true] at hc ⊢
      rcases hc with (hc | hc) | hc <;> simp [hc]
    have hstopFrac : NotHead (fun c => isDigit c || c = 46) (exp ++ rest') := by
      cases exp with
      | nil => exact hrest'.mono (by simp +contextual [continuesNumber])
      | cons d exp =>
        refine notHead_cons ?_ _
        have hd : d = 101 ∨ d = 69 := by simpa using hexpHead
        rcases hd with rfl | rfl <;> decide
    have hstopInt : NotHead isDigit (frac ++ (exp ++ rest')) := by
      cases frac with
      | nil => exact hstopFrac.mono (by simp +contextual)
      | cons d frac =>
        refine notHead_cons ?_ _
        have hd : d = 46 := by simpa using hfracHead
        rw [hd]
        decide
    rw [hintAgain _ hstopInt, Option.bind_some, hfracAgain _ hstopFrac, Option.bind_some,
      hexpAgain _ hstopExp]
  have hread : ∀ sign : GoString, sign = [] ∨ sign = [45] → ∀ rest',
      NotHead continuesNumber rest' →
      afterNumber (sign ++ (c :: t ++ (frac ++ exp)) ++ rest') = some rest' := by
    rintro sign hsign rest' hrest'
    have hunsigned : (expect 45 (sign ++ (c :: t ++ (frac ++ exp)) ++ rest')).getD
        (sign ++ (c :: t ++ (frac ++ exp)) ++ rest') = c :: t ++ (frac ++ (exp ++ rest')) := by
      rcases hsign with rfl | rfl
      · simp [expect_of_ne hc45]
      · simp
    rw [afterNumber, hunsigned]
    exact hagain rest' hrest'
  have hsplit : (expect 45 s).getD s = c :: t ++ (frac ++ exp) ++ rest := by
    rw [hintSplit, hfracSplit, hexpSplit]
    simp
  cases hsign : expect 45 s with
  | none =>
    rw [hsign, Option.getD_none] at hsplit
    exact ⟨[] ++ (c :: t ++ (frac ++ exp)), hsplit, ⟨c, _, rfl, .inr hc⟩, hread [] (.inl rfl)⟩
  | some s' =>
    rw [hsign, Option.getD_some] at hsplit
    exact ⟨[45] ++ (c :: t ++ (frac ++ exp)), by rw [expect_some hsign, hsplit]; rfl,
      ⟨45, _, rfl, .inl rfl⟩, hread [45] (.inr rfl)⟩

end VissServer.Go
