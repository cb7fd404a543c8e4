import Mathlib.Algebra.BigOperators.Group.Finset.Piecewise
import Mathlib.Algebra.Order.BigOperators.Group.Finset
import VissServer.Datamodel.TreeRoundTrip

/-!
How much of a row is held while its lines are read. A line adds at most one value to one field, so
that no line is lost where the whole row comes back.
-/
namespace VissServer.Datamodel

open Go

instance : Fintype Key := ⟨⟨keys, by decide⟩, fun key => by cases key <;> decide⟩

/-- How many values a field has. -/
def valueWeight (key : Key) (value : GoString) : ℕ :=
  if value = [] then 0
  else if key = .allowed ∨ key = .default ∧ contains value (str "[") = true then
    max 1 (extractJsonData value).length
  else 1

/-- Whether a line has a value. -/
def busy (line : GoString) : Bool := line ∉ [[], headerLine .allowed, headerLine .default]

/-- A line of a row: it is no name, and a default value that is not opened as an array is one
value. -/
structure Light (line : GoString) : Prop where
  name : isName line = false
  deflt : keyOf line = some .default → ¬ Draft.Opens .default line →
    (readValue line).getLast? ≠ some 58 ∧ valueWeight .default (readValue line) ≤ 1

namespace Draft

/-- How many values are held of a field; the elements of an open array count one by one. -/
def weight (x : Draft) (key : Key) : ℕ :=
  match x.array with
  | none => valueWeight key (x.data.get key)
  | some (k, values) => if k = key then values.length else valueWeight key (x.data.get key)

def total (x : Draft) : ℕ := ∑ key, x.weight key

/-- An open array is one of those that a row has, and its elements have no comma. -/
def Clean (x : Draft) : Prop :=
  ∀ key values, x.array = some (key, values) →
    (key = .allowed ∨ key = .default) ∧ ∀ value ∈ values, 44 ∉ value

/-- At most so many values are added. -/
def Adds (n : ℕ) (x y : Draft) : Prop :=
  ∃ f : Key → ℕ, ∑ key, f key ≤ n ∧ ∀ key, y.weight key ≤ x.weight key + f key

section Adding

variable {n m : ℕ} {x y z : Draft} {key : Key} {values : List GoString} {line value : GoString}

theorem Adds.refl (n : ℕ) (x : Draft) : Adds n x x :=
  ⟨fun _ => 0, by simp, fun _ => le_rfl⟩

theorem Adds.of_le (h : ∀ key, y.weight key ≤ x.weight key) (n : ℕ) : Adds n x y :=
  ⟨fun _ => 0, by simp, h⟩

theorem Adds.of_one (key : Key) (hone : y.weight key ≤ x.weight key + 1)
    (h : ∀ k, k ≠ key → y.weight k ≤ x.weight k) : Adds 1 x y := by
  have hsum : (∑ k : Key, if k = key then 1 else 0) = 1 := by
    rw [Finset.sum_ite_eq' Finset.univ key fun _ => 1, if_pos (Finset.mem_univ key)]
  refine ⟨fun k => if k = key then 1 else 0, hsum.le, fun k => ?_⟩
  dsimp only
  split
  · next heq =>
    rw [heq]
    exact hone
  · next hne => exact h k hne

theorem Adds.trans (h : Adds n x y) (h' : Adds m y z) : Adds (n + m) x z := by
  obtain ⟨f, hf, hy⟩ := h
  obtain ⟨g, hg, hz⟩ := h'
  refine ⟨fun key => f key + g key, ?_, fun key => ?_⟩
  · rw [Finset.sum_add_distrib]
    exact Nat.add_le_add hf hg
  · have hy' := hy key
    have hz' := hz key
    dsimp only
    omega

theorem Adds.total_le (h : Adds n x y) : y.total ≤ x.total + n := by
  obtain ⟨f, hf, hy⟩ := h
  calc y.total ≤ ∑ key, (x.weight key + f key) := Finset.sum_le_sum fun key _ => hy key
    _ = x.total + ∑ key, f key := Finset.sum_add_distrib
    _ ≤ x.total + n := Nat.add_le_add_left hf _

/-- Where all that can be added is added, nothing is lost. -/
theorem Adds.weight_le (h : Adds n x y) (hexact : x.total + n ≤ y.total) (key : Key) :
    x.weight key ≤ y.weight key := by
  obtain ⟨f, hf, hy⟩ := h
  have hsum : ∑ key, y.weight key = ∑ key, (x.weight key + f key) := by
    refine le_antisymm (Finset.sum_le_sum fun key _ => hy key) ?_
    rw [Finset.sum_add_distrib]
    exact (Nat.add_le_add_left hf _).trans hexact
  have hkey := (Finset.sum_eq_sum_iff_of_le fun key _ => hy key).mp hsum key (Finset.mem_univ key)
  omega

theorem weight_of_none (h : x.array = none) (key : Key) :
    x.weight key = valueWeight key (x.data.get key) := by
  rw [weight, h]

theorem valueWeight_scalar (hallowed : key ≠ .allowed)
    (hdefault : key = .default → contains value (str "[") = false) :
    valueWeight key value = if value = [] then 0 else 1 := by
  have hscalar : ¬ (key = .allowed ∨ key = .default ∧ contains value (str "[") = true) := by
    rintro (h | ⟨h, hbracket⟩)
    · exact hallowed h
    · rw [hdefault h] at hbracket
      cases hbracket
  rw [valueWeight, if_neg hscalar]

theorem valueWeight_le_one (hallowed : key ≠ .allowed) (hdefault : key ≠ .default) :
    valueWeight key value ≤ 1 := by
  rw [valueWeight_scalar hallowed fun h => absurd h hdefault]
  split
  · exact Nat.zero_le 1
  · exact le_rfl

/-- A closed array has no more values than elements were read. -/
theorem valueWeight_arrayText (key : Key) (hvalues : ∀ value ∈ values, 44 ∉ value) :
    valueWeight key (arrayText values) ≤ values.length := by
  unfold valueWeight
  split
  · exact Nat.zero_le _
  · next hne =>
    have hpos : values ≠ [] := by
      rintro rfl
      exact hne rfl
    have hlength := List.length_pos_of_ne_nil hpos
    split
    · exact max_le hlength (extractJsonData_arrayText hvalues).1
    · exact hlength

theorem settle_weight (h : x.Clean) (key : Key) : x.settle.weight key ≤ x.weight key := by
  cases harray : x.array with
  | none => rw [settle_of_none harray]
  | some array =>
    obtain ⟨k, values⟩ := array
    rw [weight_of_none (settle_array x), settle, finish, weight, harray]
    dsimp only
    rw [DomainData.get_set]
    by_cases hkey : key = k
    · rw [if_pos hkey, if_pos hkey.symm]
      exact valueWeight_arrayText key (h k values harray).2
    · rw [if_neg hkey, if_neg (Ne.symm hkey)]

theorem put_adds (hnone : x.array = none) (hvalue : valueWeight key value ≤ 1) :
    Adds 1 x (x.put key value) := by
  have hput : (x.put key value).array = none := hnone
  refine .of_one key ?_ fun k hk => ?_
  · rw [weight_of_none hput, put, DomainData.get_set, if_pos rfl]
    omega
  · rw [weight_of_none hput, weight_of_none hnone, put, DomainData.get_set, if_neg hk]

theorem open_weight (hnone : x.array = none) (k key : Key) :
    weight { x with array := some (k, []) } key ≤ x.weight key := by
  rw [weight_of_none hnone, weight]
  dsimp only
  split
  · exact Nat.zero_le _
  · exact le_rfl

theorem busy_eq_false (h : busy line = false) :
    line = [] ∨ line = headerLine .allowed ∨ line = headerLine .default := by
  simpa only [busy, decide_eq_false_iff_not, not_not, List.mem_cons, List.not_mem_nil,
    or_false] using h

/-- A line outside of arrays adds a value where it has one. -/
theorem readKey_adds (hnone : x.array = none) (hlight : Light line) :
    Adds (busy line).toNat x (x.readKey line) := by
  cases hbusy : busy line with
  | false =>
    rcases busy_eq_false hbusy with rfl | rfl | rfl
    · rw [readKey_nil]
      exact .refl _ x
    · rw [readKey_headerLine (.inl rfl)]
      exact .of_le (open_weight hnone .allowed) _
    · rw [readKey_headerLine (.inr rfl)]
      exact .of_le (open_weight hnone .default) _
  | true =>
    rw [Bool.toNat_true]
    by_cases hdomain : contains line (str "Domain:") = true
    · rw [readKey, if_pos hdomain]
      exact .refl 1 x
    have hdomain' : contains line (str "Domain:") = false := Bool.eq_false_iff.mpr hdomain
    cases hkey : keyOf line with
    | none =>
      rw [readKey, if_neg hdomain, if_neg (by simp [hlight.name]), hkey]
      dsimp only
      split
      · exact put_adds hnone (valueWeight_le_one (by decide) (by decide))
      · exact .refl 1 x
    | some key =>
      by_cases hopens : Opens key line
      · rw [readKey_open hdomain' hlight.name hkey hopens]
        exact .of_le (open_weight hnone key) 1
      · rw [readKey_put hdomain' hlight.name hkey hopens]
        refine put_adds hnone ?_
        by_cases hdefault : key = .default
        · subst hdefault
          exact (hlight.deflt hkey hopens).2
        · exact valueWeight_le_one (fun h => hopens (.inl h)) hdefault

theorem readKey_clean (hnone : x.array = none) (hlight : Light line) : (x.readKey line).Clean := by
  have hclosed : ∀ y : Draft, y.array = none → y.Clean := by
    intro y hy key values hsome
    rw [hy] at hsome
    cases hsome
  by_cases hdomain : contains line (str "Domain:") = true
  · rw [readKey, if_pos hdomain]
    exact hclosed x hnone
  have hdomain' : contains line (str "Domain:") = false := Bool.eq_false_iff.mpr hdomain
  cases hkey : keyOf line with
  | none =>
    rw [readKey, if_neg hdomain, if_neg (by simp [hlight.name]), hkey]
    dsimp only
    split
    · exact hclosed _ hnone
    · exact hclosed _ hnone
  | some key =>
    by_cases hopens : Opens key line
    · rw [readKey_open hdomain' hlight.name hkey hopens]
      rintro k values ⟨⟩
      exact ⟨hopens.imp_right And.left, by simp⟩
    · rw [readKey_put hdomain' hlight.name hkey hopens]
      exact hclosed _ hnone

/-- A line adds a value where it has one, in an array as well. -/
theorem feed_adds (hclean : x.Clean) (hlight : Light line) :
    Adds (busy line).toNat x (x.feed line) ∧ (x.feed line).Clean := by
  cases harray : x.array with
  | none =>
    rw [feed_of_none harray]
    exact ⟨readKey_adds harray hlight, readKey_clean harray hlight⟩
  | some array =>
    obtain ⟨key, values⟩ := array
    obtain ⟨hkey, hvalues⟩ := hclean key values harray
    have hsettle := settle_weight hclean
    have hsettled : x.settle.Clean := fun k vs hsome => by cases hsome
    rw [feed, harray]
    dsimp only
    split
    · next hitem =>
      have hbusy : busy line = true := by
        rw [← Bool.not_eq_false]
        intro hidle
        rcases busy_eq_false hidle with rfl | rfl | rfl
        · exact absurd hitem (by decide)
        · exact absurd hitem (by decide)
        · exact absurd hitem (by decide)
      rw [hbusy, Bool.toNat_true]
      constructor
      · refine .of_one key ?_ fun k hk => ?_
        · rw [weight, weight, harray]
          simp
        · rw [weight, weight, harray]
          simp [Ne.symm hk]
      · rintro k vs ⟨⟩
        refine ⟨hkey, fun v hv => ?_⟩
        rcases List.mem_append.mp hv with hv | hv
        · exact hvalues v hv
        · rw [List.mem_singleton.mp hv]
          exact notMem_readArrayValue line
    · split
      · exact ⟨.refl _ x, hclean⟩
      · split
        · exact ⟨.of_le hsettle _, hsettled⟩
        · have hread := (Adds.of_le hsettle 0).trans (readKey_adds (settle_array x) hlight)
          rw [Nat.zero_add] at hread
          exact ⟨hread, readKey_clean (settle_array x) hlight⟩

/-- Lines add as many values as there are lines with one. -/
theorem foldl_adds (hclean : x.Clean) {lines : List GoString} (hlight : ∀ l ∈ lines, Light l) :
    Adds (lines.countP busy) x (lines.foldl feed x) ∧ (lines.foldl feed x).Clean := by
  induction lines generalizing x with
  | nil => exact ⟨.refl 0 x, hclean⟩
  | cons line lines ih =>
    obtain ⟨hline, hlines⟩ := List.forall_mem_cons.mp hlight
    obtain ⟨hadds, hnext⟩ := feed_adds hclean hline
    obtain ⟨hrest, hlast⟩ := ih hnext hlines
    have hcount : (line :: lines).countP busy =
        (busy line).toNat + lines.countP busy := by
      rw [List.countP_cons, Nat.add_comm]
      cases busy line <;> rfl
    rw [hcount]
    exact ⟨hadds.trans hrest, hlast⟩

end Adding

/-! ## Values that were read -/

/-- No value is read for a key behind another one that is found first, and no default value from a
line that opens an array. -/
structure Sound (x : Draft) : Prop where
  plain : ∀ key, key ≠ .allowed → key ≠ .default → Plain key (x.data.get key)
  deflt : contains (x.data.get .default) (str "[") = false →
    Plain .default (x.data.get .default) ∧ (x.data.get .default).getLast? ≠ some 58

section Soundness

variable {x : Draft} {key : Key} {values : List GoString} {line value : GoString}

theorem plain_nil (key : Key) : Plain key [] :=
  ⟨by decide, fun k _ => by cases k <;> decide⟩

theorem plain_part (hdomain : contains line (str "Domain:") = false) (hkey : keyOf line = some key)
    (hpart : value <:+: line) : Plain key value := by
  have hcontains : ∀ word, contains line word = false → contains value word = false := by
    intro word hword
    rw [Bool.eq_false_iff] at hword ⊢
    intro hmem
    exact hword (contains_iff_part.mpr ((contains_iff_part.mp hmem).trans hpart))
  exact ⟨hcontains _ hdomain, fun k hk => hcontains _ ((keyOf_eq_some_iff.mp hkey).2 k hk)⟩

theorem readValue_part (line : GoString) : readValue line <:+: line :=
  (trimSpace_inside _).trans (List.drop_suffix _ _).isInfix

theorem Sound.put (h : x.Sound) (hplain : Plain key value)
    (hlast : key = .default → value.getLast? ≠ some 58) : (x.put key value).Sound := by
  constructor
  · intro k hallowed hdefault
    rw [Draft.put, DomainData.get_set]
    split
    · next heq => exact heq ▸ hplain
    · exact h.plain k hallowed hdefault
  · rw [Draft.put, DomainData.get_set]
    split
    · next heq => exact fun _ => ⟨heq ▸ hplain, hlast heq.symm⟩
    · exact h.deflt

theorem Sound.settle (h : x.Sound) (hclean : x.Clean) : x.settle.Sound := by
  cases harray : x.array with
  | none => rwa [settle_of_none harray]
  | some array =>
    obtain ⟨key, values⟩ := array
    obtain ⟨hkey, -⟩ := hclean key values harray
    rw [Draft.settle, finish, harray]
    constructor
    · intro k hallowed hdefault
      have hne : k ≠ key := by
        rintro rfl
        exact hkey.elim hallowed hdefault
      dsimp only
      rw [DomainData.get_set, if_neg hne]
      exact h.plain k hallowed hdefault
    · dsimp only
      rw [DomainData.get_set]
      split
      · intro hbracket
        have hnil : values = [] := by
          by_contra hne
          have hopen : contains (arrayText values) (str "[") = true := by
            rw [arrayText_eq hne, contains_iff_part]
            exact ⟨[], rawItems [32] (values.map .str) ++ [93], rfl⟩
          rw [hopen] at hbracket
          cases hbracket
        rw [hnil]
        exact ⟨plain_nil .default, by decide⟩
      · exact h.deflt

/-- A comment that is continued has no more values. -/
theorem comment_adds (hnone : x.array = none) (hne : x.data.comment ≠ []) (value : GoString) :
    Adds 0 x (x.put .comment (x.data.comment ++ value)) := by
  have hput : (x.put .comment (x.data.comment ++ value)).array = none := hnone
  have hone : ∀ text : GoString, text ≠ [] → valueWeight .comment text = 1 := by
    intro text htext
    rw [valueWeight_scalar (by decide) fun h => absurd h (by decide), if_neg htext]
  refine .of_le (fun key => ?_) 0
  rw [weight_of_none hput, weight_of_none hnone, Draft.put, DomainData.get_set]
  split
  · next heq =>
    rw [heq, hone _ (by simp [hne])]
    exact (hone _ hne).ge
  · exact le_rfl

theorem readKey_sound (h : x.Sound) (hnone : x.array = none) (hlight : Light line)
    (hexact : x.total + (busy line).toNat ≤ (x.readKey line).total) : (x.readKey line).Sound := by
  have hopen : ∀ key, Sound { x with array := some (key, []) } := fun _ => ⟨h.plain, h.deflt⟩
  cases hbusy : busy line with
  | false =>
    rcases busy_eq_false hbusy with rfl | rfl | rfl
    · rwa [readKey_nil]
    · rw [readKey_headerLine (.inl rfl)]
      exact hopen .allowed
    · rw [readKey_headerLine (.inr rfl)]
      exact hopen .default
  | true =>
    rw [hbusy, Bool.toNat_true] at hexact
    by_cases hdomain : contains line (str "Domain:") = true
    · rwa [readKey, if_pos hdomain]
    have hdomain' : contains line (str "Domain:") = false := Bool.eq_false_iff.mpr hdomain
    cases hkey : keyOf line with
    | none =>
      have hread : x.readKey line =
          if x.data.comment ≠ [] then x.put .comment (x.data.comment ++ readValue line) else x := by
        rw [readKey, if_neg hdomain, if_neg (by simp [hlight.name]), hkey]
      rw [hread] at hexact ⊢
      split at hexact
      · next hcomment =>
        have hle := (comment_adds hnone hcomment (readValue line)).total_le
        omega
      · omega
    | some key =>
      by_cases hopens : Opens key line
      · rw [readKey_open hdomain' hlight.name hkey hopens]
        exact hopen key
      · rw [readKey_put hdomain' hlight.name hkey hopens]
        refine h.put (plain_part hdomain' hkey (readValue_part line)) ?_
        rintro rfl
        exact (hlight.deflt hkey hopens).1

theorem feed_sound (h : x.Sound) (hclean : x.Clean) (hlight : Light line)
    (hexact : x.total + (busy line).toNat ≤ (x.feed line).total) : (x.feed line).Sound := by
  cases harray : x.array with
  | none =>
    rw [feed_of_none harray] at hexact ⊢
    exact readKey_sound h harray hlight hexact
  | some array =>
    obtain ⟨key, values⟩ := array
    have hsettle : x.settle.total ≤ x.total :=
      Finset.sum_le_sum fun key _ => settle_weight hclean key
    rw [feed, harray] at hexact ⊢
    dsimp only at hexact ⊢
    split at hexact
    · next hitem =>
      rw [if_pos hitem]
      exact ⟨h.plain, h.deflt⟩
    · next hitem =>
      rw [if_neg hitem]
      split at hexact
      · next hempty => rwa [if_pos hempty]
      · next hempty =>
        rw [if_neg hempty]
        split at hexact
        · next hvalues =>
          rw [if_pos hvalues]
          exact h.settle hclean
        · next hvalues =>
          rw [if_neg hvalues]
          exact readKey_sound (h.settle hclean) (settle_array x) hlight (by omega)

/-- Where no line is lost, each value was read for its key. -/
theorem foldl_sound (h : x.Sound) (hclean : x.Clean) {lines : List GoString}
    (hlight : ∀ l ∈ lines, Light l)
    (hexact : x.total + lines.countP busy ≤ (lines.foldl feed x).total) :
    (lines.foldl feed x).Sound := by
  induction lines generalizing x with
  | nil => exact h
  | cons line lines ih =>
    obtain ⟨hline, hlines⟩ := List.forall_mem_cons.mp hlight
    obtain ⟨hadds, hnext⟩ := feed_adds hclean hline
    have hfirst := hadds.total_le
    have hrest := (foldl_adds hnext hlines).1.total_le
    have hcount : (line :: lines).countP busy = lines.countP busy + (busy line).toNat := by
      rw [List.countP_cons]
      cases busy line <;> rfl
    rw [hcount, List.foldl_cons] at hexact
    rw [List.foldl_cons]
    exact ih (feed_sound h hclean hline (by omega)) hnext hlines (by omega)

end Soundness

end Draft

end VissServer.Datamodel
