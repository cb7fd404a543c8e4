import Mathlib.Data.List.Induction
import VissServer.Go.Strings

/-!
JSON values. A parsed object lists its members as the text does. Decoding into
an interface variable turns each object into a Go map, here listed by increasing
key, in which the last of duplicate members is kept (canon). A number keeps the
literal it was written with instead of the float64 nearest to it.
-/
namespace VissServer.Go

inductive Json
  | null
  | bool (b : Bool)
  | num (literal : GoString)
  | str (s : GoString)
  | arr (items : List Json)
  | obj (members : List (GoString × Json))

/-- A Go map with string keys, listed by increasing key. -/
abbrev GoMap (α : Type*) := List (GoString × α)

namespace GoMap

variable {α : Type*}

/-- The assignment m[k] = v. -/
def set (m : GoMap α) (k : GoString) (v : α) : GoMap α :=
  match m with
  | [] => [(k, v)]
  | (k', v') :: rest =>
      if k = k' then (k, v) :: rest
      else if k < k' then (k, v) :: (k', v') :: rest
      else (k', v') :: set rest k v

/-- The call delete(m, k). -/
def delete (m : GoMap α) (k : GoString) : GoMap α := m.filter (fun p => p.1 ≠ k)

/-- The comma-ok lookup. -/
def get (m : GoMap α) (k : GoString) : Option α := m.lookup k

/-- The map that results from storing members in the order of a text. -/
def ofMembers (members : List (GoString × α)) : GoMap α :=
  members.foldl (fun m p => set m p.1 p.2) []

/-- Ranging over a map in the order of its keys. -/
theorem perm_id (m : GoMap α) : (id m).Perm m := .refl m

theorem lookup_cons_if (k k' : GoString) (v : α) (rest : List (GoString × α)) :
    ((k', v) :: rest).lookup k = if k = k' then some v else rest.lookup k := by
  by_cases h : k = k'
  · simp [h]
  · have hbeq : (k == k') = false := beq_eq_false_iff_ne.mpr h
    simp [List.lookup_cons, h, hbeq]

@[simp] theorem get_set (m : GoMap α) (k k' : GoString) (v : α) :
    (m.set k v).get k' = if k' = k then some v else m.get k' := by
  unfold get
  induction m with
  | nil => rw [set, lookup_cons_if]
  | cons p rest ih =>
    obtain ⟨k₁, v₁⟩ := p
    rw [set]
    split
    · next hk =>
      subst hk
      rw [lookup_cons_if, lookup_cons_if]
      split <;> rfl
    · next hk =>
      split
      · rw [lookup_cons_if]
      · rw [lookup_cons_if, ih, lookup_cons_if]
        by_cases h : k' = k
        · rw [if_pos h, if_neg (fun h' => hk (h.symm.trans h')), if_pos h]
        · rw [if_neg h, if_neg h]

theorem set_ne_nil (m : GoMap α) (k : GoString) (v : α) : m.set k v ≠ [] := by
  cases m with
  | nil => exact List.cons_ne_nil _ _
  | cons q rest =>
    rw [set]
    split
    · exact List.cons_ne_nil _ _
    · split <;> exact List.cons_ne_nil _ _

theorem mem_set {m : GoMap α} {k : GoString} {v : α} {p : GoString × α} (h : p ∈ m.set k v) :
    p = (k, v) ∨ p ∈ m := by
  induction m with
  | nil => simpa [set] using h
  | cons q rest ih =>
    obtain ⟨k₁, v₁⟩ := q
    rw [set] at h
    split at h
    · rcases List.mem_cons.mp h with h | h
      · exact .inl h
      · exact .inr (List.mem_cons_of_mem _ h)
    · split at h
      · rcases List.mem_cons.mp h with h | h
        · exact .inl h
        · exact .inr h
      · rcases List.mem_cons.mp h with rfl | h
        · exact .inr (List.mem_cons_self ..)
        · exact (ih h).imp_right (List.mem_cons_of_mem _)

theorem ofMembers_concat (members : List (GoString × α)) (p : GoString × α) :
    ofMembers (members ++ [p]) = (ofMembers members).set p.1 p.2 := by
  simp [ofMembers]

/-- The last of duplicate members is kept. -/
theorem get_ofMembers (members : List (GoString × α)) (k : GoString) :
    (ofMembers members).get k = members.reverse.lookup k := by
  induction members using List.reverseRecOn with
  | nil => rfl
  | append_singleton members p ih =>
    obtain ⟨k₁, v₁⟩ := p
    rw [ofMembers_concat, get_set, List.reverse_append, ih, List.reverse_singleton,
      List.singleton_append, lookup_cons_if]

theorem mem_ofMembers {members : List (GoString × α)} {p : GoString × α}
    (h : p ∈ ofMembers members) : p ∈ members := by
  induction members using List.reverseRecOn with
  | nil => exact h
  | append_singleton members q ih =>
    rw [ofMembers_concat] at h
    rcases mem_set h with rfl | h
    · simp
    · exact List.mem_append_left _ (ih h)

end GoMap

mutual

/-- The value that an interface variable holds after decoding. -/
def canon : Json → Json
  | .arr items => .arr (canonItems items)
  | .obj members => .obj (GoMap.ofMembers (canonMembers members))
  | j => j

def canonItems : List Json → List Json
  | [] => []
  | j :: items => canon j :: canonItems items

def canonMembers : List (GoString × Json) → List (GoString × Json)
  | [] => []
  | (k, j) :: members => (k, canon j) :: canonMembers members

end

theorem canonItems_eq_map (items : List Json) : canonItems items = items.map canon := by
  induction items with
  | nil => rfl
  | cons j items ih => rw [canonItems, ih, List.map_cons]

theorem canonMembers_eq_map (members : List (GoString × Json)) :
    canonMembers members = members.map fun p => (p.1, canon p.2) := by
  induction members with
  | nil => rfl
  | cons p members ih =>
    obtain ⟨k, j⟩ := p
    rw [canonMembers, ih, List.map_cons]

/-- Decoding keeps strings, and makes none. -/
theorem canon_eq_str {j : Json} {s : GoString} : canon j = .str s ↔ j = .str s := by
  cases j <;> simp [canon]

/-- The index expression m[k] of a map with interface values; nil is null. -/
def valueAt (m : GoMap Json) (k : GoString) : Json := (m.get k).getD .null

/-- The type assertion v.(string). -/
def asString : Json → MayPanic GoString
  | .str s => some s
  | _ => none

theorem asString_eq_none {j : Json} : asString j = none ↔ ∀ t, j ≠ .str t := by
  cases j <;> simp [asString]

theorem asString_eq_some {j : Json} {t : GoString} : asString j = some t ↔ j = .str t := by
  cases j <;> simp [asString]

def isNull : Json → Bool
  | .null => true
  | _ => false

end VissServer.Go
