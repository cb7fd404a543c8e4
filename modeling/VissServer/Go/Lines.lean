import VissServer.Go.JsonTokens

/-!
The lines of a text as a scanner gives them, and strings without the white space at their ends.
-/
namespace VissServer.Go

/-! ## White space at the ends -/

/-- The encodings of the runes that are white space (unicode.IsSpace). -/
def whiteSpace : List GoString :=
  [[9], [10], [11], [12], [13], [32], [0xC2, 0x85], [0xC2, 0xA0], [0xE1, 0x9A, 0x80],
    [0xE2, 0x80, 0x80], [0xE2, 0x80, 0x81], [0xE2, 0x80, 0x82], [0xE2, 0x80, 0x83],
    [0xE2, 0x80, 0x84], [0xE2, 0x80, 0x85], [0xE2, 0x80, 0x86], [0xE2, 0x80, 0x87],
    [0xE2, 0x80, 0x88], [0xE2, 0x80, 0x89], [0xE2, 0x80, 0x8A], [0xE2, 0x80, 0xA8],
    [0xE2, 0x80, 0xA9], [0xE2, 0x80, 0xAF], [0xE2, 0x81, 0x9F], [0xE3, 0x80, 0x80]]

/-- Takes words of a list off the front of a string, at most so many as there are steps. -/
def dropWords (words : List GoString) : ℕ → GoString → GoString
  | 0, s => s
  | steps + 1, s =>
      match words.find? fun word => word.isPrefixOf s with
      | some word => dropWords words steps (s.drop word.length)
      | none => s

def trimFront (words : List GoString) (s : GoString) : GoString := dropWords words s.length s

/-- strings.TrimSpace. -/
def trimSpace (s : GoString) : GoString :=
  (trimFront (whiteSpace.map List.reverse) (trimFront whiteSpace s).reverse).reverse

/-- strings.TrimSuffix. -/
def trimSuffix (s p : GoString) : GoString :=
  if p.isSuffixOf s then s.take (s.length - p.length) else s

section Trimming

variable {words : List GoString} {s : GoString}

theorem dropWords_suffix (words : List GoString) (steps : ℕ) (s : GoString) :
    dropWords words steps s <:+ s := by
  induction steps generalizing s with
  | zero => exact List.suffix_rfl
  | succ steps ih =>
    rw [dropWords]
    split
    · exact (ih _).trans (List.drop_suffix _ _)
    · exact List.suffix_rfl

theorem trimFront_suffix (words : List GoString) (s : GoString) : trimFront words s <:+ s :=
  dropWords_suffix words s.length s

theorem trimSpace_inside (s : GoString) : trimSpace s <:+: s := by
  have hfront := trimFront_suffix whiteSpace s
  have hback := trimFront_suffix (whiteSpace.map List.reverse) (trimFront whiteSpace s).reverse
  have hprefix : trimSpace s <+: trimFront whiteSpace s := by
    rw [← List.reverse_suffix, trimSpace, List.reverse_reverse]
    exact hback
  exact hprefix.isInfix.trans hfront.isInfix

theorem trimFront_eq_self (h : ∀ word ∈ words, ¬ word <+: s) : trimFront words s = s := by
  have hnone : words.find? (fun word => word.isPrefixOf s) = none := by
    rw [List.find?_eq_none]
    intro word hword
    rw [List.isPrefixOf_iff_prefix]
    exact h word hword
  unfold trimFront
  cases s.length with
  | zero => rfl
  | succ steps => rw [dropWords, hnone]

/-- A byte that is a word is taken off, where no other word begins with it. -/
theorem trimFront_cons {c : UInt8} (hc : [c] ∈ words)
    (hwords : ∀ word ∈ words, word.head? = some c → word = [c]) (hne : [] ∉ words)
    (s : GoString) : trimFront words (c :: s) = trimFront words s := by
  have hfound : words.find? (fun word => word.isPrefixOf (c :: s)) = some [c] := by
    cases hfind : words.find? (fun word => word.isPrefixOf (c :: s)) with
    | none =>
      have hnot := List.find?_eq_none.mp hfind [c] hc
      simp at hnot
    | some word =>
      have hmem := List.mem_of_find?_eq_some hfind
      have hstart := List.find?_some hfind
      have hprefix := List.isPrefixOf_iff_prefix.mp hstart
      cases word with
      | nil => exact absurd hmem hne
      | cons d word =>
        obtain ⟨rest, hrest⟩ := hprefix
        obtain ⟨rfl, -⟩ := List.cons.inj hrest
        rw [hwords _ hmem rfl]
  rw [trimFront, List.length_cons, dropWords, hfound]
  rfl

theorem trimSpace_blank (s : GoString) : trimSpace (32 :: s) = trimSpace s := by
  unfold trimSpace
  rw [trimFront_cons (by decide) (by decide) (by decide)]

/-- What begins and ends with bytes that no white space begins and ends with. -/
theorem trimSpace_eq_self {a b : UInt8} (ha : ∀ word ∈ whiteSpace, word.head? ≠ some a)
    (hb : ∀ word ∈ whiteSpace, word.getLast? ≠ some b) (hs : s.head? = some a)
    (hs' : s.getLast? = some b) : trimSpace s = s := by
  have hne : [] ∉ whiteSpace := by decide
  have hfront : trimFront whiteSpace s = s := by
    refine trimFront_eq_self fun word hword hprefix => ?_
    obtain ⟨d, rest, rfl⟩ := List.exists_cons_of_ne_nil (fun h => hne (h ▸ hword))
    obtain ⟨t, rfl⟩ := hprefix
    exact ha _ hword hs
  have hback : trimFront (whiteSpace.map List.reverse) s.reverse = s.reverse := by
    refine trimFront_eq_self fun word hword hprefix => ?_
    obtain ⟨space, hspace, rfl⟩ := List.mem_map.mp hword
    have hsuffix : space <:+ s := List.reverse_prefix.mp hprefix
    obtain ⟨t, rfl⟩ := hsuffix
    refine hb space hspace ?_
    rwa [List.getLast?_append_of_ne_nil _ (fun h => hne (h ▸ hspace))] at hs'
  rw [trimSpace, hfront, hback, List.reverse_reverse]

/-- A trimmed string does not begin with a blank. -/
theorem head_of_trimSpace (h : trimSpace s = s) : s.head? ≠ some 32 := by
  intro hhead
  obtain ⟨rest, rfl⟩ : ∃ rest, s = 32 :: rest := by
    cases s with
    | nil => cases hhead
    | cons c rest => exact ⟨rest, by rw [Option.some.inj hhead]⟩
  have hle := (trimSpace_inside rest).length_le
  rw [← trimSpace_blank, h, List.length_cons] at hle
  omega

/-- A trimmed string does not end with a carriage return. -/
theorem getLast_of_trimSpace (h : trimSpace s = s) : s.getLast? ≠ some 13 := by
  intro hlast
  have hfront := trimFront_suffix whiteSpace s
  have hlength : (trimSpace s).length ≤ (trimFront whiteSpace s).length := by
    have hle := (trimFront_suffix (whiteSpace.map List.reverse)
      (trimFront whiteSpace s).reverse).length_le
    rwa [List.length_reverse, ← List.length_reverse, ← trimSpace] at hle
  have hwhole : trimFront whiteSpace s = s :=
    hfront.eq_of_length_le (by rw [h] at hlength; exact hlength)
  obtain ⟨init, rfl⟩ := List.getLast?_eq_some_iff.mp hlast
  have hback : trimSpace (init ++ [13]) =
      (trimFront (whiteSpace.map List.reverse) init.reverse).reverse := by
    rw [trimSpace, hwhole, List.reverse_append, List.reverse_singleton, List.singleton_append,
      trimFront_cons (by decide) (by decide) (by decide)]
  have hle := (trimFront_suffix (whiteSpace.map List.reverse) init.reverse).length_le
  rw [← List.length_reverse, ← hback, h] at hle
  simp only [List.length_append, List.length_reverse, List.length_singleton] at hle
  omega

end Trimming

/-! ## Lines -/

/-- The lines of a text, each without its end. -/
def textLines : GoString → List GoString
  | [] => []
  | c :: s =>
      if c = 10 then [] :: textLines s
      else match textLines s with
        | [] => [[c]]
        | line :: lines => (c :: line) :: lines

/-- A line without the carriage return at its end. -/
def dropCR (line : GoString) : GoString :=
  if line.getLast? = some 13 then line.dropLast else line

def maxScanTokenSize : ℕ := 65536

/-- A line that fits into the buffer of a scanner together with its end. -/
def fits (line : GoString) : Bool := line.length < maxScanTokenSize

/-- The lines that a bufio.Scanner gives, which stops for good at one that does not fit. -/
def scanLines (text : GoString) : List GoString := ((textLines text).takeWhile fits).map dropCR

/-- The text of lines. -/
def linesText (lines : List GoString) : GoString := lines.flatMap fun line => line ++ [10]

theorem linesText_append (lines more : List GoString) :
    linesText (lines ++ more) = linesText lines ++ linesText more := List.flatMap_append

theorem textLines_cons {line : GoString} (h : 10 ∉ line) (s : GoString) :
    textLines (line ++ 10 :: s) = line :: textLines s := by
  induction line with
  | nil => rfl
  | cons c line ih =>
    have hc : c ≠ 10 := fun heq => h (heq ▸ List.mem_cons_self)
    rw [List.cons_append, textLines, if_neg hc, ih fun hmem => h (List.mem_cons_of_mem c hmem)]

theorem textLines_linesText {lines : List GoString} (h : ∀ line ∈ lines, 10 ∉ line) :
    textLines (linesText lines) = lines := by
  induction lines with
  | nil => rfl
  | cons line lines ih =>
    obtain ⟨hline, hlines⟩ := List.forall_mem_cons.mp h
    rw [linesText, List.flatMap_cons, List.append_assoc, List.singleton_append,
      textLines_cons hline]
    exact congrArg (line :: ·) (ih hlines)

theorem scanLines_linesText {lines : List GoString} (h : ∀ line ∈ lines, 10 ∉ line)
    (hends : ∀ line ∈ lines, line.getLast? ≠ some 13) :
    scanLines (linesText lines) = lines.takeWhile fits := by
  rw [scanLines, textLines_linesText h]
  have hcut : ∀ line ∈ lines.takeWhile fits, dropCR line = line := fun line hline =>
    if_neg (hends line ((List.takeWhile_prefix _).subset hline))
  exact (List.map_congr_left hcut).trans (List.map_id _)

end VissServer.Go
