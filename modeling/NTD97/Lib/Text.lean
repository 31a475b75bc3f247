import Mathlib

/-!
# Lib/Text — trimming and blank texts

White space is the Unicode `White_Space` property.  A text is blank when nothing is left after
trimming it; `isBlank_iff` reads that off its characters.
-/

namespace Text

/-- The code points with the Unicode property `White_Space`. -/
def isWhitespace (c : Char) : Bool :=
  let n := c.toNat
  (0x09 ≤ n && n ≤ 0x0D) || n == 0x20 || n == 0x85 || n == 0xA0 || n == 0x1680 ||
    (0x2000 ≤ n && n ≤ 0x200A) || n == 0x2028 || n == 0x2029 || n == 0x202F || n == 0x205F ||
    n == 0x3000

/-- A text without the characters `p` at its two ends. -/
def trimMatches (p : Char → Bool) (s : String) : String :=
  String.ofList ((s.toList.dropWhile p).reverse.dropWhile p).reverse

/-- A text without the white space at its two ends. -/
def trim (s : String) : String := trimMatches isWhitespace s

/-- The words of a text: its maximal parts without white space. -/
def splitWhitespace (s : String) : List String :=
  ((s.toList.splitOnP isWhitespace).filter (· ≠ [])).map String.ofList

/-- What stands before and after the first `c`. -/
def splitOnce (c : Char) (s : String) : Option (String × String) :=
  match s.toList.span (· ≠ c) with
  | (_, []) => none
  | (left, _ :: right) => some (String.ofList left, String.ofList right)

/-- A text cut at each `c`, into at most `n` parts. -/
def splitN : ℕ → Char → String → List String
  | 0, _, _ => []
  | 1, _, s => [s]
  | n + 2, c, s =>
    match splitOnce c s with
    | none => [s]
    | some (left, right) => left :: splitN (n + 1) c right

/-- The lines of a text: each ends at a line feed, with the carriage return before it if there is
one, and what follows the last line feed is a line of its own unless it is empty. -/
def lines (s : String) : List String :=
  let parts := s.toList.splitOn '\n'
  let ended := parts.dropLast.map fun line =>
    if line.getLast? = some '\r' then line.dropLast else line
  let rest := parts.getLast?.toList.filter (· ≠ [])
  (ended ++ rest).map String.ofList

/-- The value of a text of decimal digits, at least one, after at most one plus sign. -/
def parseNat (s : String) : Option ℕ :=
  let digits := match s.toList with
    | '+' :: rest => rest
    | cs => cs
  if digits ≠ [] ∧ digits.all Char.isDigit then
    some (digits.foldl (fun n c => 10 * n + (c.toNat - '0'.toNat)) 0)
  else none

/-- A text with its ASCII capitals in lower case. -/
def toAsciiLowercase (s : String) : String := s.map Char.toLower

/-- Nothing is left after trimming. -/
def isBlank (s : String) : Bool := (trim s).isEmpty

theorem isBlank_iff {s : String} : isBlank s = true ↔ ∀ c ∈ s.toList, isWhitespace c = true := by
  rw [isBlank, trim, trimMatches, String.isEmpty_iff, ← String.toList_inj, String.toList_ofList]
  rw [String.toList_empty, List.reverse_eq_nil_iff, List.dropWhile_eq_nil_iff]
  constructor
  · intro h
    have hdrop : s.toList.dropWhile isWhitespace = [] := by
      by_contra hne
      -- the first character left would be white space, yet it stopped the trimming
      have hhead := h _ (List.mem_reverse.2 (List.head_mem hne))
      rw [List.head_dropWhile_not isWhitespace hne] at hhead
      exact Bool.false_ne_true hhead
    exact List.dropWhile_eq_nil_iff.1 hdrop
  · intro h c hc
    exact h c ((List.dropWhile_sublist isWhitespace).mem (List.mem_reverse.1 hc))

/-- Trimming leaves nothing to trim. -/
theorem trim_trim (s : String) : trim (trim s) = trim s := by
  have hfix : ∀ l : List Char, ((l.dropWhile isWhitespace).rdropWhile isWhitespace).dropWhile
      isWhitespace = (l.dropWhile isWhitespace).rdropWhile isWhitespace := by
    intro l
    rw [List.dropWhile_eq_self_iff]
    intro hpos hws
    -- the first character kept is the one that stopped the trimming on the left
    have hpre := List.rdropWhile_prefix isWhitespace (l.dropWhile isWhitespace)
    have hne : l.dropWhile isWhitespace ≠ [] := fun h => by simp [h] at hpos
    rw [hpre.getElem hpos, ← List.head_eq_getElem hne, List.head_dropWhile_not isWhitespace hne] at hws
    exact Bool.false_ne_true hws
  refine congrArg String.ofList ?_
  change ((trim s).toList.dropWhile isWhitespace).rdropWhile isWhitespace
    = (s.toList.dropWhile isWhitespace).rdropWhile isWhitespace
  rw [trim, trimMatches, String.toList_ofList]
  change ((((s.toList.dropWhile isWhitespace).rdropWhile isWhitespace).dropWhile
    isWhitespace).rdropWhile isWhitespace) = _
  rw [hfix, List.rdropWhile_idempotent]

/-- A concatenation is blank exactly when both parts are. -/
theorem isBlank_append {s t : String} :
    isBlank (s ++ t) = true ↔ isBlank s = true ∧ isBlank t = true := by
  simp only [isBlank_iff, String.toList_append, List.mem_append, or_imp, forall_and]

end Text
