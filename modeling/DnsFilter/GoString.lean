import DnsFilter.Lib.Lines
import Mathlib

/-!
# Go strings

A Go `string` is modelled by its list of runes.  This file has the functions of the
`strings` and `bufio` packages that the program applies to domain names and list files.

`strings.ToLower` maps every rune by the Unicode table; the table itself is a parameter,
the class `Unicode`, whose fields are the facts the program relies on.  `asciiTable` is the
instance that lowers `A`–`Z` only.
-/

namespace DnsFilter

/-- A Go string, as its runes. -/
abbrev GoString := List Char

/-- The lower-case table of the `unicode` package. -/
class Unicode where
  toLower : Char → Char
  toLower_ascii : ∀ c : Char, c.toNat < 128 → toLower c = c.toLower
  toLower_toLower : ∀ c, toLower (toLower c) = toLower c
  /-- Only letters have a lower-case form; none of them is lowered to `.`, `|` or a digit. -/
  toLower_eq_self : ∀ c, (toLower c).toNat < 128 → ¬ (toLower c).isAlpha → toLower c = c

/-- The table restricted to the ASCII letters. -/
@[reducible] def asciiTable : Unicode where
  toLower := Char.toLower
  toLower_ascii _ _ := rfl
  toLower_toLower := Char.toLower_toLower_eq_toLower
  toLower_eq_self c _ h := by
    refine Char.toLower_eq_of_not_isUpper fun hup => h ?_
    rw [Char.isAlpha_toLower_eq_isAlpha, Char.isAlpha, hup, Bool.true_or]

namespace GoString

section Case

variable [Unicode]

/-- `strings.ToLower`. -/
def toLower (s : GoString) : GoString := s.map Unicode.toLower

end Case

/-- `unicode.IsSpace`. -/
def isSpace (c : Char) : Bool :=
  c ∈ ['\t', '\n', '\x0b', '\x0c', '\r', ' ', '\u0085', '\u00a0', '\u1680', '\u2028', '\u2029',
    '\u202f', '\u205f', '\u3000'] ||
    (0x2000 ≤ c.toNat && c.toNat ≤ 0x200a)

/-- `strings.TrimSpace`. -/
def trimSpace (s : GoString) : GoString :=
  ((s.dropWhile isSpace).reverse.dropWhile isSpace).reverse

/-- `strings.HasPrefix`. -/
def hasPrefix (s t : GoString) : Bool := t.isPrefixOf s

/-- `strings.HasSuffix`. -/
def hasSuffix (s t : GoString) : Bool := t.isSuffixOf s

/-- `strings.Split` at a one-rune separator. -/
def split (s : GoString) (sep : Char) : List GoString := List.splitOn sep s

/-- `strings.Join` with a one-rune separator. -/
def join (parts : List GoString) (sep : Char) : GoString := List.intercalate [sep] parts

/-- `strings.Fields`: the maximal runs of non-space runes. -/
def fields (s : GoString) : List GoString := (s.splitOnP isSpace).filter (· ≠ [])

/-- `s[:strings.Index(s, c)]`, or all of `s` when `c` does not occur. -/
def before (s : GoString) (c : Char) : GoString := s.takeWhile (· ≠ c)

/-- The length in bytes of the UTF-8 form. -/
def byteLen (s : GoString) : ℕ := (s.map Char.utf8Size).sum

/-- The last occurrence of a separator splits a string in one way. -/
theorem append_sep_inj {sep : Char} {x x' y y' : GoString} (hy : sep ∉ y) (hy' : sep ∉ y') :
    x ++ sep :: y = x' ++ sep :: y' ↔ x = x' ∧ y = y' := by
  have hlast : ∀ {x y : GoString}, sep ∉ y →
      (x ++ sep :: y).reverse.takeWhile (· ≠ sep) = y.reverse := by
    intro x y hy
    rw [List.reverse_append, List.reverse_cons, List.append_assoc, List.singleton_append,
      Lines.takeWhile_append_sep (mt List.mem_reverse.1 hy)]
  constructor
  · intro h
    have hyy : y = y' := by
      have hrev := congrArg (fun l : GoString => l.reverse.takeWhile (· ≠ sep)) h
      simp only [hlast hy, hlast hy'] at hrev
      exact List.reverse_injective hrev
    subst hyy
    exact ⟨List.append_cancel_right h, rfl⟩
  · rintro ⟨rfl, rfl⟩
    rfl

/-! ### Line scanning -/

/-- `bufio.MaxScanTokenSize`: a line must fit into the buffer together with its end. -/
def maxScanTokenSize : ℕ := 64 * 1024

/-- The lines of a text; the end of the last line may be missing. -/
def rawLines (s : GoString) : List GoString :=
  let ls := List.splitOn '\n' s
  if ls.getLast? = some [] then ls.dropLast else ls

/-- `bufio.ScanLines` also drops one trailing carriage return. -/
def dropCR (s : GoString) : GoString :=
  if s.getLast? = some '\r' then s.dropLast else s

/-- The lines a `bufio.Scanner` returns, and whether it then fails (`ErrTooLong`). -/
def scanLines (s : GoString) : List GoString × Bool :=
  let fits := fun l : GoString => decide (l.byteLen < maxScanTokenSize)
  (((rawLines s).takeWhile fits).map dropCR, !(rawLines s).all fits)

end GoString
end DnsFilter
