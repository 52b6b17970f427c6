import DnsFilter.Lib.Lines

/-!
# Text in HTML attributes

A server escapes the five characters with a meaning in HTML; a browser reads the value of an
attribute up to the closing quote and replaces the character references.

* `attributeValue_escape`: what a browser reads where an escaped text was written.
-/

namespace Html

def escapeChar : Char → List Char
  | '&' => "&amp;".toList
  | '<' => "&lt;".toList
  | '>' => "&gt;".toList
  | '"' => "&#34;".toList
  | '\'' => "&#39;".toList
  | c => [c]

def escape (s : List Char) : List Char := s.flatMap escapeChar

/-- The text of a value, with the references that an escaped text has. -/
def unescape : List Char → List Char
  | '&' :: 'a' :: 'm' :: 'p' :: ';' :: s => '&' :: unescape s
  | '&' :: 'l' :: 't' :: ';' :: s => '<' :: unescape s
  | '&' :: 'g' :: 't' :: ';' :: s => '>' :: unescape s
  | '&' :: '#' :: '3' :: '4' :: ';' :: s => '"' :: unescape s
  | '&' :: '#' :: '3' :: '9' :: ';' :: s => '\'' :: unescape s
  | c :: s => c :: unescape s
  | [] => []

/-- No attribute holds U+0000. -/
def replaceNull (c : Char) : Char := if c = '\x00' then '\uFFFD' else c

/-- The value of an attribute, read from the opening quote on. -/
def attributeValue (s : List Char) : List Char :=
  (unescape (s.takeWhile (· ≠ '"'))).map replaceNull

variable {s : List Char} {c : Char}

theorem unescape_escapeChar (c : Char) (s : List Char) :
    unescape (escapeChar c ++ s) = c :: unescape s := by
  unfold escapeChar
  split
  · rfl
  · rfl
  · rfl
  · rfl
  · rfl
  · rename_i hamp _ _ _ _
    rw [List.singleton_append, unescape]
    all_goals
      rintro _ rfl
      exact absurd rfl hamp

theorem unescape_escape (s : List Char) : unescape (escape s) = s := by
  induction s with
  | nil => rfl
  | cons c s ih => rw [escape, List.flatMap_cons, unescape_escapeChar, ← escape, ih]

theorem quote_not_mem_escape (s : List Char) : '"' ∉ escape s := by
  intro h
  obtain ⟨c, -, hc⟩ := List.mem_flatMap.1 h
  unfold escapeChar at hc
  split at hc
  · exact absurd hc (by decide)
  · exact absurd hc (by decide)
  · exact absurd hc (by decide)
  · exact absurd hc (by decide)
  · exact absurd hc (by decide)
  · rename_i hquote _
    exact hquote (List.mem_singleton.1 hc).symm

/-- The value of an attribute whose text was escaped. -/
theorem attributeValue_escape (s rest : List Char) :
    attributeValue (escape s ++ '"' :: rest) = s.map replaceNull := by
  rw [attributeValue, Lines.takeWhile_append_sep (quote_not_mem_escape s), unescape_escape]

end Html
