import Mathlib.Tactic

/-!
# Patterns of `LIKE`

The patterns of SQL: `%` stands for any text, `_` for any character, and a backslash makes the
next character stand for itself.

* `parse`, `accepts`: the parts of a pattern, and the texts that they match;
* `accepts_plain`: a plain text between two `%` is a search for the text;
* `exists_accepts_not_infix`: any other text between two `%` also finds what does not contain it.
-/

namespace Like

inductive Item
  | any
  | one
  | lit (c : Char)
  deriving DecidableEq

/-- The part for a character that is not escaped. -/
def item (c : Char) : Item := if c = '%' then .any else if c = '_' then .one else .lit c

/-- The parts of a pattern, unless it ends with the escape character. -/
def parse : List Char → Option (List Item)
  | [] => some []
  | [c] => if c = '\\' then none else some [item c]
  | c :: c' :: s =>
      if c = '\\' then (parse s).map (.lit c' :: ·) else (parse (c' :: s)).map (item c :: ·)

def accepts : List Item → List Char → Bool
  | [], s => s.isEmpty
  | .any :: p, s => s.tails.any (accepts p)
  | .one :: p, _ :: s => accepts p s
  | .lit c :: p, c' :: s => c = c' && accepts p s
  | _, [] => false

/-- A text without the special characters. -/
def Plain (t : List Char) : Prop := ∀ c ∈ t, c ≠ '%' ∧ c ≠ '_' ∧ c ≠ '\\'

instance (t : List Char) : Decidable (Plain t) :=
  List.decidableBAll (fun c => c ≠ '%' ∧ c ≠ '_' ∧ c ≠ '\\') t

variable {p : List Item} {s t : List Char} {c : Char}

@[simp] theorem plain_nil : Plain [] := by simp [Plain]

@[simp] theorem plain_cons :
    Plain (c :: t) ↔ (c ≠ '%' ∧ c ≠ '_' ∧ c ≠ '\\') ∧ Plain t := by simp [Plain]

theorem parse_cons (h : c ≠ '\\') (s : List Char) :
    parse (c :: s) = (parse s).map (item c :: ·) := by
  cases s with
  | nil => simp [parse, h]
  | cons c' s => rw [parse, if_neg h]

theorem parse_escape (c : Char) (s : List Char) :
    parse ('\\' :: c :: s) = (parse s).map (.lit c :: ·) := by
  rw [parse, if_pos rfl]

@[simp] theorem accepts_nil : accepts [] s = true ↔ s = [] := List.isEmpty_iff

@[simp] theorem accepts_any : accepts (.any :: p) s = true ↔ ∃ r, r <:+ s ∧ accepts p r = true := by
  simp [accepts, List.any_eq_true]

@[simp] theorem accepts_lit :
    accepts (.lit c :: p) s = true ↔ ∃ r, s = c :: r ∧ accepts p r = true := by
  cases s with
  | nil => simp [accepts]
  | cons c' s =>
    simp only [accepts, Bool.and_eq_true, decide_eq_true_eq, List.cons.injEq]
    constructor
    · rintro ⟨rfl, h⟩
      exact ⟨s, ⟨rfl, rfl⟩, h⟩
    · rintro ⟨r, ⟨rfl, rfl⟩, h⟩
      exact ⟨rfl, h⟩

/-! ### Plain texts -/

/-- The characters of a plain text stand for themselves. -/
theorem parse_plain (h : Plain t) (s : List Char) :
    parse (t ++ s) = (parse s).map (t.map .lit ++ ·) := by
  induction t with
  | nil => simp
  | cons c t ih =>
    obtain ⟨⟨hany, hone, hescape⟩, ht⟩ := plain_cons.1 h
    have hitem : item c = .lit c := by rw [item, if_neg hany, if_neg hone]
    rw [List.cons_append, parse_cons hescape, ih ht, hitem, Option.map_map]
    rfl

theorem accepts_lits :
    accepts (t.map .lit ++ p) s = true ↔ ∃ r, s = t ++ r ∧ accepts p r = true := by
  induction t generalizing s with
  | nil => simp
  | cons c t ih =>
    rw [List.map_cons, List.cons_append, accepts_lit]
    constructor
    · rintro ⟨r, rfl, h⟩
      obtain ⟨r', rfl, h'⟩ := ih.1 h
      exact ⟨r', rfl, h'⟩
    · rintro ⟨r, rfl, h⟩
      exact ⟨t ++ r, rfl, ih.2 ⟨r, rfl, h⟩⟩

/-- A plain text between two `%` is found in the texts that contain it. -/
theorem accepts_plain (h : Plain t) :
    ∃ p, parse ('%' :: t ++ ['%']) = some p ∧ ∀ s, accepts p s = true ↔ t <:+: s := by
  refine ⟨.any :: (t.map .lit ++ [.any]), ?_, fun s => ?_⟩
  · rw [List.cons_append, parse_cons (by decide), parse_plain h, parse, if_neg (by decide)]
    rfl
  · rw [accepts_any]
    constructor
    · rintro ⟨r, hr, h⟩
      obtain ⟨r', rfl, -⟩ := accepts_lits.1 h
      exact ((List.prefix_append t r').isInfix).trans hr.isInfix
    · rintro ⟨before, after, rfl⟩
      refine ⟨t ++ after, ⟨before, by simp⟩, accepts_lits.2 ⟨after, rfl, ?_⟩⟩
      exact accepts_any.2 ⟨[], List.nil_suffix, accepts_nil.2 rfl⟩

/-! ### Other texts -/

/-- The shortest text that some parts match, with `a` for any character. -/
def sample : List Item → List Char
  | [] => []
  | .any :: p => sample p
  | .one :: p => 'a' :: sample p
  | .lit c :: p => c :: sample p

theorem accepts_sample (p : List Item) : accepts p (sample p) = true := by
  induction p with
  | nil => rfl
  | cons i p ih =>
    cases i with
    | any => exact accepts_any.2 ⟨sample p, List.suffix_refl _, ih⟩
    | one => exact ih
    | lit c => exact accepts_lit.2 ⟨sample p, rfl, ih⟩

/-- The shortest match of a text with `%` at the end is no longer than the text, and the text
itself only if that is plain. -/
structure Shortens (t : List Char) (p : List Item) : Prop where
  length_le : (sample p).length ≤ t.length
  plain : sample p = t → Plain t
  mem : ∀ c ∈ sample p, c ∈ t ∨ c = 'a' ∨ c = '%'

theorem Shortens.cons (h : Shortens t p) (hc : c ≠ '\\') : Shortens (c :: t) (item c :: p) := by
  obtain ⟨hlength, hplain, hmem⟩ := h
  unfold item
  split_ifs with hany hone
  · refine ⟨hlength.trans (Nat.le_succ _), fun heq => ?_, fun c' hc' => ?_⟩
    · have hlen := congrArg List.length heq
      simp only [sample, List.length_cons] at hlen
      omega
    · exact (hmem c' hc').imp_left (List.mem_cons_of_mem c)
  · refine ⟨Nat.succ_le_succ hlength, fun heq => ?_, fun c' hc' => ?_⟩
    · rw [hone] at heq
      exact absurd (List.cons.inj heq).1 (by decide)
    · rcases List.mem_cons.1 hc' with rfl | hc'
      · exact .inr (.inl rfl)
      · exact (hmem c' hc').imp_left (List.mem_cons_of_mem c)
  · refine ⟨Nat.succ_le_succ hlength, fun heq => ?_, fun c' hc' => ?_⟩
    · exact plain_cons.2 ⟨⟨hany, hone, hc⟩, hplain (List.cons.inj heq).2⟩
    · rcases List.mem_cons.1 hc' with rfl | hc'
      · exact .inl List.mem_cons_self
      · exact (hmem c' hc').imp_left (List.mem_cons_of_mem c)

theorem exists_shortens (t : List Char) : ∃ p, parse (t ++ ['%']) = some p ∧ Shortens t p := by
  induction t using parse.induct with
  | case1 => exact ⟨[.any], rfl, by simp [sample], by simp, by simp [sample]⟩
  | case2 =>
    -- the escape takes the `%` at the end
    exact ⟨[.lit '%'], rfl, le_rfl, fun h => by simp [sample] at h, by simp [sample]⟩
  | case3 c hc =>
    refine ⟨[item c, .any], ?_, ?_⟩
    · rw [List.singleton_append, parse_cons hc]
      rfl
    · exact Shortens.cons ⟨le_rfl, fun _ => plain_nil, by simp [sample]⟩ hc
  | case4 c s ih =>
    obtain ⟨p, hp, hlength, -, hmem⟩ := ih
    refine ⟨.lit c :: p, ?_, ?_, fun heq => ?_, fun c' hc' => ?_⟩
    · rw [List.cons_append, List.cons_append, parse_escape, hp, Option.map_some]
    · simp only [sample, List.length_cons]
      omega
    · have hlen := congrArg List.length heq
      simp only [sample, List.length_cons] at hlen
      omega
    · rcases List.mem_cons.1 hc' with rfl | hc'
      · exact .inl (List.mem_cons_of_mem _ List.mem_cons_self)
      · exact (hmem c' hc').imp_left fun h => List.mem_cons_of_mem _ (List.mem_cons_of_mem _ h)
  | case5 c c' s hc ih =>
    obtain ⟨p, hp, hshort⟩ := ih
    refine ⟨item c :: p, ?_, hshort.cons hc⟩
    rw [List.cons_append, parse_cons hc, hp, Option.map_some]

/-- A text that is not plain, between two `%`, is found in a text that does not contain it. -/
theorem exists_accepts_not_infix (h : ¬ Plain t) :
    ∃ p s, parse ('%' :: t ++ ['%']) = some p ∧ accepts p s = true ∧ ¬ t <:+: s ∧
      ∀ c ∈ s, c ∈ t ∨ c = 'a' ∨ c = '%' := by
  obtain ⟨p, hp, hshort⟩ := exists_shortens t
  refine ⟨.any :: p, sample p, ?_, accepts_sample (.any :: p), fun hin => ?_, hshort.mem⟩
  · rw [List.cons_append, parse_cons (by decide), hp]
    rfl
  · have heq := hin.sublist.eq_of_length_le hshort.length_le
    exact h (hshort.plain heq.symm)

end Like
