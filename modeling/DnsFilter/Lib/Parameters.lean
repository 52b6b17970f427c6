import Mathlib.Tactic

/-!
# Statements with numbered parameters

The text of a statement in which `$1`, `$2`, … stand for values that are sent apart from it.

* `scan`: how a text is read; what is between single quotes is no parameter;
* `Reads`: a text stands for a statement, wherever it occurs, with the rules `reads_literal`,
  `reads_parameter`, `Reads.append` and `Reads.prepend`;
* `bind`: the statement with its values put in, which takes no more and no fewer of them than it
  has parameters (`bind_eq_some`).
-/

namespace Parameters

/-- What has been read last. -/
inductive Mode
  | plain
  | quoted
  | dollar
  | number (n : ℕ)
  deriving DecidableEq

/-- A quote opens and closes. -/
def Mode.toggle (mode : Mode) (c : Char) : Mode :=
  if c = '\'' then (if mode = .quoted then .plain else .quoted) else mode

/-- The value of a digit. -/
def digit (c : Char) : ℕ := c.toNat - '0'.toNat

/-- The characters and the parameters of a text. -/
def scan : Mode → List Char → List (Char ⊕ ℕ)
  | .plain, [] | .quoted, [] => []
  | .dollar, [] => [.inl '$']
  | .number n, [] => [.inr n]
  | .plain, c :: cs =>
      if c = '$' then scan .dollar cs else .inl c :: scan (Mode.plain.toggle c) cs
  | .quoted, c :: cs => .inl c :: scan (Mode.quoted.toggle c) cs
  | .dollar, c :: cs =>
      if c.isDigit then scan (.number (digit c)) cs
      else .inl '$' :: if c = '$' then scan .dollar cs
        else .inl c :: scan (Mode.plain.toggle c) cs
  | .number n, c :: cs =>
      if c.isDigit then scan (.number (10 * n + digit c)) cs
      else .inr n :: if c = '$' then scan .dollar cs
        else .inl c :: scan (Mode.plain.toggle c) cs

/-- Nothing that would go on with a number. -/
def Separate (rest : List Char) : Prop := ∀ c ∈ rest.head?, c.isDigit = false

instance : (rest : List Char) → Decidable (Separate rest)
  | [] => .isTrue (by simp [Separate])
  | c :: _ => decidable_of_iff (c.isDigit = false) (by simp [Separate])

theorem Separate.append {s : List Char} (h : Separate s) (hne : s ≠ []) (t : List Char) :
    Separate (s ++ t) := by
  obtain ⟨c, cs, rfl⟩ := List.exists_cons_of_ne_nil hne
  exact h

/-- A text that is read by itself. -/
def Scans (text : List Char) (ps : List (Char ⊕ ℕ)) : Prop :=
  ∀ rest, Separate rest → scan .plain (text ++ rest) = ps ++ scan .plain rest

/-! ### Texts without parameters -/

/-- Characters as they are. -/
def literal {α : Type*} (text : List Char) : List (Char ⊕ α) := text.map .inl

@[simp] theorem literal_append {α : Type*} (s t : List Char) :
    (literal (s ++ t) : List (Char ⊕ α)) = literal s ++ literal t := List.map_append

@[simp] theorem inl_mem_literal {α : Type*} {c : Char} {text : List Char} :
    .inl c ∈ (literal text : List (Char ⊕ α)) ↔ c ∈ text :=
  List.mem_map_of_injective Sum.inl_injective

theorem literal_injective {α : Type*} :
    Function.Injective (literal : List Char → List (Char ⊕ α)) :=
  List.map_injective_iff.2 Sum.inl_injective

instance lawfulBEqSum {α β : Type*} [BEq α] [BEq β] [LawfulBEq α] [LawfulBEq β] :
    LawfulBEq (α ⊕ β) where
  eq_of_beq {a b} h := by
    cases a <;> cases b
    · exact congrArg Sum.inl (eq_of_beq h)
    · cases h
    · cases h
    · exact congrArg Sum.inr (eq_of_beq h)
  rfl {a} := by
    cases a with
    | inl a => exact beq_self_eq_true a
    | inr a => exact beq_self_eq_true a

/-- No dollar sign, and every quote that opens closes. -/
def Literal (text : List Char) : Prop := '$' ∉ text ∧ text.foldl Mode.toggle .plain = .plain

instance (text : List Char) : Decidable (Literal text) := inferInstanceAs (Decidable (_ ∧ _))

theorem toggle_plain_or_quoted {mode : Mode} (hmode : mode = .plain ∨ mode = .quoted) (c : Char) :
    mode.toggle c = .plain ∨ mode.toggle c = .quoted := by
  unfold Mode.toggle
  split_ifs
  · exact .inl rfl
  · exact .inr rfl
  · exact hmode

theorem scan_of_notMem {text : List Char} (h : '$' ∉ text) {mode : Mode}
    (hmode : mode = .plain ∨ mode = .quoted) (rest : List Char) :
    scan mode (text ++ rest) = literal text ++ scan (text.foldl Mode.toggle mode) rest := by
  induction text generalizing mode with
  | nil => rfl
  | cons c cs ih =>
    rw [List.mem_cons, not_or] at h
    have hstep : scan mode (c :: (cs ++ rest)) = .inl c :: scan (mode.toggle c) (cs ++ rest) := by
      rcases hmode with rfl | rfl
      · rw [scan, if_neg (Ne.symm h.1)]
      · rw [scan]
    rw [List.cons_append, hstep, ih h.2 (toggle_plain_or_quoted hmode c)]
    rfl

theorem scans_literal {text : List Char} (h : Literal text) : Scans text (literal text) := by
  intro rest _
  rw [scan_of_notMem h.1 (.inl rfl), h.2]

/-! ### Parameters -/

/-- `$n`. -/
def parameter (n : ℕ) : List Char := '$' :: Nat.toDigits 10 n

theorem separate_parameter (n : ℕ) : Separate (parameter n) := by
  simp [Separate, parameter]

theorem scan_number {ds : List Char} (hds : ∀ c ∈ ds, c.isDigit) (n : ℕ) {rest : List Char}
    (hrest : Separate rest) :
    scan (.number n) (ds ++ rest) = .inr (Nat.ofDigitChars 10 ds n) :: scan .plain rest := by
  induction ds generalizing n with
  | nil =>
    cases rest with
    | nil => rfl
    | cons c cs =>
      have hc : c.isDigit = false := hrest c rfl
      simp only [List.nil_append, scan, hc, Nat.ofDigitChars_nil, Bool.false_eq_true, if_false]
  | cons c cs ih =>
    rw [List.forall_mem_cons] at hds
    rw [List.cons_append, scan, if_pos hds.1, ih hds.2, Nat.ofDigitChars_cons]
    rfl

theorem scans_parameter (n : ℕ) : Scans (parameter n) [.inr n] := by
  intro rest hrest
  have hdigits : ∀ c ∈ Nat.toDigits 10 n, c.isDigit := fun c hc =>
    Nat.isDigit_of_mem_toDigits (by decide) (by decide) hc
  have hvalue : Nat.ofDigitChars 10 (Nat.toDigits 10 n) 0 = n := Nat.ofDigitChars_ten_toDigits
  obtain ⟨c, cs, hcs⟩ := List.exists_cons_of_ne_nil (Nat.toDigits_ne_nil (n := n) (b := 10))
  rw [hcs, List.forall_mem_cons] at hdigits
  rw [hcs, Nat.ofDigitChars_cons] at hvalue
  rw [parameter, hcs, List.cons_append, scan, if_pos rfl, List.cons_append, scan,
    if_pos hdigits.1, scan_number hdigits.2 _ hrest]
  simp only [Nat.mul_zero, Nat.zero_add] at hvalue
  rw [digit, hvalue]
  rfl

/-! ### Statements -/

variable {α : Type*}

/-- The values that a statement is sent with. -/
def values (w : List (Char ⊕ α)) : List α := w.filterMap Sum.getRight?

/-- A statement with numbers for its values. -/
def numberFrom : ℕ → List (Char ⊕ α) → List (Char ⊕ ℕ)
  | _, [] => []
  | n, .inl c :: w => .inl c :: numberFrom n w
  | n, .inr _ :: w => .inr n :: numberFrom (n + 1) w

@[simp] theorem values_nil : values ([] : List (Char ⊕ α)) = [] := rfl

@[simp] theorem values_char (c : Char) (w : List (Char ⊕ α)) :
    values (.inl c :: w) = values w := rfl

@[simp] theorem values_value (a : α) (w : List (Char ⊕ α)) :
    values (.inr a :: w) = a :: values w := rfl

@[simp] theorem values_append (v w : List (Char ⊕ α)) : values (v ++ w) = values v ++ values w :=
  List.filterMap_append

@[simp] theorem values_literal (text : List Char) :
    values (literal text : List (Char ⊕ α)) = [] := by
  simp [values, literal, List.filterMap_map, Function.comp_def]

theorem numberFrom_append (n : ℕ) (v w : List (Char ⊕ α)) :
    numberFrom n (v ++ w) = numberFrom n v ++ numberFrom (n + (values v).length) w := by
  induction v generalizing n with
  | nil => rfl
  | cons p v ih =>
    cases p with
    | inl c => simp [numberFrom, ih]
    | inr a => simp [numberFrom, ih, Nat.add_assoc, Nat.add_comm 1]

@[simp] theorem numberFrom_literal (n : ℕ) (text : List Char) :
    numberFrom n (literal text : List (Char ⊕ α)) = literal text := by
  induction text with
  | nil => rfl
  | cons c cs ih => exact congrArg (Sum.inl c :: ·) ih

/-- A text stands for a statement whose values are numbered from `n` on. -/
def Reads (n : ℕ) (text : List Char) (w : List (Char ⊕ α)) : Prop := Scans text (numberFrom n w)

theorem reads_literal {text : List Char} (h : Literal text) (n : ℕ) :
    Reads n text (literal text : List (Char ⊕ α)) := by
  rw [Reads, numberFrom_literal]
  exact scans_literal h

/-- Whatever comes after plain text. -/
theorem Reads.prepend {n : ℕ} {t : List Char} {w : List (Char ⊕ α)} (ht : Reads n t w)
    {text : List Char} (h : Literal text) : Reads n (text ++ t) (literal text ++ w) := by
  intro rest hrest
  rw [List.append_assoc, scan_of_notMem h.1 (.inl rfl), h.2, ht rest hrest, numberFrom_append,
    numberFrom_literal, values_literal, List.length_nil, Nat.add_zero, List.append_assoc]

theorem reads_parameter (n : ℕ) (a : α) : Reads n (parameter n) [.inr a] := scans_parameter n

theorem Reads.append {n m : ℕ} {s t : List Char} {v w : List (Char ⊕ α)} (hs : Reads n s v)
    (ht : Reads m t w) (hm : m = n + (values v).length) (hsep : Separate t) :
    Reads n (s ++ t) (v ++ w) := by
  intro rest hrest
  have hsep' : Separate (t ++ rest) := by
    cases t with
    | nil => exact hrest
    | cons c cs => exact hsep
  subst hm
  rw [List.append_assoc, hs _ hsep', ht rest hrest, numberFrom_append, List.append_assoc]

/-! ### Values -/

/-- The value of a parameter. -/
def substitute (args : List α) : Char ⊕ ℕ → Option (Char ⊕ α)
  | .inl c => some (.inl c)
  | .inr n => if n = 0 then none else (args[n - 1]?).map .inr

/-- The statement with its values; as many are expected as the highest number says. -/
def bind (args : List α) (text : List Char) : Option (List (Char ⊕ α)) :=
  let ps := scan .plain text
  if (values ps).foldl max 0 = args.length then ps.mapM (substitute args) else none

theorem values_numberFrom (n : ℕ) (w : List (Char ⊕ α)) :
    values (numberFrom n w) = List.range' n (values w).length := by
  induction w generalizing n with
  | nil => rfl
  | cons p w ih =>
    cases p with
    | inl c => exact ih n
    | inr a => exact congrArg (n :: ·) (ih (n + 1))

theorem foldl_max_range' (n : ℕ) : (List.range' 1 n).foldl max 0 = n := by
  induction n with
  | zero => rfl
  | succ n ih =>
    rw [List.range'_1_concat, List.foldl_append, ih]
    simp [Nat.add_comm]

theorem mapM_substitute {args pre : List α} (w : List (Char ⊕ α)) (h : args = pre ++ values w) :
    (numberFrom (pre.length + 1) w).mapM (substitute args) = some w := by
  induction w generalizing pre with
  | nil => rfl
  | cons p w ih =>
    cases p with
    | inl c =>
      rw [numberFrom, List.mapM_cons, substitute, ih h]
      rfl
    | inr a =>
      have hargs : args = (pre ++ [a]) ++ values w := by rw [h, List.append_assoc]; rfl
      have hget : args[pre.length]? = some a := by rw [h]; simp [values]
      have hrest := ih hargs
      rw [List.length_append, List.length_singleton] at hrest
      rw [numberFrom, List.mapM_cons, substitute, if_neg (Nat.succ_ne_zero _),
        Nat.add_sub_cancel, hget, hrest]
      rfl

/-- A text that stands for a statement is one, with its values in their order. -/
theorem bind_eq_some {text : List Char} {w : List (Char ⊕ α)} (h : Reads 1 text w) :
    bind (values w) text = some w := by
  have hscan : scan .plain text = numberFrom 1 w := by
    have hall := h [] (by simp [Separate])
    simpa [scan] using hall
  rw [bind, hscan, values_numberFrom, foldl_max_range', if_pos rfl]
  exact @mapM_substitute _ _ [] w rfl

end Parameters
