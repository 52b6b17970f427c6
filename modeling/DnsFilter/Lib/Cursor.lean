import Mathlib.Data.List.ReduceOption
import Mathlib.Tactic

/-!
# Reading a result row by row

A client reads a result in a loop: it asks for the next row, scans it, and goes on or returns.
The rows are values, or `none` for a row that cannot be scanned; the connection may break after
any number of them.  Both problems close the result, so that no row is seen behind them, and
both leave an error behind that the client has to ask for.

* `forNext_eq`: what a loop does that goes on after every scanned row;
* `BuiltFromAll`: a result, if there is one, is built from all rows;
* `builtFromAll_seen_iff`, `builtFromAll_iff_of_counts`: when the rows in front of the first
  problem give such a result.
-/

namespace Cursor

variable {α β ρ : Type*}

/-- The end of one round of a loop. -/
inductive Flow (β ρ : Type*)
  | next (state : β)
  | return (result : ρ)

/-- A loop over the rows of a result, with its state and, in the second component, the error
that the closed result reports.  The connection breaks after `breaks` rows. -/
def forNext (body : β → Option α → Flow β ρ) :
    List (Option α) → Option ℕ → β → Flow β ρ × Bool
  | rows, breaks, state =>
      if breaks = some 0 then (.next state, true)
      else
        match rows with
        | [] => (.next state, false)
        | none :: _ => (body state none, true)
        | some values :: rows =>
            match body state (some values) with
            | .next state => forNext body rows (breaks.map (· - 1)) state
            | .return result => (.return result, false)

/-- The rows in front of a break. -/
def arrived (rows : List α) : Option ℕ → List α
  | none => rows
  | some n => rows.take n

/-- The values of the rows in front of the first problem. -/
def seen (rows : List (Option α)) (breaks : Option ℕ) : List α :=
  ((arrived rows breaks).takeWhile Option.isSome).reduceOption

@[simp] theorem arrived_none (rows : List α) : arrived rows none = rows := rfl

@[simp] theorem arrived_zero (rows : List α) : arrived rows (some 0) = [] := rfl

@[simp] theorem arrived_nil (breaks : Option ℕ) : arrived ([] : List α) breaks = [] := by
  cases breaks <;> simp [arrived]

theorem arrived_cons {breaks : Option ℕ} (h : breaks ≠ some 0) (row : α) (rows : List α) :
    arrived (row :: rows) breaks = row :: arrived rows (breaks.map (· - 1)) := by
  rcases breaks with - | (- | n)
  · rfl
  · exact absurd rfl h
  · simp [arrived]

theorem arrived_map {γ : Type*} (f : α → γ) (rows : List α) (breaks : Option ℕ) :
    arrived (rows.map f) breaks = (arrived rows breaks).map f := by
  cases breaks <;> simp [arrived]

/-- All rows arrive when the connection does not break among them. -/
theorem arrived_eq_self_iff {rows : List α} {breaks : Option ℕ} :
    arrived rows breaks = rows ↔ ∀ n ∈ breaks, rows.length ≤ n := by
  cases breaks <;> simp [arrived]

theorem exists_append_missing (rows : List α) (breaks : Option ℕ) :
    ∃ missing, rows = arrived rows breaks ++ missing := by
  cases breaks with
  | none => exact ⟨[], by simp⟩
  | some n => exact ⟨rows.drop n, by simp [arrived]⟩

/-- A loop that goes on after every scanned row sees the rows in front of the first problem. -/
theorem forNext_eq {body : β → Option α → Flow β ρ} {f : β → α → β}
    (h : ∀ s a, body s (some a) = .next (f s a)) (rows : List (Option α)) (breaks : Option ℕ)
    (state : β) :
    forNext body rows breaks state =
      if (arrived rows breaks).all Option.isSome then
        (.next ((seen rows breaks).foldl f state), breaks.any (· ≤ rows.length))
      else (body ((seen rows breaks).foldl f state) none, true) := by
  induction rows generalizing breaks state with
  | nil => rcases breaks with - | (- | n) <;> simp [forNext, seen]
  | cons row rows ih =>
    by_cases hbreak : breaks = some 0
    · subst hbreak
      simp [forNext.eq_def, seen]
    · rw [seen, arrived_cons hbreak]
      cases row with
      | none => simp [forNext, hbreak]
      | some a =>
        have hlen : (breaks.map (· - 1)).any (· ≤ rows.length) =
            breaks.any (· ≤ (some a :: rows).length) := by
          cases breaks <;> simp
        rw [forNext, if_neg hbreak]
        simp only [h]
        rw [ih, hlen]
        simp [seen]

/-- Among rows that can all be scanned only a break is a problem. -/
theorem seen_map_some (values : List α) (breaks : Option ℕ) :
    seen (values.map some) breaks = arrived values breaks := by
  rw [seen, arrived_map]
  induction arrived values breaks with
  | nil => rfl
  | cons a values ih => simpa using ih

/-! ### Results that are built from all rows -/

/-- If there is a result, all rows can be scanned and it is built from all of them. -/
def BuiltFromAll (build : List α → β) (rows : List (Option α)) (result : Option β) : Prop :=
  ∀ b, result = some b → ∃ values, rows = values.map some ∧ b = build values

theorem exists_eq_map_some {rows : List (Option α)} :
    (∃ values : List α, rows = values.map some) ↔ none ∉ rows := by
  constructor
  · rintro ⟨values, rfl⟩
    simp
  · intro h
    induction rows with
    | nil => exact ⟨[], rfl⟩
    | cons row rows ih =>
      obtain ⟨hrow, hrows⟩ := List.ne_and_not_mem_of_not_mem_cons h
      obtain ⟨a, rfl⟩ := Option.ne_none_iff_exists'.1 hrow.symm
      obtain ⟨values, rfl⟩ := ih hrows
      exact ⟨a :: values, rfl⟩

/-- What is built from the rows in front of the first problem is built from all rows when every
row can be scanned and the rows behind a break make no difference. -/
theorem builtFromAll_seen_iff {build : List α → β} {rows : List (Option α)}
    {breaks : Option ℕ} :
    BuiltFromAll build rows (some (build (seen rows breaks))) ↔
      ∃ values, rows = values.map some ∧ build (arrived values breaks) = build values := by
  constructor
  · intro h
    obtain ⟨values, rfl, hbuild⟩ := h _ rfl
    exact ⟨values, rfl, by rw [← hbuild, seen_map_some]⟩
  · rintro ⟨values, rfl, hbuild⟩ b hb
    obtain rfl := Option.some.inj hb
    exact ⟨values, rfl, by rw [seen_map_some, hbuild]⟩

/-- Nothing is missing when every row can be scanned and arrives. -/
theorem builtFromAll_of_arrived {build : List α → β} {rows : List (Option α)}
    {breaks : Option ℕ} (hrows : none ∉ rows) (h : ∀ n ∈ breaks, rows.length ≤ n) :
    BuiltFromAll build rows (some (build (seen rows breaks))) := by
  obtain ⟨values, rfl⟩ := exists_eq_map_some.2 hrows
  have hvalues : ∀ n ∈ breaks, values.length ≤ n := by simpa using h
  exact builtFromAll_seen_iff.2 ⟨values, rfl, by rw [arrived_eq_self_iff.2 hvalues]⟩

/-- Where every row counts, all rows have to arrive. -/
theorem builtFromAll_iff_of_counts {build : List α → β} {rows : List (Option α)}
    {breaks : Option ℕ}
    (hcounts : ∀ {values missing}, build values = build (values ++ missing) → missing = []) :
    BuiltFromAll build rows (some (build (seen rows breaks))) ↔
      none ∉ rows ∧ ∀ n ∈ breaks, rows.length ≤ n := by
  constructor
  · intro h
    obtain ⟨values, rfl, hbuild⟩ := builtFromAll_seen_iff.1 h
    obtain ⟨missing, hmissing⟩ := exists_append_missing values breaks
    have hnil : missing = [] := hcounts (hbuild.trans (congrArg build hmissing))
    have harrived : arrived values breaks = values := by
      simpa [hnil] using hmissing.symm
    refine ⟨exists_eq_map_some.1 ⟨values, rfl⟩, ?_⟩
    simpa using arrived_eq_self_iff.1 harrived
  · rintro ⟨hrows, h⟩
    exact builtFromAll_of_arrived hrows h

end Cursor
