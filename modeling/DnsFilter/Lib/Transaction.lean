import Mathlib.Tactic

/-!
# Transactions with failing statements

A store executes statements: `exec s e` is the state after the statement `e`, or `none` when a
constraint makes it fail.  `Faults` are the failures that do not depend on the state: of the
begin, of the `i`-th statement and of the commit.

A transaction works on a copy of the state.  After a failing statement every later one fails,
and the commit is a rollback.

* `execAll_cases`, `execCount_fst`: the two ways to write a loop of statements, one that
  returns at the first error and one that counts the successes and goes on;
* `commit_after`: however the loop is written, a transaction has the effect of all its
  statements or none (`attempt`).
-/

namespace Transaction

variable {σ ε : Type*}

/-- The failures that meet a transaction. -/
structure Faults where
  beginFails : Bool
  stmtFails : ℕ → Bool
  commitFails : Bool

/-- Nothing fails. -/
def Faults.none : Faults := ⟨false, fun _ => false, false⟩

/-- None of the first `n` statements is met by a failure, nor the begin or the commit. -/
def Faults.Clean (f : Faults) (n : ℕ) : Prop :=
  f.beginFails = false ∧ (∀ i < n, f.stmtFails i = false) ∧ f.commitFails = false

instance (f : Faults) (n : ℕ) : Decidable (f.Clean n) := inferInstanceAs (Decidable (_ ∧ _))

/-- An open transaction; it has no current state once a statement has failed. -/
structure Tx (σ : Type*) where
  saved : σ
  current : Option σ
  issued : ℕ

/-- Begin a transaction. -/
def start (f : Faults) (s : σ) : Option (Tx σ) :=
  if f.beginFails then none else some ⟨s, some s, 0⟩

namespace Tx

variable (step : σ → ε → Option σ) (f : Faults)

/-- Execute a statement; the second component says that it failed. -/
def exec (tx : Tx σ) (e : ε) : Tx σ × Bool :=
  let next := if f.stmtFails tx.issued then none else tx.current.bind (step · e)
  (⟨tx.saved, next, tx.issued + 1⟩, next.isNone)

/-- Commit; the second component says that the transaction was rolled back instead. -/
def commit (tx : Tx σ) : σ × Bool :=
  match tx.current with
  | none => (tx.saved, true)
  | some s => if f.commitFails then (tx.saved, true) else (s, false)

def rollback (tx : Tx σ) : σ := tx.saved

/-- A loop that returns at the first error. -/
def execAll (tx : Tx σ) : List ε → Tx σ × Bool
  | [] => (tx, false)
  | e :: es =>
      let (tx, err) := tx.exec step f e
      if err then (tx, true) else execAll tx es

/-- A loop that counts the statements that succeed. -/
def execCount (tx : Tx σ) : List ε → Tx σ × ℕ
  | [] => (tx, 0)
  | e :: es =>
      let (tx, err) := tx.exec step f e
      let (tx, count) := execCount tx es
      (tx, if err then count else count + 1)

/-- The transaction after some statements, whatever became of them. -/
def after (tx : Tx σ) (es : List ε) : Tx σ := es.foldl (fun tx e => (tx.exec step f e).1) tx

end Tx

/-- The number of statements in front of the first one that fails, when the first of them is
the `i`-th of its transaction. -/
def succeeded (step : σ → ε → Option σ) (f : Faults) : ℕ → σ → List ε → ℕ
  | _, _, [] => 0
  | i, s, e :: es =>
      if f.stmtFails i then 0
      else
        match step s e with
        | none => 0
        | some s' => succeeded step f (i + 1) s' es + 1

/-- The effect of a transaction: all statements, or nothing. -/
def attempt (step : σ → ε → Option σ) (f : Faults) (s : σ) (es : List ε) : Option σ :=
  if f.Clean es.length then es.foldlM step s else none

namespace Tx

variable {step : σ → ε → Option σ} {f : Faults}

@[simp] theorem after_nil (tx : Tx σ) : tx.after step f [] = tx := rfl

@[simp] theorem after_cons (tx : Tx σ) (e : ε) (es : List ε) :
    tx.after step f (e :: es) = (tx.exec step f e).1.after step f es := rfl

theorem after_append (tx : Tx σ) (es es' : List ε) :
    tx.after step f (es ++ es') = (tx.after step f es).after step f es' := List.foldl_append

@[simp] theorem saved_after (tx : Tx σ) (es : List ε) : (tx.after step f es).saved = tx.saved := by
  induction es generalizing tx with
  | nil => rfl
  | cons e es ih => rw [after_cons, ih]; rfl

/-- Every statement has to succeed. -/
theorem current_after (tx : Tx σ) (es : List ε) :
    (tx.after step f es).current =
      if ∀ i < es.length, f.stmtFails (tx.issued + i) = false then
        tx.current.bind (es.foldlM step)
      else none := by
  induction es generalizing tx with
  | nil => cases h : tx.current <;> simp [h]
  | cons e es ih =>
    have hsplit : (∀ i < (e :: es).length, f.stmtFails (tx.issued + i) = false) ↔
        f.stmtFails tx.issued = false ∧
          ∀ i < es.length, f.stmtFails (tx.issued + 1 + i) = false := by
      rw [List.length_cons, Nat.forall_lt_succ_left]
      simp only [add_zero, add_assoc, add_comm 1]
    rw [after_cons, ih]
    simp only [hsplit]
    cases hfail : f.stmtFails tx.issued with
    | true => simp [exec, hfail]
    | false =>
      simp only [exec, hfail, true_and, Bool.false_eq_true, if_false]
      congr 1
      cases tx.current <;> rfl

/-- However its statements were issued, a transaction commits all of them or none. -/
theorem commit_after (hbegin : f.beginFails = false) (s : σ) (es : List ε) :
    ((⟨s, some s, 0⟩ : Tx σ).after step f es).commit f =
      ((attempt step f s es).getD s, (attempt step f s es).isNone) := by
  have hcurrent := @current_after _ _ step f ⟨s, some s, 0⟩ es
  simp only [zero_add, Option.bind_some] at hcurrent
  rw [commit, hcurrent, attempt]
  by_cases hstmts : ∀ i < es.length, f.stmtFails i = false
  · have hclean : f.Clean es.length ↔ f.commitFails = false :=
      ⟨fun h => h.2.2, fun h => ⟨hbegin, hstmts, h⟩⟩
    rw [if_pos hstmts]
    cases hrun : es.foldlM step s with
    | none => simp
    | some s' =>
      cases hcommit : f.commitFails with
      | false => simp [if_pos (hclean.2 hcommit)]
      | true => simp [if_neg (mt hclean.1 (by simp [hcommit]))]
  · rw [if_neg hstmts, if_neg fun h => hstmts h.2.1]
    simp

/-- After a failing statement the commit is a rollback. -/
theorem commit_lost {tx : Tx σ} {e : ε} (h : (tx.exec step f e).2 = true) (es : List ε) :
    ((tx.exec step f e).1.after step f es).commit f = (tx.saved, true) := by
  have hlost : ((tx.exec step f e).1.after step f es).current = none := by
    have hnone : (tx.exec step f e).1.current = none := Option.isNone_iff_eq_none.1 h
    rw [current_after, hnone, Option.bind_none, ite_self]
  rw [commit, hlost, saved_after]
  rfl

/-! ### The two loops -/

/-- A loop that returns at the first error has issued all statements, or the transaction is
lost. -/
theorem execAll_cases (tx : Tx σ) (es : List ε) :
    tx.execAll step f es = (tx.after step f es, false) ∨
      (tx.execAll step f es).2 = true ∧ (tx.execAll step f es).1.saved = tx.saved ∧
        (tx.after step f es).current = none := by
  induction es generalizing tx with
  | nil => exact .inl rfl
  | cons e es ih =>
    rw [execAll, after_cons]
    cases hnext : (tx.exec step f e).1.current with
    | none =>
      have herr : (tx.exec step f e).2 = true := by simpa [exec] using hnext
      right
      simp only [herr, if_true, true_and]
      refine ⟨rfl, ?_⟩
      rw [current_after, hnext]
      simp
    | some s =>
      have herr : (tx.exec step f e).2 = false := by
        simp only [exec] at hnext ⊢
        rw [hnext]
        rfl
      simp only [herr, Bool.false_eq_true, if_false]
      exact ih (tx.exec step f e).1

/-- A loop that counts goes on to the end. -/
theorem execCount_fst (tx : Tx σ) (es : List ε) :
    (tx.execCount step f es).1 = tx.after step f es := by
  induction es generalizing tx with
  | nil => rfl
  | cons e es ih => exact ih _

theorem execCount_snd (tx : Tx σ) (es : List ε) :
    (tx.execCount step f es).2 =
      tx.current.elim 0 fun s => succeeded step f tx.issued s es := by
  induction es generalizing tx with
  | nil => cases tx.current <;> rfl
  | cons e es ih =>
    have hcount : (tx.execCount step f (e :: es)).2 =
        if (tx.exec step f e).2 then ((tx.exec step f e).1.execCount step f es).2
        else ((tx.exec step f e).1.execCount step f es).2 + 1 := rfl
    rw [hcount, ih]
    cases hs : tx.current with
    | none => simp [exec, hs]
    | some s =>
      cases hfail : f.stmtFails tx.issued with
      | true => simp [exec, succeeded, hfail]
      | false =>
        cases hstep : step s e <;> simp [exec, succeeded, hfail, hs, hstep]

theorem succeeded_eq_length {i : ℕ} {s : σ} {es : List ε}
    (hfail : ∀ j < es.length, f.stmtFails (i + j) = false) (hrun : es.foldlM step s ≠ none) :
    succeeded step f i s es = es.length := by
  induction es generalizing i s with
  | nil => rfl
  | cons e es ih =>
    have h0 : f.stmtFails i = false := hfail 0 (by simp)
    rw [List.foldlM_cons] at hrun
    cases hstep : step s e with
    | none => simp [hstep] at hrun
    | some s' =>
      have hrest : es.foldlM step s' ≠ none := by simpa [hstep] using hrun
      have hfail' : ∀ j < es.length, f.stmtFails (i + 1 + j) = false := by
        intro j hj
        rw [add_assoc, add_comm 1]
        exact hfail (j + 1) (by simpa using hj)
      simp [succeeded, h0, hstep, ih hfail' hrest]

/-- In a transaction that is not lost the loop has counted all statements. -/
theorem execCount_eq_length {tx : Tx σ} {es : List ε}
    (h : (tx.after step f es).current ≠ none) : (tx.execCount step f es).2 = es.length := by
  rw [current_after] at h
  split_ifs at h with hfail
  · obtain ⟨s, hs⟩ : ∃ s, tx.current = some s := by
      cases hs : tx.current with
      | none => simp [hs] at h
      | some s => exact ⟨s, rfl⟩
    rw [execCount_snd, hs]
    exact succeeded_eq_length hfail (by simpa [hs] using h)
  · exact absurd rfl h

/-- In a lost transaction it does not matter what is executed. -/
theorem exec_congr {tx : Tx σ} {e e' : ε} (h : tx.current ≠ none → e = e') :
    tx.exec step f e = tx.exec step f e' := by
  cases hc : tx.current with
  | none => simp [exec, hc]
  | some s => rw [h (by simp [hc])]

/-- A rollback at the first error is what the commit would have been. -/
theorem rollback_or_commit (tx : Tx σ) (es : List ε) :
    (if (tx.execAll step f es).2 then ((tx.execAll step f es).1.rollback, true)
      else (tx.execAll step f es).1.commit f) = (tx.after step f es).commit f := by
  rcases @execAll_cases _ _ step f tx es with h | ⟨herr, hsaved, hlost⟩
  · rw [h, if_neg Bool.false_ne_true]
  · rw [if_pos herr, rollback, hsaved, commit, hlost, saved_after]

end Tx
end Transaction
