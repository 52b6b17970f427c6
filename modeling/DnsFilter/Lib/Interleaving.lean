import Mathlib.Tactic

/-!
# Interleavings of finite programs

Threads `i : ι` run finite programs of atomic steps over one shared state.  A trace records
which thread takes which step; it interleaves the programs when every thread, looked at
alone, runs its own program from beginning to end.

`thread_after` recovers what a thread still does after a step that occurs once in its
program, and `exists_last_split` cuts a trace at the last step of a given kind.
-/

namespace Interleaving

variable {ι α : Type*} [DecidableEq ι]

/-- The steps of one thread. -/
def thread (i : ι) (tr : List (ι × α)) : List α := (tr.filter (·.1 = i)).map (·.2)

@[simp] theorem thread_nil (i : ι) : thread i ([] : List (ι × α)) = [] := rfl

@[simp] theorem thread_append (i : ι) (tr tr' : List (ι × α)) :
    thread i (tr ++ tr') = thread i tr ++ thread i tr' := by simp [thread]

@[simp] theorem thread_cons_self (i : ι) (a : α) (tr : List (ι × α)) :
    thread i ((i, a) :: tr) = a :: thread i tr := by simp [thread]

theorem mem_thread {i : ι} {a : α} {tr : List (ι × α)} : a ∈ thread i tr ↔ (i, a) ∈ tr := by
  simp [thread]

/-- Every thread runs its program from beginning to end. -/
def Interleaves (tr : List (ι × α)) (progs : ι → List α) : Prop := ∀ i, thread i tr = progs i

/-- After a step that occurs once in the program of its thread, the rest of the program
remains. -/
theorem thread_after {progs : ι → List α} {pre post : List (ι × α)} {i : ι} {a : α}
    (h : Interleaves (pre ++ (i, a) :: post) progs) {p q : List α} (hpq : progs i = p ++ a :: q)
    (hp : a ∉ p) (hq : a ∉ q) : thread i post = q := by
  have hi := h i
  rw [thread_append, thread_cons_self, hpq] at hi
  exact ((List.append_cons_inj_of_notMem hp hq).1 hi.symm).2.2.symm

omit [DecidableEq ι] in
/-- A list with an element satisfying `P` splits at the last such element. -/
theorem exists_last_split {β : Type*} {P : β → Prop} {l : List β} (h : ∃ x ∈ l, P x) :
    ∃ pre x post, l = pre ++ x :: post ∧ P x ∧ ∀ y ∈ post, ¬ P y := by
  induction l with
  | nil => simp at h
  | cons z l ih =>
    by_cases hl : ∃ x ∈ l, P x
    · obtain ⟨pre, x, post, rfl, hx, hpost⟩ := ih hl
      exact ⟨z :: pre, x, post, rfl, hx, hpost⟩
    · push Not at hl
      obtain ⟨x, hx, hPx⟩ := h
      rcases List.mem_cons.1 hx with rfl | hx
      · exact ⟨[], x, l, rfl, hPx, hl⟩
      · exact absurd hPx (hl x hx)

end Interleaving
