import Mathlib.Tactic

/-!
# Runs of event-driven systems

A system is a step function `σ → ε → σ` over states and events; an event that is not
enabled in a state leaves it unchanged.  `run step s es` is the state after the events
`es`.

* `run_invariant`, `trace_invariant`: what every step keeps, every run keeps; the second
  form lets the invariant speak about the events that happened so far;
* `eq_of_counter`: a counter tells apart the places of a run at which it goes up;
* `Along step P s es`: every step of the run meets `P` in the state before it, with the
  corresponding induction rule `along_invariant`, and `along_iff` for a `P` that is exact;
* `LastWrite`: the last value written to a register that most events leave alone, and
  `register_run`: a view that is such a register shows it;
* `run_map`: a view that every event changes by itself runs by itself;
* `run_filter`: a relation that some events do not disturb holds between a run and the run
  without them;
* `run_project`: a view of the state that some events do not touch depends only on the
  remaining events (the unwinding argument for noninterference).
-/

namespace EventRun

variable {σ ε ω : Type*} {step : σ → ε → σ}

/-- The state after the events `es`. -/
def run (step : σ → ε → σ) (s : σ) (es : List ε) : σ := es.foldl step s

@[simp] theorem run_nil (s : σ) : run step s [] = s := rfl

@[simp] theorem run_cons (s : σ) (e : ε) (es : List ε) :
    run step s (e :: es) = run step (step s e) es := rfl

@[simp] theorem run_append (s : σ) (es fs : List ε) :
    run step s (es ++ fs) = run step (run step s es) fs := List.foldl_append

theorem run_concat (s : σ) (es : List ε) (e : ε) :
    run step s (es ++ [e]) = step (run step s es) e := by simp

/-! ### Invariants -/

/-- An invariant of the steps is an invariant of the runs. -/
theorem run_invariant (Inv : σ → Prop) (hstep : ∀ s e, Inv s → Inv (step s e)) {s : σ}
    (h0 : Inv s) (es : List ε) : Inv (run step s es) := by
  induction es generalizing s with
  | nil => exact h0
  | cons e es ih => exact ih (hstep s e h0)

/-- An invariant that also speaks about the past events. -/
theorem trace_invariant (Inv : List ε → σ → Prop) {s : σ} (h0 : Inv [] s)
    (hstep : ∀ es e, Inv es (run step s es) → Inv (es ++ [e]) (step (run step s es) e))
    (es : List ε) : Inv es (run step s es) := by
  induction es using List.reverseRecOn with
  | nil => exact h0
  | append_singleton es e ih =>
    rw [run_concat]
    exact hstep es e ih

/-- A counter that no step lowers tells apart the places of a run at which it goes up. -/
theorem eq_of_counter {count : σ → ℕ} (hmono : ∀ s e, count s ≤ count (step s e)) (s : σ)
    {es pre pre' : List ε} {e e' : ε} (h : pre ++ [e] <+: es) (h' : pre' ++ [e'] <+: es)
    (hup : count (run step s pre) < count (run step s (pre ++ [e])))
    (hup' : count (run step s pre') < count (run step s (pre' ++ [e'])))
    (heq : count (run step s pre) = count (run step s pre')) : pre = pre' := by
  have hle : ∀ {pre pre' : List ε} {e : ε}, pre ++ [e] <+: es → pre' <+: es →
      count (run step s pre) < count (run step s (pre ++ [e])) →
      count (run step s pre') ≤ count (run step s pre) → pre'.length ≤ pre.length := by
    intro pre pre' e h h' hup hcount
    by_contra hlt
    obtain ⟨mid, rfl⟩ : pre ++ [e] <+: pre' :=
      List.prefix_of_prefix_length_le h h' (by simpa using Nat.lt_of_not_le hlt)
    have hlater : count (run step s (pre ++ [e])) ≤ count (run step s (pre ++ [e] ++ mid)) := by
      rw [run_append _ (pre ++ [e])]
      exact run_invariant (fun s' => count (run step s (pre ++ [e])) ≤ count s')
        (fun s' e hs => hs.trans (hmono s' e)) le_rfl mid
    omega
  have hpre : pre <+: es := (List.prefix_append _ _).trans h
  have hpre' : pre' <+: es := (List.prefix_append _ _).trans h'
  refine (List.prefix_of_prefix_length_le hpre hpre' ?_).eq_of_length ?_
  · exact hle h' hpre hup' heq.le
  · exact le_antisymm (hle h' hpre hup' heq.le) (hle h hpre' hup heq.ge)

/-- Every step of the run meets `P`, in the state before the step. -/
def Along (step : σ → ε → σ) (P : σ → ε → Prop) : σ → List ε → Prop
  | _, [] => True
  | s, e :: es => P s e ∧ Along step P (step s e) es

variable {P : σ → ε → Prop}

@[simp] theorem along_nil (s : σ) : Along step P s [] := trivial

@[simp] theorem along_cons (s : σ) (e : ε) (es : List ε) :
    Along step P s (e :: es) ↔ P s e ∧ Along step P (step s e) es := Iff.rfl

@[simp] theorem along_append (s : σ) (es fs : List ε) :
    Along step P s (es ++ fs) ↔ Along step P s es ∧ Along step P (run step s es) fs := by
  induction es generalizing s with
  | nil => simp
  | cons e es ih => simp [ih, and_assoc]

theorem along_concat (s : σ) (es : List ε) (e : ε) :
    Along step P s (es ++ [e]) ↔ Along step P s es ∧ P (run step s es) e := by simp

/-- An invariant of the steps that meet `P`. -/
theorem along_invariant (Inv : List ε → σ → Prop) {s : σ} (h0 : Inv [] s)
    (hstep : ∀ es e, Inv es (run step s es) → P (run step s es) e →
      Inv (es ++ [e]) (step (run step s es) e))
    (es : List ε) (hP : Along step P s es) : Inv es (run step s es) := by
  induction es using List.reverseRecOn with
  | nil => exact h0
  | append_singleton es e ih =>
    rw [along_concat] at hP
    rw [run_concat]
    exact hstep es e (ih hP.1) hP.2

/-- If `P` is the exact condition for a step to keep `Good`, a run meets `P` at every step
exactly when every state it reaches is good. -/
theorem along_iff (Good : σ → Prop) (h : ∀ s e, Good s → (Good (step s e) ↔ P s e)) {s : σ}
    (h0 : Good s) (es : List ε) :
    Along step P s es ↔ ∀ fs, fs <+: es → Good (run step s fs) := by
  induction es generalizing s with
  | nil => simp [h0]
  | cons e es ih =>
    rw [along_cons]
    constructor
    · rintro ⟨he, hes⟩ fs hfs
      cases fs with
      | nil => exact h0
      | cons f fs =>
        obtain ⟨rfl, hfs'⟩ := List.cons_prefix_cons.1 hfs
        exact (ih ((h s f h0).2 he)).1 hes fs hfs'
    · intro hgood
      have hnext : Good (step s e) := hgood [e] (by simp)
      exact ⟨(h s e h0).1 hnext, (ih hnext).2 fun fs hfs =>
        hgood (e :: fs) (List.cons_prefix_cons.2 ⟨rfl, hfs⟩)⟩

/-- A condition on the events alone. -/
theorem along_const {Q : ε → Prop} (s : σ) (es : List ε) :
    Along step (fun _ e => Q e) s es ↔ ∀ e ∈ es, Q e := by
  induction es generalizing s with
  | nil => simp
  | cons e es ih => rw [along_cons, ih, List.forall_mem_cons]

/-! ### The last write -/

variable {ρ : Type*}

/-- The last of the events that writes anything writes `r`. -/
def LastWrite (step : σ → ε → σ) (write : σ → ε → Option ρ) (s : σ) (es : List ε) (r : ρ) : Prop :=
  ∃ pre e post, es = pre ++ e :: post ∧ write (run step s pre) e = some r ∧
    Along step (fun s e => write s e = none) (run step s (pre ++ [e])) post

variable {write : σ → ε → Option ρ}

theorem lastWrite_nil (s : σ) (r : ρ) : ¬ LastWrite step write s [] r := by
  rintro ⟨pre, e, post, h, -⟩
  simp at h

/-- One more event. -/
theorem lastWrite_concat {s : σ} {es : List ε} {e : ε} {r : ρ} :
    LastWrite step write s (es ++ [e]) r ↔
      write (run step s es) e = some r ∨
        write (run step s es) e = none ∧ LastWrite step write s es r := by
  constructor
  · rintro ⟨pre, e', post, h, hwrite, hpost⟩
    rcases List.eq_nil_or_concat post with rfl | ⟨post, f, rfl⟩
    · obtain ⟨rfl, rfl⟩ := List.append_inj' h rfl
        |>.imp_right fun hlast => List.singleton_inj.1 hlast
      exact .inl hwrite
    · rw [List.concat_eq_append] at h hpost
      rw [← List.cons_append, ← List.append_assoc] at h
      obtain ⟨rfl, hlast⟩ := List.append_inj' h rfl
      obtain rfl := List.singleton_inj.1 hlast
      rw [along_concat, ← run_append, List.append_assoc, List.singleton_append] at hpost
      exact .inr ⟨hpost.2, pre, e', post, rfl, hwrite, hpost.1⟩
  · rintro (hwrite | ⟨hnone, pre, e', post, rfl, hwrite, hpost⟩)
    · exact ⟨es, e, [], rfl, hwrite, trivial⟩
    · refine ⟨pre, e', post ++ [e], by simp, hwrite, ?_⟩
      rw [along_concat, ← run_append, List.append_assoc, List.singleton_append]
      exact ⟨hpost, hnone⟩

/-- A register holds what was written last, or its first value while nothing is written.  The
invariant may restrict the states in which events write as `write` says. -/
theorem register_run {view : σ → ρ} (Inv : σ → Prop) (hinv : ∀ s e, Inv s → Inv (step s e))
    (hwrite : ∀ s e r, Inv s → write s e = some r → view (step s e) = r)
    (hkeep : ∀ s e, Inv s → write s e = none → view (step s e) = view s) {s : σ} (h0 : Inv s)
    (es : List ε) :
    (∀ r, LastWrite step write s es r → view (run step s es) = r) ∧
      (Along step (fun s e => write s e = none) s es → view (run step s es) = view s) := by
  induction es using List.reverseRecOn with
  | nil => exact ⟨fun r h => (lastWrite_nil s r h).elim, fun _ => rfl⟩
  | append_singleton es e ih =>
    have hs : Inv (run step s es) := run_invariant Inv hinv h0 es
    rw [run_concat]
    constructor
    · intro r h
      rcases lastWrite_concat.1 h with hw | ⟨hnone, hlast⟩
      · exact hwrite _ e r hs hw
      · rw [hkeep _ e hs hnone]
        exact ih.1 r hlast
    · intro h
      obtain ⟨hes, hnone⟩ := (along_concat s es e).1 h
      rw [hkeep _ e hs hnone]
      exact ih.2 hes

/-! ### Views -/

/-- A view that every event changes by itself. -/
theorem run_map {view : σ → ω} {vstep : ω → ε → ω}
    (h : ∀ s e, view (step s e) = vstep (view s) e) (s : σ) (es : List ε) :
    view (run step s es) = run vstep (view s) es :=
  (List.foldl_hom view fun s e => (h s e).symm).symm

/-- A view that the events outside `vis` leave alone is a function of the others. -/
theorem run_project {view : σ → ω} {vstep : ω → ε → ω} {vis : ε → Prop} [DecidablePred vis]
    (hvis : ∀ s e, vis e → view (step s e) = vstep (view s) e)
    (hinv : ∀ s e, ¬ vis e → view (step s e) = view s) (s : σ) (es : List ε) :
    view (run step s es) = run vstep (view s) (es.filter vis) := by
  induction es generalizing s with
  | nil => rfl
  | cons e es ih =>
    by_cases he : vis e
    · rw [run_cons, ih, hvis s e he, List.filter_cons_of_pos (by simpa using he), run_cons]
    · rw [run_cons, ih, hinv s e he, List.filter_cons_of_neg (by simpa using he)]

/-- A relation that the events in `vis` keep on both sides, and the others on the left, relates
a run to the run of the events in `vis`. -/
theorem run_filter (R : σ → σ → Prop) (vis : ε → Prop) [DecidablePred vis]
    (hvis : ∀ s s' e, vis e → R s s' → R (step s e) (step s' e))
    (hinv : ∀ s s' e, ¬ vis e → R s s' → R (step s e) s') {s s' : σ} (h : R s s') (es : List ε) :
    R (run step s es) (run step s' (es.filter vis)) := by
  induction es generalizing s s' with
  | nil => exact h
  | cons e es ih =>
    by_cases he : vis e
    · rw [List.filter_cons_of_pos (by simpa using he)]
      exact ih (hvis s s' e he h)
    · rw [List.filter_cons_of_neg (by simpa using he)]
      exact ih (hinv s s' e he h)

end EventRun
