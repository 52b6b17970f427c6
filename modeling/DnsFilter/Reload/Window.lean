import DnsFilter.Reload.Paths

/-!
# Queries during a reload

`EvaluateForGroup` reads the whitelist, the blacklist and the policy tables in three
separate locked steps, and a reload is a sequence of locked steps that starts by clearing
both lists.  A `CallInterleaving` places the three reads among the steps of a reload.

`contains_after` describes a list in the middle of a reload: between its `Clear` and the
first `Add` of an entry that covers the domain the list is *open* for that domain.
`no_fail_open_iff` says that a query keeps the decision that the old and the new lists
agree on exactly when its reads stay out of this window, or a later read happens to give
the same action.
-/

namespace DnsFilter

open Blacklist EventRun

/-- A reload of the running process, with what its queries returned.  A reload whose list
query fails performs no step. -/
inductive Reload
  | notify (files : ListFiles) (lists : LoadedLists)
      (categories : Option (List (Σ _ : ℤ, List GoString))) (policies : Option Policies)
  | reloadLists (lists : LoadedLists)
  | downloadLists (lists : LoadedLists)

/-- The locked steps of a reload. -/
def Reload.steps : Reload → List ReloadStep
  | .notify files lists categories policies => notifySteps files lists categories policies
  | .reloadLists lists => replaceSteps lists
  | .downloadLists lists => replaceSteps lists

/-- Both lists are cleared first and never again. -/
theorem Reload.steps_eq (r : Reload) : ∃ rest, r.steps = .clear .black :: .clear .white :: rest ∧
    ∀ l, .clear l ∉ rest := by
  cases r with
  | notify files lists categories policies =>
    refine ⟨_, rfl, fun l => ?_⟩
    simp [fileSteps]
  | reloadLists lists => exact ⟨_, rfl, fun l => by simp⟩
  | downloadLists lists => exact ⟨_, rfl, fun l => by simp⟩

/-- The steps of a reload around the three reads of one evaluation. -/
structure CallInterleaving (steps : List ReloadStep) where
  beforeWhite : List ReloadStep
  beforeBlack : List ReloadStep
  beforePolicy : List ReloadStep
  afterwards : List ReloadStep
  steps_eq : beforeWhite ++ beforeBlack ++ beforePolicy ++ afterwards = steps

namespace CallInterleaving

variable {steps : List ReloadStep} (i : CallInterleaving steps)

/-- The steps done when the blacklist is read. -/
def untilBlack : List ReloadStep := i.beforeWhite ++ i.beforeBlack

/-- The steps done when the policy tables are read. -/
def untilPolicy : List ReloadStep := i.beforeWhite ++ i.beforeBlack ++ i.beforePolicy

theorem beforeWhite_prefix : i.beforeWhite <+: steps :=
  ⟨i.beforeBlack ++ (i.beforePolicy ++ i.afterwards), by simp [← i.steps_eq]⟩

theorem untilBlack_prefix : i.untilBlack <+: steps :=
  ⟨i.beforePolicy ++ i.afterwards, by simp [untilBlack, ← i.steps_eq]⟩

end CallInterleaving

section Window

variable [Unicode]

/-- `EvaluateForGroup` with the steps of a reload between its reads. -/
def interleavedCall (e : Engine) {steps : List ReloadStep} (i : CallInterleaving steps)
    (domain : GoString) (groupID : ℤ) : Result :=
  let e₁ := run ReloadStep.apply e i.beforeWhite
  if e₁.whitelist.contains domain then { action := .allow, reason := "whitelist" }
  else
    let e₂ := run ReloadStep.apply e₁ i.beforeBlack
    if e₂.blacklist.contains domain then { action := .block, reason := "blacklist" }
    else
      let e₃ := run ReloadStep.apply e₂ i.beforePolicy
      match e₃.policyCheck domain groupID with
      | some catID => { action := .block, reason := "category", categoryID := catID }
      | none => { action := .allow }

/-- A call that no reload step interrupts is an evaluation of one engine state. -/
theorem interleavedCall_atomic (e : Engine) {steps : List ReloadStep}
    (i : CallInterleaving steps) (h : i.beforeBlack = []) (h' : i.beforePolicy = [])
    (domain : GoString) (groupID : ℤ) :
    interleavedCall e i domain groupID =
      (run ReloadStep.apply e i.beforeWhite).evaluateForGroup domain groupID := by
  obtain ⟨beforeWhite, _, _, afterwards, hsteps⟩ := i
  subst h h'
  rfl

/-- The action of an interleaved call, as a function of its three reads. -/
theorem interleavedCall_action (e : Engine) {steps : List ReloadStep}
    (i : CallInterleaving steps) (domain : GoString) (groupID : ℤ) :
    (interleavedCall e i domain groupID).action = .allow ↔
      ((run ReloadStep.apply e i.beforeWhite).list .white).contains domain ∨
        (((run ReloadStep.apply e i.untilBlack).list .black).contains domain = false ∧
          (run ReloadStep.apply e i.untilPolicy).policyCheck domain groupID = none) := by
  simp only [CallInterleaving.untilBlack, CallInterleaving.untilPolicy, run_append, Engine.list,
    interleavedCall]
  split_ifs with hw hb
  · simp [hw]
  · simp [hw, hb]
  · simp only [hw, hb, true_and]
    split
    · rename_i catID hp
      simp [hp]
    · rename_i hp
      simp [hp]

/-! ### A list during a reload -/

/-- The list was cleared and no entry that covers `domain` has been added yet. -/
def OpenFor (l : ListKind) (done : List ReloadStep) (domain : GoString) : Prop :=
  .clear l ∈ done ∧ ∀ x, .add l x ∈ done → ¬ Covers x domain

/-- Steps without a `Clear` only add to a list. -/
theorem contains_run_of_no_clear {l : ListKind} {ss : List ReloadStep} (h : .clear l ∉ ss)
    (e : Engine) (domain : GoString) :
    ((run ReloadStep.apply e ss).list l).contains domain ↔
      (∃ x, .add l x ∈ ss ∧ Covers x domain) ∨ (e.list l).contains domain := by
  simp only [list_run_of_no_clear h, contains_addAll, mem_addsTo]

/-- A list after some of the steps of a reload: the old list until it is cleared, then what
has been added. -/
theorem contains_after (r : Reload) {done : List ReloadStep} (h : done <+: r.steps) (e : Engine)
    (l : ListKind) (domain : GoString) :
    ((run ReloadStep.apply e done).list l).contains domain ↔
      (∃ x, .add l x ∈ done ∧ Covers x domain) ∨
        (.clear l ∉ done ∧ (e.list l).contains domain) := by
  obtain ⟨rest, hsteps, hrest⟩ := r.steps_eq
  rw [hsteps] at h
  cases done with
  | nil => simp
  | cons s done =>
    obtain ⟨rfl, h₁⟩ := List.cons_prefix_cons.1 h
    cases done with
    | nil => cases l <;> simp [list_apply_clear, Blacklist.clear]
    | cons s done =>
      obtain ⟨rfl, h₂⟩ := List.cons_prefix_cons.1 h₁
      have hd : .clear l ∉ done := fun hc => hrest l (h₂.subset hc)
      rw [run_cons, run_cons, contains_run_of_no_clear hd]
      cases l <;> simp [list_apply_clear, Blacklist.clear]

/-- A list after the whole reload: exactly what was added. -/
theorem contains_reloaded (r : Reload) (e : Engine) (l : ListKind) (domain : GoString) :
    ((run ReloadStep.apply e r.steps).list l).contains domain ↔
      ∃ x, .add l x ∈ r.steps ∧ Covers x domain := by
  obtain ⟨rest, hsteps, -⟩ := r.steps_eq
  rw [contains_after r (List.prefix_refl _)]
  cases l <;> simp [hsteps]

/-- During a reload between two lists that both contain the domain, the domain is missing
from the list exactly while the list is open for it. -/
theorem contains_during (r : Reload) {done : List ReloadStep} (h : done <+: r.steps) (e : Engine)
    (l : ListKind) {domain : GoString} (hold : (e.list l).contains domain) :
    ((run ReloadStep.apply e done).list l).contains domain = false ↔ OpenFor l done domain := by
  rw [Bool.eq_false_iff, Ne, contains_after r h, OpenFor]
  push Not
  constructor
  · rintro ⟨hadd, hclear⟩
    refine ⟨?_, hadd⟩
    by_contra hc
    exact hclear hc hold
  · rintro ⟨hclear, hadd⟩
    exact ⟨hadd, fun hc => absurd hclear hc⟩

/-- A domain missing from both the old and the new list is missing all along. -/
theorem contains_during_of_not (r : Reload) {done : List ReloadStep} (h : done <+: r.steps)
    (e : Engine) (l : ListKind) {domain : GoString} (hold : (e.list l).contains domain = false)
    (hnew : ((run ReloadStep.apply e r.steps).list l).contains domain = false) :
    ((run ReloadStep.apply e done).list l).contains domain = false := by
  rw [Bool.eq_false_iff, Ne, contains_after r h]
  rintro (⟨x, hx, hc⟩ | ⟨-, hc⟩)
  · rw [Bool.eq_false_iff, Ne, contains_reloaded] at hnew
    exact hnew ⟨x, h.subset hx, hc⟩
  · exact absurd hc (by simp [hold])

/-! ### No fail-open window -/

/-- The global blacklist decides `domain` to be blocked. -/
def DecidedBlock (e : Engine) (domain : GoString) : Prop :=
  (e.list .white).contains domain = false ∧ (e.list .black).contains domain = true

/-- The whitelist decides `domain` to be allowed. -/
def Whitelisted (e : Engine) (domain : GoString) : Prop := (e.list .white).contains domain = true

/-- What the old and the new lists decide alike, the interleaved call decides too. -/
def NoFailOpen (e : Engine) (r : Reload) (i : CallInterleaving r.steps) (domain : GoString)
    (groupID : ℤ) : Prop :=
  let e' := run ReloadStep.apply e r.steps
  (DecidedBlock e domain → DecidedBlock e' domain →
    (interleavedCall e i domain groupID).action = .block) ∧
  (Whitelisted e domain → Whitelisted e' domain →
    (interleavedCall e i domain groupID).action = .allow)

/-- The reads of the call stay out of the window in which a list is open for the domain; or
the blacklist is read in its window but the policy of the group blocks the domain as well;
or the whitelist is read in its window but neither the blacklist nor the policy, when they
are read, block the domain. -/
def StaysOutOfWindow (e : Engine) (r : Reload) (i : CallInterleaving r.steps)
    (domain : GoString) (groupID : ℤ) : Prop :=
  let e' := run ReloadStep.apply e r.steps
  let policy := (run ReloadStep.apply e i.untilPolicy).policyCheck domain groupID
  (DecidedBlock e domain → DecidedBlock e' domain → OpenFor .black i.untilBlack domain →
    policy ≠ none) ∧
  (Whitelisted e domain → Whitelisted e' domain → OpenFor .white i.beforeWhite domain →
    (∀ x, .add .black x ∈ i.untilBlack → ¬ Covers x domain) ∧
    (.clear .black ∈ i.untilBlack ∨ (e.list .black).contains domain = false) ∧ policy = none)

/-- **A call interleaved with a reload keeps the decision that the complete old and the
complete new lists agree on exactly when its reads stay out of the open window.** -/
theorem no_fail_open_iff (e : Engine) (r : Reload) (i : CallInterleaving r.steps)
    (domain : GoString) (groupID : ℤ) :
    NoFailOpen e r i domain groupID ↔ StaysOutOfWindow e r i domain groupID := by
  have hblock : (interleavedCall e i domain groupID).action = .block ↔
      ¬ (interleavedCall e i domain groupID).action = .allow := by
    cases (interleavedCall e i domain groupID).action <;> simp
  refine and_congr (forall_congr' fun hold => forall_congr' fun hnew => ?_)
    (forall_congr' fun hold => forall_congr' fun hnew => ?_)
  · -- the whitelist never contains the domain, so the blacklist read decides
    have hw := contains_during_of_not r i.beforeWhite_prefix e .white hold.1 hnew.1
    rw [hblock, interleavedCall_action, hw, contains_during r i.untilBlack_prefix e .black hold.2]
    simp only [Bool.false_eq_true, false_or, not_and]
  · -- outside its window the whitelist decides; inside, the later reads do
    have hopen := contains_during r i.beforeWhite_prefix e .white hold
    have hblack := contains_after r i.untilBlack_prefix e .black domain
    rw [interleavedCall_action, ← hopen]
    cases ((run ReloadStep.apply e i.beforeWhite).list .white).contains domain with
    | true => simp
    | false =>
      simp only [Bool.false_eq_true, false_or, forall_const]
      rw [Bool.eq_false_iff, Ne, hblack, not_or, not_and_or, not_not, not_exists]
      simp only [not_and, Bool.not_eq_true, and_assoc]

end Window

/-- A reload of an unchanged blacklist: a query that reads the blacklist right after its
`Clear` is allowed. -/
theorem fail_open_window :
    ¬ @NoFailOpen asciiTable
      (Engine.new (@Blacklist.add asciiTable new "ads.test".toList) new)
      (.reloadLists (["ads.test".toList], []))
      ⟨[], [.clear .black], [], [.clear .white, .add .black "ads.test".toList], rfl⟩
      "ads.test".toList 1 := by
  intro h
  have hblock := h.1 ⟨by decide, by decide⟩ ⟨by decide, by decide⟩
  revert hblock
  decide

end DnsFilter
