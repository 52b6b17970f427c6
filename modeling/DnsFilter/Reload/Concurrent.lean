import DnsFilter.Lib.Interleaving
import DnsFilter.Reload.Window

/-!
# Concurrent reloads

Any number of reloads run at once, each having read its own snapshot of the lists, and
their `Clear` and `Add` steps interleave freely; there are no local list files.

When all have finished, a list holds the snapshot of the reload that cleared it last and
whatever other reloads added after that `Clear` (`list_after_last_clear`).  The outcome is
one of the snapshots exactly when some snapshot accounts for both lists
(`serialisable_iff`), for example when the reload that clears them last is the only one
still running from then on (`serialisable_of_undisturbed`).
-/

namespace DnsFilter

open Blacklist EventRun Interleaving

/-- The path a reload takes; the callback also loads the policy tables. -/
inductive ReloadPath
  | notify (categories : Option (List (Σ _ : ℤ, List GoString))) (policies : Option Policies)
  | reloadLists
  | downloadLists

/-- A reload that has read a snapshot of the lists. -/
structure SnapshotReload where
  snapshot : LoadedLists
  path : ReloadPath

/-- The list of a snapshot. -/
def LoadedLists.list (s : LoadedLists) : ListKind → List GoString
  | .black => s.1
  | .white => s.2

/-- The reload, with no local list files. -/
def SnapshotReload.reload (r : SnapshotReload) : Reload :=
  match r.path with
  | .notify categories policies =>
      .notify ⟨.missing, .missing⟩ r.snapshot categories policies
  | .reloadLists => .reloadLists r.snapshot
  | .downloadLists => .downloadLists r.snapshot

/-- A complete execution of concurrent reloads. -/
structure ConcurrentRun {n : ℕ} (reloads : Fin (n + 1) → SnapshotReload) where
  trace : List (Fin (n + 1) × ReloadStep)
  interleaves : Interleaves trace fun i => (reloads i).reload.steps

/-- `c` performs the last `Clear` of a list; `post` is what happens afterwards. -/
structure LastClear {n : ℕ} (l : ListKind) (trace : List (Fin (n + 1) × ReloadStep))
    (c : Fin (n + 1)) (post : List (Fin (n + 1) × ReloadStep)) : Prop where
  split : ∃ pre, trace = pre ++ (c, .clear l) :: post
  last : ∀ j, (j, .clear l) ∉ post

/-- The domains that reloads other than `c` add to a list. -/
def addsOfOthers {n : ℕ} (l : ListKind) (c : Fin (n + 1))
    (post : List (Fin (n + 1) × ReloadStep)) : List GoString :=
  addsTo l ((post.filter (·.1 ≠ c)).map (·.2))

/-! ### The program of one reload -/

theorem addsTo_tables (l : ListKind) (categories : Option (List (Σ _ : ℤ, List GoString)))
    (policies : Option Policies) :
    addsTo l (categories.toList.map .loadCategories ++ policies.toList.map .loadPolicies) = [] := by
  cases categories <;> cases policies <;> rfl

/-- A reload clears each list once and afterwards adds its whole snapshot to it. -/
theorem SnapshotReload.steps_split (r : SnapshotReload) (l : ListKind) :
    ∃ p q, r.reload.steps = p ++ .clear l :: q ∧ .clear l ∉ p ∧ .clear l ∉ q ∧
      addsTo l q = r.snapshot.list l := by
  obtain ⟨tables, htables, hsteps⟩ : ∃ tables, (addsTo l tables = [] ∧ .clear l ∉ tables) ∧
      r.reload.steps = replaceSteps r.snapshot ++ tables := by
    obtain ⟨snapshot, path⟩ := r
    cases path with
    | notify categories policies =>
      refine ⟨_, ⟨addsTo_tables l categories policies, by simp⟩, ?_⟩
      simp [reload, Reload.steps, notifySteps, fileSteps, ListFile.domains]
    | reloadLists => exact ⟨[], ⟨rfl, by simp⟩, by simp [reload, Reload.steps]⟩
    | downloadLists => exact ⟨[], ⟨rfl, by simp⟩, by simp [reload, Reload.steps]⟩
  have hadds : addsTo l (r.snapshot.1.map (.add .black) ++ r.snapshot.2.map (.add .white) ++
      tables) = r.snapshot.list l := by
    rw [addsTo_append, addsTo_append, addsTo_map_add, addsTo_map_add, htables.1]
    cases l <;> simp [LoadedLists.list]
  cases l with
  | black =>
    refine ⟨[], .clear .white :: (r.snapshot.1.map (.add .black) ++
      r.snapshot.2.map (.add .white) ++ tables), by simp [hsteps, replaceSteps], by simp,
      by simpa using htables.2, ?_⟩
    simpa [addsTo] using hadds
  | white =>
    exact ⟨[.clear .black], r.snapshot.1.map (.add .black) ++ r.snapshot.2.map (.add .white) ++
      tables, by simp [hsteps, replaceSteps], by simp, by simpa using htables.2, hadds⟩

section Outcome

variable {n : ℕ} {reloads : Fin (n + 1) → SnapshotReload}

theorem exists_lastClear (cr : ConcurrentRun reloads) (l : ListKind) :
    ∃ c post, LastClear l cr.trace c post := by
  obtain ⟨p, q, hsteps, -, -, -⟩ := (reloads 0).steps_split l
  have hmem : ((0 : Fin (n + 1)), ReloadStep.clear l) ∈ cr.trace := by
    rw [← mem_thread, cr.interleaves 0]
    simp [hsteps]
  obtain ⟨pre, ⟨c, s⟩, post, htr, rfl, hpost⟩ :=
    exists_last_split (P := fun e : Fin (n + 1) × ReloadStep => e.2 = .clear l) ⟨_, hmem, rfl⟩
  exact ⟨c, post, ⟨pre, htr⟩, fun j hj => hpost _ hj rfl⟩

variable [Unicode]

/-- The engine when all reloads have finished. -/
def ConcurrentRun.final (cr : ConcurrentRun reloads) (e : Engine) : Engine :=
  run ReloadStep.apply e (cr.trace.map (·.2))

/-- The lists are exactly those of one of the snapshots. -/
def Serialisable (cr : ConcurrentRun reloads) (e : Engine) : Prop :=
  ∃ i, ∀ l, ((cr.final e).list l).domains = normalized ((reloads i).snapshot.list l)

/-- **After the last `Clear` of a list, the list fills with the snapshot of the reload that
cleared it and with whatever the other reloads still had to add.** -/
theorem list_after_last_clear (cr : ConcurrentRun reloads) (e : Engine) {l : ListKind}
    {c : Fin (n + 1)} {post : List (Fin (n + 1) × ReloadStep)} (h : LastClear l cr.trace c post) :
    ((cr.final e).list l).domains =
      normalized ((reloads c).snapshot.list l) ∪ normalized (addsOfOthers l c post) := by
  obtain ⟨pre, htr⟩ := h.split
  have hno : .clear l ∉ post.map (·.2) := by
    intro hmem
    obtain ⟨⟨j, s⟩, hj, rfl⟩ := List.mem_map.1 hmem
    exact h.last j hj
  have hown : addsTo l (thread c post) = (reloads c).snapshot.list l := by
    obtain ⟨p, q, hsteps, hp, hq, hadds⟩ := (reloads c).steps_split l
    have hil := cr.interleaves
    rw [htr] at hil
    rw [thread_after hil hsteps hp hq, hadds]
  have hfinal : ((cr.final e).list l).domains = normalized (addsTo l (post.map (·.2))) := by
    rw [ConcurrentRun.final, htr, List.map_append, List.map_cons, run_append, run_cons,
      list_run_of_no_clear hno, list_apply_clear, if_pos rfl]
    simp
  rw [hfinal, ← hown]
  ext d
  simp only [Finset.mem_union, mem_normalized, mem_addsTo, addsOfOthers, mem_thread,
    List.mem_map, List.mem_filter, Prod.exists, exists_eq_right, decide_eq_true_eq]
  constructor
  · rintro ⟨d', ⟨j, hj⟩, rfl⟩
    by_cases hjc : j = c
    · exact .inl ⟨d', hjc ▸ hj, rfl⟩
    · exact .inr ⟨d', ⟨j, hj, hjc⟩, rfl⟩
  · rintro (⟨d', hd', rfl⟩ | ⟨d', ⟨j, hj, -⟩, rfl⟩)
    · exact ⟨d', ⟨c, hd'⟩, rfl⟩
    · exact ⟨d', ⟨j, hj⟩, rfl⟩

/-- Some snapshot accounts, in both lists, for the snapshot of the reload that cleared the
list last together with what other reloads add after that `Clear`. -/
def SnapshotAbsorbs (cr : ConcurrentRun reloads) : Prop :=
  ∃ i, ∀ l c post, LastClear l cr.trace c post →
    normalized ((reloads i).snapshot.list l) =
      normalized ((reloads c).snapshot.list l) ∪ normalized (addsOfOthers l c post)

/-- **Concurrent reloads leave the lists of one snapshot exactly when one snapshot absorbs
what is added to each list from its last `Clear` on.** -/
theorem serialisable_iff (cr : ConcurrentRun reloads) (e : Engine) :
    Serialisable cr e ↔ SnapshotAbsorbs cr := by
  refine exists_congr fun i => forall_congr' fun l => ?_
  constructor
  · intro h c post hc
    rw [← h, list_after_last_clear cr e hc]
  · intro h
    obtain ⟨c, post, hc⟩ := exists_lastClear cr l
    rw [list_after_last_clear cr e hc, h c post hc]

/-- When the reload that clears both lists last has them to itself from then on, the lists
are its snapshot. -/
theorem serialisable_of_undisturbed (cr : ConcurrentRun reloads) (e : Engine) {c : Fin (n + 1)}
    (hc : ∀ l c' post, LastClear l cr.trace c' post → c' = c ∧ ∀ s ∈ post, s.1 = c) :
    Serialisable cr e := by
  refine ⟨c, fun l => ?_⟩
  obtain ⟨c', post, h⟩ := exists_lastClear cr l
  obtain ⟨rfl, hpost⟩ := hc l c' post h
  have hnone : post.filter (·.1 ≠ c') = [] := by
    simpa [List.filter_eq_nil_iff] using hpost
  rw [list_after_last_clear cr e h, addsOfOthers, hnone]
  simp [addsTo, normalized]

end Outcome

/-! ### Two reloads that overlap -/

/-- Two endpoint reloads, of the lists `old.com` and `new.com`. -/
def twoReloads : Fin 2 → SnapshotReload
  | 0 => ⟨(["old.com".toList], []), .reloadLists⟩
  | 1 => ⟨(["new.com".toList], []), .downloadLists⟩

/-- Both clear the lists before either adds its domain. -/
def overlappingRun : ConcurrentRun twoReloads where
  trace := [(0, .clear .black), (0, .clear .white), (1, .clear .black), (1, .clear .white),
    (0, .add .black "old.com".toList), (1, .add .black "new.com".toList)]
  interleaves := by
    intro i
    fin_cases i <;> rfl

/-- The overlapping reloads leave a blacklist with the domains of both snapshots. -/
theorem overlapping_reloads_mix :
    ¬ @Serialisable 1 twoReloads asciiTable overlappingRun (Engine.new new new) := by
  rintro ⟨i, hi⟩
  have hb := hi .black
  revert hb
  fin_cases i <;> decide

end DnsFilter
