import DnsFilter.Store.Tables

/-!
# Admin operations

The write operations of `internal/store` and the list refresh of `internal/filter/updater.go`,
each as the statements its transaction executes when none of them fails.
-/

namespace DnsFilter

/-- The admin operations on lists, categories and policies. -/
inductive AdminOp
  | insertBlocklist (name sourceURL : GoString) (listType : ℤ)
  | updateBlocklist (id : ℤ) (name : GoString) (active : Bool)
  | deleteBlocklist (id : ℤ)
  | insertBlocklistEntries (listID : ℤ) (domains : List GoString)
  /-- `domains` is what the download returned. -/
  | updateList (listID : ℤ) (domains : List GoString)
  | setBlocklistCategories (listID : ℤ) (categoryIDs : List ℤ)
  | setGroupPolicy (groupID : ℤ) (categoryIDs : List ℤ)
  | deleteGroup (id : ℤ)

/-- The statements of an operation. -/
def AdminOp.stmts : AdminOp → List Stmt
  | .insertBlocklist name sourceURL listType => [.insertBlocklist name sourceURL listType]
  | .updateBlocklist id name active => [.updateBlocklist id name active]
  | .deleteBlocklist id => [.deleteEntries id, .deleteBlocklist id]
  | .insertBlocklistEntries listID domains =>
      if domains = [] then []
      else domains.map (.insertEntry listID) ++ [.updateCount domains.length listID]
  | .updateList listID domains =>
      if domains = [] then []
      else .deleteEntries listID :: domains.map (.insertEntry listID) ++
        [.updateCount domains.length listID]
  | .setBlocklistCategories listID categoryIDs =>
      .deleteListCategories listID :: categoryIDs.map (.insertListCategory listID)
  | .setGroupPolicy groupID categoryIDs =>
      .deletePolicies groupID :: categoryIDs.map (.insertPolicy groupID)
  | .deleteGroup id => [.deleteGroup id]

/-- A successful operation: the database it leaves and the notifications it causes. -/
def AdminOp.run (op : AdminOp) (db : Database) : Option (Database × List Table) :=
  commit op.stmts db

/-- The operations that write the category associations of a list and nothing else. -/
def AdminOp.setsListCategories : AdminOp → Prop
  | .setBlocklistCategories .. => True
  | _ => False

theorem AdminOp.eq_of_setsListCategories {op : AdminOp} (h : op.setsListCategories) :
    ∃ listID categoryIDs, op = .setBlocklistCategories listID categoryIDs := by
  cases op with
  | setBlocklistCategories listID categoryIDs => exact ⟨listID, categoryIDs, rfl⟩
  | _ => exact h.elim

/-- Associations of lists with categories are inserted without a trigger and leave the other
tables alone. -/
theorem runStmts_insertListCategory {listID : ℤ} {categoryIDs : List ℤ} {db db' : Database}
    {ts : List Table}
    (h : runStmts (categoryIDs.map (.insertListCategory listID)) db = some (db', ts)) :
    (∀ t ∈ ts, t = .blocklistCategories) ∧ db'.policies = db.policies := by
  induction categoryIDs generalizing db ts with
  | nil =>
    simp only [List.map_nil, runStmts, Option.some.injEq, Prod.mk.injEq] at h
    obtain ⟨rfl, rfl⟩ := h
    simp
  | cons c cs ih =>
    rw [List.map_cons, runStmts_cons_eq_some] at h
    obtain ⟨db₁, ts', hexec, hrun, rfl⟩ := h
    obtain ⟨htouched, hpolicies⟩ := ih hrun
    refine ⟨by simpa [Stmt.touched] using htouched, hpolicies.trans ?_⟩
    simp only [Stmt.exec] at hexec
    split_ifs at hexec <;> cases hexec <;> rfl

/-- `SetBlocklistCategories` notifies nobody and leaves the policies alone. -/
theorem AdminOp.run_setBlocklistCategories {listID : ℤ} {categoryIDs : List ℤ}
    {db db' : Database} {notes : List Table}
    (h : (AdminOp.setBlocklistCategories listID categoryIDs).run db = some (db', notes)) :
    notes = [] ∧ db'.policies = db.policies := by
  obtain ⟨⟨db₂, ts⟩, hrun, heq⟩ := Option.map_eq_some_iff.1 h
  obtain ⟨rfl, rfl⟩ := Prod.mk.inj heq
  obtain ⟨db₁, ts', hexec, hrest, rfl⟩ := runStmts_cons_eq_some.1 hrun
  obtain ⟨htouched, hpolicies⟩ := runStmts_insertListCategory hrest
  cases hexec
  refine ⟨?_, hpolicies⟩
  have hnone : ∀ t ∈ Stmt.touched db (.deleteListCategories listID) ++ ts', ¬ t.hasTrigger := by
    intro t ht
    rcases List.mem_append.1 ht with ht | ht
    · obtain rfl := List.mem_singleton.1 ht
      simp [Table.hasTrigger]
    · rw [htouched t ht]
      simp [Table.hasTrigger]
  rw [List.filter_eq_nil_iff.2 hnone, List.dedup_nil]

/-- Every other operation notifies, unless it changes nothing. -/
theorem AdminOp.run_notifies {op : AdminOp} {db db' : Database} {notes : List Table}
    (hop : ¬ op.setsListCategories) (h : op.run db = some (db', notes)) :
    notes ≠ [] ∨ db' = db := by
  have idle : commit [] db = some (db', notes) → db' = db := by
    intro h
    simp only [commit, runStmts, Option.map_some, Option.some.injEq, Prod.mk.injEq] at h
    exact h.1.symm
  unfold AdminOp.run at h
  cases op with
  | insertBlocklist name sourceURL listType =>
    exact Or.inl (commit_notifies h (t := .blocklists) (by simp [Stmt.touched]) rfl)
  | updateBlocklist id name active =>
    exact Or.inl (commit_notifies h (t := .blocklists) (by simp [Stmt.touched]) rfl)
  | deleteBlocklist id =>
    exact Or.inl (commit_notifies h (t := .blocklistEntries) (by simp [Stmt.touched]) rfl)
  | insertBlocklistEntries listID domains =>
    cases domains with
    | nil => exact Or.inr (idle (by simpa [AdminOp.stmts] using h))
    | cons d ds =>
      simp only [AdminOp.stmts, List.map_cons, List.cons_append, reduceCtorEq, if_false] at h
      exact Or.inl (commit_notifies h (t := .blocklistEntries) (by simp [Stmt.touched]) rfl)
  | updateList listID domains =>
    cases domains with
    | nil => exact Or.inr (idle (by simpa [AdminOp.stmts] using h))
    | cons d ds =>
      simp only [AdminOp.stmts, List.cons_append, reduceCtorEq, if_false] at h
      exact Or.inl (commit_notifies h (t := .blocklistEntries) (by simp [Stmt.touched]) rfl)
  | setBlocklistCategories listID categoryIDs => exact absurd trivial hop
  | setGroupPolicy groupID categoryIDs =>
    exact Or.inl (commit_notifies h (t := .policies) (by simp [Stmt.touched]) rfl)
  | deleteGroup id =>
    by_cases hg : id ∈ db.groups
    · exact Or.inl (commit_notifies h (t := .policies) (by simp [Stmt.touched, hg]) rfl)
    · -- no such group: no row is deleted and no referential action runs
      refine Or.inr ?_
      simp only [AdminOp.stmts, commit, runStmts, Stmt.exec, hg, if_false, Option.map_eq_some_iff,
        Option.bind_eq_bind, Option.bind_some, Option.pure_def, Option.some.injEq,
        exists_eq_left', Prod.mk.injEq] at h
      exact h.1.symm

end DnsFilter
