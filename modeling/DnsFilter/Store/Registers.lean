import DnsFilter.Store.Integrity

/-!
# What the tables remember

The policy of a group, the categories of a list and the domains of a list, as the endpoints
read them back after any run of operations, failed ones included.

* `Stmt.frame`: a statement changes no table but those it runs on;
* `changes_notified`: no operation changes a table with a trigger without a notification;
* `policyWrite`, `associationWrite`, `domainsWrite`: what an operation that succeeds makes of
  the policy of a group, and of the categories and the domains of a list;
* `registers_run`: each of them is what the last operation that wrote it has made of it.
-/

namespace DnsFilter

open EventRun

/-! ### Frames -/

/-- A table is the same in two databases. -/
def Database.SameTable (db db' : Database) : Table → Prop
  | .groups => db'.groups = db.groups
  | .categories => db'.categories = db.categories
  | .policies => db'.policies = db.policies
  | .blocklists => db'.blocklists = db.blocklists
  | .blocklistEntries => db'.entries = db.entries
  | .blocklistCategories => db'.blocklistCategories = db.blocklistCategories
  | .ipRanges => db'.ipRanges = db.ipRanges

theorem Database.SameTable.refl (db : Database) (t : Table) : db.SameTable db t := by
  cases t <;> rfl

theorem Database.SameTable.trans {db db₁ db₂ : Database} {t : Table} (h : db.SameTable db₁ t)
    (h' : db₁.SameTable db₂ t) : db.SameTable db₂ t := by
  cases t <;> exact Eq.trans h' h

/-- A statement changes no table but those it runs on. -/
theorem Stmt.frame {db db' : Database} {s : Stmt} (hexec : s.exec db = some db') {t : Table}
    (ht : t ∉ s.touched db) : db.SameTable db' t := by
  cases s with
  | updateCount | deleteEntries | deleteListCategories | deletePolicies =>
    cases hexec
    cases t <;> first | rfl | exact absurd (List.mem_singleton_self _) ht
  | insertBlocklist | updateBlocklist =>
    simp only [Stmt.exec] at hexec
    split_ifs at hexec
    cases hexec
    cases t <;> first | rfl | exact absurd (List.mem_singleton_self _) ht
  | insertEntry | insertListCategory | insertPolicy =>
    simp only [Stmt.exec] at hexec
    split_ifs at hexec <;> cases hexec
    · exact .refl db t
    · cases t <;> first | rfl | exact absurd (List.mem_singleton_self _) ht
  | deleteBlocklist id =>
    simp only [Stmt.exec] at hexec
    simp only [Stmt.touched] at ht
    split_ifs at hexec ht <;> cases hexec
    · cases t <;> first | rfl | simp at ht
    · exact .refl db t
  | deleteGroup id =>
    simp only [Stmt.exec] at hexec
    simp only [Stmt.touched] at ht
    split_ifs at hexec ht <;> cases hexec
    · cases t <;> first | rfl | simp at ht
    · exact .refl db t

/-- Nor does a transaction. -/
theorem runStmts_frame {ss : List Stmt} {db db' : Database} {ts : List Table}
    (hrun : runStmts ss db = some (db', ts)) {t : Table} (ht : t ∉ ts) : db.SameTable db' t := by
  induction ss generalizing db ts with
  | nil =>
    cases hrun
    exact .refl _ t
  | cons s ss ih =>
    obtain ⟨db₁, ts', hexec, hrest, rfl⟩ := runStmts_cons_eq_some.1 hrun
    rw [List.mem_append, not_or] at ht
    exact (s.frame hexec ht.1).trans (ih hrest ht.2)

/-- Statements that cannot run on a table leave it alone. -/
theorem runStmts_frame_of_forall {ss : List Stmt} {db db' : Database} {ts : List Table} {t : Table}
    (hss : ∀ s ∈ ss, ∀ db, t ∉ Stmt.touched db s) (hrun : runStmts ss db = some (db', ts)) :
    db.SameTable db' t := by
  induction ss generalizing db ts with
  | nil =>
    cases hrun
    exact .refl _ t
  | cons s ss ih =>
    obtain ⟨db₁, ts', hexec, hrest, -⟩ := runStmts_cons_eq_some.1 hrun
    obtain ⟨hs, hss⟩ := List.forall_mem_cons.1 hss
    exact (s.frame hexec (hs db)).trans (ih hss hrest)

/-- No operation changes a table with a trigger without a notification. -/
theorem changes_notified {op : AdminOp} {db db' : Database} {notes : List Table}
    (hrun : op.run db = some (db', notes)) {t : Table} (htr : t.hasTrigger = true)
    (ht : t ∉ notes) : db.SameTable db' t := by
  obtain ⟨⟨db₁, ts⟩, hstmts, heq⟩ := Option.map_eq_some_iff.1 hrun
  obtain ⟨rfl, rfl⟩ := Prod.mk.inj heq
  refine runStmts_frame hstmts fun hts => ht ?_
  rw [List.mem_dedup, List.mem_filter]
  exact ⟨hts, htr⟩

/-- The operation has no statement on the table. -/
def AdminOp.Avoids (op : AdminOp) (t : Table) : Prop :=
  ∀ s ∈ op.stmts, ∀ db, t ∉ Stmt.touched db s

theorem AdminOp.Avoids.sameTable {op : AdminOp} {t : Table} (h : op.Avoids t) {db db' : Database}
    {notes : List Table} (hrun : op.run db = some (db', notes)) : db.SameTable db' t := by
  obtain ⟨⟨db₁, ts⟩, hstmts, heq⟩ := Option.map_eq_some_iff.1 hrun
  obtain ⟨rfl, -⟩ := Prod.mk.inj heq
  exact runStmts_frame_of_forall h hstmts

/-- Only `SetGroupPolicy` and `DeleteGroup` write policies. -/
theorem AdminOp.avoids_policies {op : AdminOp}
    (hset : ∀ groupID categoryIDs, op ≠ .setGroupPolicy groupID categoryIDs)
    (hdelete : ∀ id, op ≠ .deleteGroup id) : op.Avoids .policies := by
  intro s hs db
  cases op with
  | setGroupPolicy groupID categoryIDs => exact absurd rfl (hset groupID categoryIDs)
  | deleteGroup id => exact absurd rfl (hdelete id)
  | _ =>
    simp only [AdminOp.stmts] at hs
    grind [Stmt.touched]

/-- Only `SetBlocklistCategories` and `DeleteBlocklist` write associations. -/
theorem AdminOp.avoids_associations {op : AdminOp}
    (hset : ∀ listID categoryIDs, op ≠ .setBlocklistCategories listID categoryIDs)
    (hdelete : ∀ id, op ≠ .deleteBlocklist id) : op.Avoids .blocklistCategories := by
  intro s hs db
  cases op with
  | setBlocklistCategories listID categoryIDs => exact absurd rfl (hset listID categoryIDs)
  | deleteBlocklist id => exact absurd rfl (hdelete id)
  | _ =>
    simp only [AdminOp.stmts] at hs
    grind [Stmt.touched]

/-- Only insertions, refreshes and `DeleteBlocklist` write entries. -/
theorem AdminOp.avoids_entries {op : AdminOp}
    (hinsert : ∀ listID domains, op ≠ .insertBlocklistEntries listID domains)
    (hupdate : ∀ listID domains, op ≠ .updateList listID domains)
    (hdelete : ∀ id, op ≠ .deleteBlocklist id) : op.Avoids .blocklistEntries := by
  intro s hs db
  cases op with
  | insertBlocklistEntries listID domains => exact absurd rfl (hinsert listID domains)
  | updateList listID domains => exact absurd rfl (hupdate listID domains)
  | deleteBlocklist id => exact absurd rfl (hdelete id)
  | _ =>
    simp only [AdminOp.stmts] at hs
    grind [Stmt.touched]

/-! ### What is read back -/

/-- The rows of a key in a table of pairs. -/
def valuesOf (rows : List (ℤ × ℤ)) (key : ℤ) : List ℤ :=
  (rows.filter fun r => r.1 = key).map Prod.snd

/-- `GetGroupBlockedCategories`. -/
def getGroupBlockedCategories (db : Database) (groupID : ℤ) : List ℤ := valuesOf db.policies groupID

/-- `GetBlocklistCategories`. -/
def getBlocklistCategories (db : Database) (listID : ℤ) : List ℤ :=
  valuesOf db.blocklistCategories listID

theorem mem_valuesOf {rows : List (ℤ × ℤ)} {key v : ℤ} :
    v ∈ valuesOf rows key ↔ (key, v) ∈ rows := by
  simp only [valuesOf, List.mem_map, List.mem_filter, decide_eq_true_eq, Prod.exists]
  constructor
  · rintro ⟨k, v', ⟨hmem, rfl⟩, rfl⟩
    exact hmem
  · intro h
    exact ⟨key, v, ⟨h, rfl⟩, rfl⟩

/-- Under the unique index no value is read twice. -/
theorem nodup_valuesOf {rows : List (ℤ × ℤ)} (h : rows.Nodup) (key : ℤ) :
    (valuesOf rows key).Nodup := by
  refine (h.filter _).map_on ?_
  rintro ⟨k, v⟩ hx ⟨k', v'⟩ hy rfl
  have hk : k = key := by simpa using (List.mem_filter.1 hx).2
  have hk' : k' = key := by simpa using (List.mem_filter.1 hy).2
  rw [hk, hk']

/-- A replacement is read back. -/
theorem valuesOf_of_pairsReplaced {before after : List (ℤ × ℤ)} {key : ℤ} {values : List ℤ}
    (h : PairsReplaced before after key values) (k : ℤ) :
    (valuesOf after k).toFinset =
      if k = key then values.toFinset else (valuesOf before k).toFinset := by
  split_ifs with hk
  · subst hk
    ext v
    rw [List.mem_toFinset, mem_valuesOf, h.1, List.mem_toFinset]
  · rw [valuesOf, h.2 k hk, valuesOf]

/-- The rows of another key. -/
theorem valuesOf_filter_ne (rows : List (ℤ × ℤ)) (key k : ℤ) :
    valuesOf (rows.filter fun r => r.1 ≠ key) k = if k = key then [] else valuesOf rows k := by
  rw [valuesOf, List.filter_filter]
  split_ifs with hk
  · subst hk
    rw [List.map_eq_nil_iff, List.filter_eq_nil_iff]
    simp
  · rw [valuesOf]
    refine congrArg (List.map Prod.snd) (List.filter_congr fun r _ => ?_)
    by_cases hr : r.1 = k <;> simp [hr, hk]

/-! ### Operations -/

/-- A replacement in a table of pairs that succeeds. -/
theorem PairTable.run_replace (t : PairTable) (clear : Stmt) {op : AdminOp} {db db' : Database}
    {notes : List Table} {key : ℤ} {values : List ℤ}
    (hstmts : op.stmts = clear :: values.map (t.insert key))
    (hclear : clear.exec db = some (t.put db ((t.get db).filter (·.1 ≠ key))))
    (hrun : op.run db = some (db', notes)) : PairsReplaced (t.get db) (t.get db') key values := by
  have hfold : op.stmts.foldlM Stmt.exec db = some db' := by
    rw [← run_map_fst, hrun, Option.map_some]
  rw [hstmts, List.foldlM_cons, hclear, Option.bind_eq_bind, Option.bind_some] at hfold
  rw [t.foldlM_insert hfold, t.get_put, t.get_put]
  exact pairsReplaced_insertNew _ _ _

theorem run_setGroupPolicy {db db' : Database} {notes : List Table} {groupID : ℤ}
    {categoryIDs : List ℤ}
    (hrun : (AdminOp.setGroupPolicy groupID categoryIDs).run db = some (db', notes)) :
    PairsReplaced db.policies db'.policies groupID categoryIDs :=
  PairTable.policies.run_replace (.deletePolicies groupID) rfl rfl hrun

theorem run_setBlocklistCategories {db db' : Database} {notes : List Table} {listID : ℤ}
    {categoryIDs : List ℤ}
    (hrun : (AdminOp.setBlocklistCategories listID categoryIDs).run db = some (db', notes)) :
    PairsReplaced db.blocklistCategories db'.blocklistCategories listID categoryIDs :=
  PairTable.blocklistCategories.run_replace (.deleteListCategories listID) rfl rfl hrun

/-- A group that is deleted keeps no policy. -/
theorem policies_deleteGroup {db db' : Database} {notes : List Table} (h : PoliciesIntact db)
    {id : ℤ} (hrun : (AdminOp.deleteGroup id).run db = some (db', notes)) :
    db'.policies = db.policies.filter fun p => p.1 ≠ id := by
  have hfold : (AdminOp.deleteGroup id).stmts.foldlM Stmt.exec db = some db' := by
    rw [← run_map_fst, hrun, Option.map_some]
  simp only [AdminOp.stmts, List.foldlM_cons, List.foldlM_nil, Stmt.exec] at hfold
  split_ifs at hfold with hid <;> cases hfold
  · rfl
  · refine (List.filter_eq_self.2 fun p hp => ?_).symm
    have hne : p.1 ≠ id := fun heq => hid (heq ▸ h.policy_group p hp)
    simpa using hne

/-- A list that is deleted keeps no entry and no association. -/
theorem rows_deleteBlocklist {db db' : Database} {notes : List Table} (h : ListsIntact db)
    {id : ℤ} (hrun : (AdminOp.deleteBlocklist id).run db = some (db', notes)) :
    db'.blocklistCategories = db.blocklistCategories.filter (fun bc => bc.1 ≠ id) ∧
      db'.entries = db.entries.filter fun be => be.listID ≠ id := by
  have hfold : (AdminOp.deleteBlocklist id).stmts.foldlM Stmt.exec db = some db' := by
    rw [← run_map_fst, hrun, Option.map_some]
  by_cases hid : id ∈ db.blocklists.map (·.id)
  all_goals
    simp only [AdminOp.stmts, List.foldlM_cons, List.foldlM_nil, Stmt.exec, Database.hasList, hid,
      if_true, if_false, Option.bind_eq_bind, Option.bind_some, Option.pure_def,
      Option.some.injEq] at hfold
    subst hfold
  · refine ⟨rfl, ?_⟩
    rw [List.filter_filter]
    exact List.filter_congr fun be _ => Bool.and_self _
  · refine ⟨(List.filter_eq_self.2 fun bc hbc => ?_).symm, rfl⟩
    have hne : bc.1 ≠ id := fun heq => hid (heq ▸ h.association_list bc hbc)
    simpa using hne

/-- What an operation that succeeds makes of the policy of a group. -/
def AdminOp.policyWrite (groupID : ℤ) (_ : Database) : AdminOp → Option (Finset ℤ)
  | .setGroupPolicy id categoryIDs => if groupID = id then some categoryIDs.toFinset else none
  | .deleteGroup id => if groupID = id then some ∅ else none
  | _ => none

/-- What an operation that succeeds makes of the categories of a list. -/
def AdminOp.associationWrite (listID : ℤ) (_ : Database) : AdminOp → Option (Finset ℤ)
  | .setBlocklistCategories id categoryIDs =>
      if listID = id then some categoryIDs.toFinset else none
  | .deleteBlocklist id => if listID = id then some ∅ else none
  | _ => none

/-- What an operation that succeeds makes of the domains of a list, as the column stores them.
A refresh without domains is skipped. -/
def AdminOp.domainsWrite (listID : ℤ) (db : Database) : AdminOp → Option (Finset GoString)
  | .insertBlocklistEntries id domains =>
      if listID = id then some (domainsOf db.entries listID ∪ (stored domains).toFinset) else none
  | .updateList id domains =>
      if listID = id ∧ domains ≠ [] then some (stored domains).toFinset else none
  | .deleteBlocklist id => if listID = id then some ∅ else none
  | _ => none

section Steps

variable {op : AdminOp} {db db' : Database} {notes : List Table}

/-- The policy of a group after an operation. -/
theorem policy_run (h : Intact db) (groupID : ℤ) (hrun : op.run db = some (db', notes)) :
    (getGroupBlockedCategories db' groupID).toFinset =
      (op.policyWrite groupID db).getD (getGroupBlockedCategories db groupID).toFinset := by
  rw [getGroupBlockedCategories, getGroupBlockedCategories]
  cases op with
  | setGroupPolicy id categoryIDs =>
    rw [valuesOf_of_pairsReplaced (run_setGroupPolicy hrun) groupID, AdminOp.policyWrite]
    split_ifs <;> rfl
  | deleteGroup id =>
    rw [policies_deleteGroup h.policies hrun, valuesOf_filter_ne, AdminOp.policyWrite]
    split_ifs <;> rfl
  | _ =>
    have hsame : db'.policies = db.policies :=
      (AdminOp.avoids_policies (by simp) (by simp)).sameTable hrun
    rw [hsame]
    rfl

/-- The categories of a list after an operation. -/
theorem association_run (h : Intact db) (listID : ℤ) (hrun : op.run db = some (db', notes)) :
    (getBlocklistCategories db' listID).toFinset =
      (op.associationWrite listID db).getD (getBlocklistCategories db listID).toFinset := by
  rw [getBlocklistCategories, getBlocklistCategories]
  cases op with
  | setBlocklistCategories id categoryIDs =>
    rw [valuesOf_of_pairsReplaced (run_setBlocklistCategories hrun) listID,
      AdminOp.associationWrite]
    split_ifs <;> rfl
  | deleteBlocklist id =>
    rw [(rows_deleteBlocklist h.lists hrun).1, valuesOf_filter_ne, AdminOp.associationWrite]
    split_ifs <;> rfl
  | _ =>
    have hsame : db'.blocklistCategories = db.blocklistCategories :=
      (AdminOp.avoids_associations (by simp) (by simp)).sameTable hrun
    rw [hsame]
    rfl

/-- The domains of a list after an operation. -/
theorem domains_run (h : Intact db) (listID : ℤ) (hrun : op.run db = some (db', notes)) :
    domainsOf db'.entries listID =
      (op.domainsWrite listID db).getD (domainsOf db.entries listID) := by
  have hfst : (op.run db).map Prod.fst = some db' := by rw [hrun, Option.map_some]
  cases op with
  | insertBlocklistEntries id domains =>
    rw [AdminOp.domainsWrite]
    by_cases hne : domains = []
    · subst hne
      rw [run_map_fst] at hfst
      cases hfst
      split_ifs <;> simp [stored]
    · rw [run_insertBlocklistEntries hne] at hfst
      split_ifs at hfst with hacc
      cases hfst
      rw [writeList, domainsOf_addEntries]
      split_ifs <;> rfl
  | updateList id domains =>
    rw [AdminOp.domainsWrite]
    by_cases hne : domains = []
    · subst hne
      rw [run_map_fst] at hfst
      cases hfst
      simp
    · rw [run_updateList hne] at hfst
      split_ifs at hfst with hacc
      cases hfst
      rw [writeList, domainsOf_addEntries, domainsOf_filter_ne]
      by_cases hid : listID = id <;> simp [hid, hne]
  | deleteBlocklist id =>
    rw [(rows_deleteBlocklist h.lists hrun).2, domainsOf_filter_ne, AdminOp.domainsWrite]
    split_ifs <;> rfl
  | _ =>
    have hsame : db'.entries = db.entries :=
      (AdminOp.avoids_entries (by simp) (by simp) (by simp)).sameTable hrun
    rw [hsame]
    rfl

end Steps

/-! ### Runs -/

section Writes

variable [CidrType]

/-- What an operation writes, if it is an admin operation that succeeds. -/
def StoreOp.adminWrite {ρ : Type*} (write : Database → AdminOp → Option ρ) (s : ConfigStore) :
    StoreOp → Option ρ
  | .admin op => if (op.run s.db).isSome then write s.db op else none
  | _ => none

/-- An operation on groups or ranges leaves the policies, associations and entries alone. -/
theorem StoreOp.execute_frame {s s' : ConfigStore} {op : StoreOp} {notes : List Table}
    (hop : ∀ a, op ≠ .admin a) (hexec : op.execute s = some (s', notes)) :
    s'.db.policies = s.db.policies ∧ s'.db.blocklistCategories = s.db.blocklistCategories ∧
      s'.db.entries = s.db.entries := by
  cases op with
  | admin op => exact absurd rfl (hop op)
  | createGroup id name description =>
    obtain ⟨s₁, hcreate, heq⟩ := Option.map_eq_some_iff.1 hexec
    obtain ⟨rfl, -⟩ := Prod.mk.inj heq
    unfold ConfigStore.createGroup at hcreate
    split_ifs at hcreate
    cases hcreate
    exact ⟨rfl, rfl, rfl⟩
  | updateGroup id name description =>
    obtain ⟨s₁, hupdate, heq⟩ := Option.map_eq_some_iff.1 hexec
    obtain ⟨rfl, -⟩ := Prod.mk.inj heq
    unfold ConfigStore.updateGroup at hupdate
    split_ifs at hupdate <;> cases hupdate <;> exact ⟨rfl, rfl, rfl⟩
  | createIPRange id cidr groupID authMode description =>
    obtain ⟨db, hcreate, heq⟩ := Option.map_eq_some_iff.1 hexec
    obtain ⟨rfl, -⟩ := Prod.mk.inj heq
    obtain ⟨text, -, rfl⟩ := createIPRange_eq_some hcreate
    exact ⟨rfl, rfl, rfl⟩
  | updateIPRange id cidr groupID authMode description =>
    obtain ⟨db, hupdate, heq⟩ := Option.map_eq_some_iff.1 hexec
    obtain ⟨rfl, -⟩ := Prod.mk.inj heq
    obtain ⟨text, -, rfl⟩ := updateIPRange_eq_some hupdate
    exact ⟨rfl, rfl, rfl⟩
  | deleteIPRange id =>
    cases hexec
    exact ⟨rfl, rfl, rfl⟩

/-- A view of the three tables that admin operations write as `write` says. -/
theorem StoreOp.view_apply {ρ : Type*} {view : Database → ρ}
    {write : Database → AdminOp → Option ρ}
    (hview : ∀ db db' : Database, db'.policies = db.policies →
      db'.blocklistCategories = db.blocklistCategories → db'.entries = db.entries →
        view db' = view db)
    (hadmin : ∀ {op : AdminOp} {db db' : Database} {notes : List Table}, DnsFilter.Intact db →
      op.run db = some (db', notes) → view db' = (write db op).getD (view db))
    {s : ConfigStore} (h : s.Intact) (op : StoreOp) :
    view (op.apply s).db = (op.adminWrite write s).getD (view s.db) := by
  cases hexec : op.execute s with
  | none =>
    have hnone : op.adminWrite write s = none := by
      cases op with
      | admin op =>
        have hrun : op.run s.db = none := by simpa [StoreOp.execute] using hexec
        simp [StoreOp.adminWrite, hrun]
      | _ => rfl
    rw [StoreOp.apply, hexec, hnone]
    rfl
  | some r =>
    obtain ⟨s', notes⟩ := r
    rw [StoreOp.apply, hexec, Option.map_some, Option.getD_some]
    by_cases hop : ∀ a, op ≠ .admin a
    · obtain ⟨hpolicies, hassociations, hentries⟩ := op.execute_frame hop hexec
      rw [hview s.db s'.db hpolicies hassociations hentries]
      cases op with
      | admin a => exact absurd rfl (hop a)
      | _ => rfl
    · push Not at hop
      obtain ⟨a, rfl⟩ := hop
      obtain ⟨⟨db, ts⟩, hrun, heq⟩ := Option.map_eq_some_iff.1 hexec
      obtain ⟨rfl, rfl⟩ := Prod.mk.inj heq
      rw [StoreOp.adminWrite, hrun, Option.isSome_some, if_pos rfl]
      exact hadmin h.tables hrun

/-- A view of the tables shows what the last operation that wrote it has made of it, and does
not change while no operation writes it. -/
structure Remembers {ρ : Type*} (view : Database → ρ) (write : Database → AdminOp → Option ρ)
    (s : ConfigStore) (ops : List StoreOp) : Prop where
  last : ∀ r, LastWrite StoreOp.apply (StoreOp.adminWrite write) s ops r →
    view (run StoreOp.apply s ops).db = r
  first : Along StoreOp.apply (fun s op => op.adminWrite write s = none) s ops →
    view (run StoreOp.apply s ops).db = view s.db

theorem remembers_run {ρ : Type*} {view : Database → ρ} {write : Database → AdminOp → Option ρ}
    (hview : ∀ db db' : Database, db'.policies = db.policies →
      db'.blocklistCategories = db.blocklistCategories → db'.entries = db.entries →
        view db' = view db)
    (hadmin : ∀ {op : AdminOp} {db db' : Database} {notes : List Table}, DnsFilter.Intact db →
      op.run db = some (db', notes) → view db' = (write db op).getD (view db))
    {s : ConfigStore} (h : s.Intact) (ops : List StoreOp) : Remembers view write s ops := by
  have hwrite : ∀ (s : ConfigStore) (op : StoreOp) (r : ρ), s.Intact →
      op.adminWrite write s = some r → view (op.apply s).db = r :=
    fun s op r hs hr => by rw [StoreOp.view_apply hview hadmin hs, hr, Option.getD_some]
  have hkeep : ∀ (s : ConfigStore) (op : StoreOp), s.Intact →
      op.adminWrite write s = none → view (op.apply s).db = view s.db :=
    fun s op hs hr => by rw [StoreOp.view_apply hview hadmin hs, hr, Option.getD_none]
  have hintact : ∀ (s : ConfigStore) (op : StoreOp), s.Intact → (op.apply s).Intact :=
    fun s op hs => (StoreOp.intact_apply hs op).1
  obtain ⟨hlast, hfirst⟩ := @register_run _ _ StoreOp.apply _ (StoreOp.adminWrite write)
    (fun s => view s.db) ConfigStore.Intact hintact hwrite hkeep s h ops
  exact ⟨hlast, hfirst⟩

/-- **After any operations, failed ones among them, the policy of a group, the categories of a
list and the domains of a list are those that the last successful operation on them has set;
they are read back without repetitions, and the policies that are read back are those that a
reload puts into force.** -/
theorem registers_run {s : ConfigStore} (h : s.Intact) (ops : List StoreOp) :
    let db := (run StoreOp.apply s ops).db
    (∀ groupID,
      Remembers (fun db => (getGroupBlockedCategories db groupID).toFinset)
        (AdminOp.policyWrite groupID) s ops ∧
      (getGroupBlockedCategories db groupID).Nodup ∧
      (db.loadGroupPolicies.lookup groupID).getD ∅ =
        (getGroupBlockedCategories db groupID).toFinset) ∧
    (∀ listID,
      Remembers (fun db => (getBlocklistCategories db listID).toFinset)
        (AdminOp.associationWrite listID) s ops ∧
      (getBlocklistCategories db listID).Nodup) ∧
    ∀ listID, Remembers (fun db => domainsOf db.entries listID) (AdminOp.domainsWrite listID) s ops
    := by
  intro db
  have hintact : DnsFilter.Intact db := (StoreOp.intact_run h ops).1.tables
  refine ⟨fun groupID => ⟨?_, ?_, ?_⟩, fun listID => ⟨?_, ?_⟩, fun listID => ?_⟩
  · refine remembers_run (fun db db' hpolicies _ _ => ?_)
      (fun h hrun => policy_run h groupID hrun) h ops
    rw [getGroupBlockedCategories, getGroupBlockedCategories, hpolicies]
  · exact nodup_valuesOf hintact.policies.nodup_policies groupID
  · ext c
    rw [Database.loadGroupPolicies, Database.mem_lookup_foldl_insert, List.mem_toFinset,
      getGroupBlockedCategories, mem_valuesOf]
  · refine remembers_run (fun db db' _ hassociations _ => ?_)
      (fun h hrun => association_run h listID hrun) h ops
    rw [getBlocklistCategories, getBlocklistCategories, hassociations]
  · exact nodup_valuesOf hintact.lists.nodup_associations listID
  · refine remembers_run (fun db db' _ _ hentries => ?_)
      (fun h hrun => domains_run h listID hrun) h ops
    rw [hentries]

end Writes

/-- A policy that names a category that does not exist is refused and leaves the one before. -/
theorem registers_refused :
    letI := plainCidr
    (getGroupBlockedCategories (run StoreOp.apply ConfigStore.migrated
      [.admin (.setGroupPolicy 1 [5, 3, 5]), .admin (.setGroupPolicy 1 [2, 7])]).db 1).toFinset =
        {3, 5} := by
  let := plainCidr
  refine ((@registers_run plainCidr _ migrated_intact _).1 1).1.last _ ?_
  refine ⟨[], .admin (.setGroupPolicy 1 [5, 3, 5]), [.admin (.setGroupPolicy 1 [2, 7])], rfl, ?_,
    ?_, trivial⟩
  · decide +kernel
  · decide +kernel

end DnsFilter
