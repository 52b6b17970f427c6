import DnsFilter.Identity.RangeSync
import DnsFilter.Store.Replace

/-!
# Integrity of the configuration

All operations of `internal/store` that write the configuration tables, those of `groups.go`
and `ranges.go` next to the admin operations, in any order and whether they succeed or not.

* `ConfigStore`: the tables with the columns of `groups`;
* `ListsIntact`, `PoliciesIntact`, `RangesIntact`: keys, unique indexes and foreign keys;
* `Stmt.intact`: every statement, cascades included, keeps them;
* `StoreOp.intact_run`: they hold in every reachable state, and the categories stay.
-/

namespace DnsFilter

open EventRun

/-! ### Keys and references -/

/-- Keys, unique indexes and references of `blocklists`, `blocklist_entries` and
`blocklist_categories`. -/
structure ListsIntact (db : Database) : Prop extends db.Consistent where
  nodup_associations : db.blocklistCategories.Nodup
  association_list : ∀ bc ∈ db.blocklistCategories, db.hasList bc.1
  association_category : ∀ bc ∈ db.blocklistCategories, bc.2 ∈ db.categories

/-- Keys, unique index and references of `groups` and `policies`. -/
structure PoliciesIntact (db : Database) : Prop where
  nodup_groups : db.groups.Nodup
  nodup_policies : db.policies.Nodup
  policy_group : ∀ p ∈ db.policies, p.1 ∈ db.groups
  policy_category : ∀ p ∈ db.policies, p.2 ∈ db.categories

/-- Key and reference of `ip_ranges`, whose rows are well-formed networks. -/
structure RangesIntact (db : Database) : Prop where
  nodup_ids : (db.ipRanges.map (·.id)).Nodup
  range_group : ∀ row ∈ db.ipRanges, row.groupID ∈ db.groups
  parses : ∀ row ∈ db.ipRanges, (parseCIDR row.cidr).isSome

/-- All constraints of the configuration tables. -/
structure Intact (db : Database) : Prop where
  lists : ListsIntact db
  policies : PoliciesIntact db
  ranges : RangesIntact db

theorem nodup_concat_of_notMem {α : Type*} {l : List α} {a : α} (h : l.Nodup) (ha : a ∉ l) :
    (l ++ [a]).Nodup := by
  rw [← List.concat_eq_append]
  exact h.concat ha

/-! ### Statements on the lists -/

theorem ListsIntact.insertBlocklist {db : Database} (h : ListsIntact db) (bl : BlocklistRow)
    (hid : bl.id = db.nextListID) :
    ListsIntact { db with
      blocklists := db.blocklists ++ [bl]
      nextListID := db.nextListID + 1 } := by
  have hmono : ∀ {l}, db.hasList l → l ∈ (db.blocklists ++ [bl]).map (·.id) := by
    intro l hl
    rw [List.map_append]
    exact List.mem_append_left _ hl
  refine ⟨⟨?_, ?_, fun be hbe => hmono (h.hasList be hbe), h.nodup_entries⟩,
    h.nodup_associations, fun bc hbc => hmono (h.association_list bc hbc), h.association_category⟩
  · rw [List.map_append]
    refine nodup_concat_of_notMem h.nodup_ids fun hold => ?_
    obtain ⟨bl', hbl', hid'⟩ := List.mem_map.1 hold
    exact (h.lt_next bl' hbl').ne (hid'.trans hid)
  · intro bl' hbl'
    rcases List.mem_append.1 hbl' with hbl' | hnew
    · exact (h.lt_next bl' hbl').trans (Int.lt_succ _)
    · rw [List.mem_singleton.1 hnew, hid]
      exact Int.lt_succ _

/-- Columns of a list change, but not its key. -/
theorem ListsIntact.update {db : Database} (h : ListsIntact db) {g : BlocklistRow → BlocklistRow}
    (hg : ∀ bl, (g bl).id = bl.id) : ListsIntact { db with blocklists := db.blocklists.map g } := by
  have hids : (db.blocklists.map g).map (·.id) = db.blocklists.map (·.id) :=
    map_id_map hg db.blocklists
  have hlist : ∀ {l}, db.hasList l → l ∈ (db.blocklists.map g).map (·.id) := by
    intro l hl
    rwa [hids]
  refine ⟨⟨?_, ?_, fun be hbe => hlist (h.hasList be hbe), h.nodup_entries⟩,
    h.nodup_associations, fun bc hbc => hlist (h.association_list bc hbc), h.association_category⟩
  · rw [hids]
    exact h.nodup_ids
  · intro bl hbl
    obtain ⟨bl', hbl', rfl⟩ := List.mem_map.1 hbl
    rw [hg]
    exact h.lt_next bl' hbl'

/-- A list goes with its entries and its associations. -/
theorem ListsIntact.deleteBlocklist {db : Database} (h : ListsIntact db) (id : ℤ) :
    ListsIntact { db with
      blocklists := db.blocklists.filter (·.id ≠ id)
      entries := db.entries.filter (·.listID ≠ id)
      blocklistCategories := db.blocklistCategories.filter (·.1 ≠ id) } := by
  have hlist : ∀ {l}, db.hasList l → l ≠ id →
      l ∈ (db.blocklists.filter (·.id ≠ id)).map (·.id) := by
    intro l hl hne
    obtain ⟨bl, hbl, rfl⟩ := List.mem_map.1 hl
    exact List.mem_map.2 ⟨bl, List.mem_filter.2 ⟨hbl, by simpa using hne⟩, rfl⟩
  refine ⟨⟨h.nodup_ids.sublist (List.filter_sublist.map _),
      fun bl hbl => h.lt_next bl (List.mem_of_mem_filter hbl), ?_, h.nodup_entries.filter _⟩,
    h.nodup_associations.filter _, ?_,
    fun bc hbc => h.association_category bc (List.mem_of_mem_filter hbc)⟩
  · intro be hbe
    obtain ⟨hbe, hne⟩ := List.mem_filter.1 hbe
    exact hlist (h.hasList be hbe) (by simpa using hne)
  · intro bc hbc
    obtain ⟨hbc, hne⟩ := List.mem_filter.1 hbc
    exact hlist (h.association_list bc hbc) (by simpa using hne)

/-- Other entries of existing lists. -/
theorem ListsIntact.entries {db : Database} (h : ListsIntact db) {entries : List EntryRow}
    (hnodup : entries.Nodup) (hlist : ∀ be ∈ entries, db.hasList be.listID) :
    ListsIntact { db with entries := entries } :=
  ⟨⟨h.nodup_ids, h.lt_next, hlist, hnodup⟩, h.nodup_associations, h.association_list,
    h.association_category⟩

/-- Other associations of existing lists with existing categories. -/
theorem ListsIntact.associations {db : Database} (h : ListsIntact db) {rows : List (ℤ × ℤ)}
    (hnodup : rows.Nodup) (hrefs : ∀ bc ∈ rows, db.hasList bc.1 ∧ bc.2 ∈ db.categories) :
    ListsIntact { db with blocklistCategories := rows } :=
  ⟨⟨h.nodup_ids, h.lt_next, h.hasList, h.nodup_entries⟩, hnodup, fun bc hbc => (hrefs bc hbc).1,
    fun bc hbc => (hrefs bc hbc).2⟩

/-- The tables of the lists are the same. -/
theorem ListsIntact.congr {db db' : Database} (h : ListsIntact db)
    (hblocklists : db'.blocklists = db.blocklists) (hentries : db'.entries = db.entries)
    (hassociations : db'.blocklistCategories = db.blocklistCategories)
    (hcategories : db'.categories = db.categories) (hnext : db'.nextListID = db.nextListID) :
    ListsIntact db' := by
  obtain ⟨⟨hids, hlt, hlist, hnodup⟩, hassoc, hrefs, hcats⟩ := h
  refine ⟨⟨?_, ?_, ?_, ?_⟩, ?_, ?_, ?_⟩ <;>
    simpa only [Database.hasList, hblocklists, hentries, hassociations, hcategories, hnext]

/-- Statements on the lists keep the constraints of the lists. -/
theorem Stmt.listsIntact {db db' : Database} {s : Stmt} (h : ListsIntact db)
    (hexec : s.exec db = some db') : ListsIntact db' := by
  cases s with
  | insertBlocklist name sourceURL listType =>
    simp only [Stmt.exec] at hexec
    split_ifs at hexec
    cases hexec
    exact h.insertBlocklist _ rfl
  | updateBlocklist id name active =>
    simp only [Stmt.exec] at hexec
    split_ifs at hexec
    cases hexec
    exact h.update fun bl => by split_ifs <;> rfl
  | updateCount count id =>
    cases hexec
    exact h.update fun bl => by split_ifs <;> rfl
  | deleteBlocklist id =>
    simp only [Stmt.exec] at hexec
    split_ifs at hexec <;> cases hexec
    · exact h.deleteBlocklist id
    · exact h
  | deleteEntries listID =>
    cases hexec
    exact h.entries (h.nodup_entries.filter _)
      fun be hbe => h.hasList be (List.mem_of_mem_filter hbe)
  | insertEntry listID domain =>
    simp only [Stmt.exec] at hexec
    split_ifs at hexec with hok hold <;> cases hexec
    · exact h
    · refine h.entries (nodup_concat_of_notMem h.nodup_entries hold) fun be hbe => ?_
      rcases List.mem_append.1 hbe with hbe | hnew
      · exact h.hasList be hbe
      · rw [List.mem_singleton.1 hnew]
        exact hok.2
  | deleteListCategories listID =>
    cases hexec
    refine h.associations (h.nodup_associations.filter _) fun bc hbc => ?_
    have hold := List.mem_of_mem_filter hbc
    exact ⟨h.association_list bc hold, h.association_category bc hold⟩
  | insertListCategory listID catID =>
    simp only [Stmt.exec] at hexec
    split_ifs at hexec with hrefs hold <;> cases hexec
    · exact h
    · refine h.associations (nodup_concat_of_notMem h.nodup_associations hold) fun bc hbc => ?_
      rcases List.mem_append.1 hbc with hbc | hnew
      · exact ⟨h.association_list bc hbc, h.association_category bc hbc⟩
      · rw [List.mem_singleton.1 hnew]
        exact hrefs
  | deletePolicies groupID =>
    cases hexec
    exact h.congr rfl rfl rfl rfl rfl
  | insertPolicy groupID catID =>
    simp only [Stmt.exec] at hexec
    split_ifs at hexec <;> cases hexec
    · exact h
    · exact h.congr rfl rfl rfl rfl rfl
  | deleteGroup id =>
    simp only [Stmt.exec] at hexec
    split_ifs at hexec <;> cases hexec
    · exact h.congr rfl rfl rfl rfl rfl
    · exact h

/-! ### Statements on the groups -/

/-- The statement writes neither `groups`, `policies` nor `ip_ranges`. -/
def Stmt.isOnLists : Stmt → Bool
  | .deletePolicies _ | .insertPolicy .. | .deleteGroup _ => false
  | _ => true

theorem Stmt.frame_of_isOnLists {db db' : Database} {s : Stmt} (hs : s.isOnLists = true)
    (hexec : s.exec db = some db') :
    db'.groups = db.groups ∧ db'.policies = db.policies ∧ db'.ipRanges = db.ipRanges := by
  cases s with
  | deletePolicies | insertPolicy | deleteGroup => cases hs
  | updateCount | deleteEntries | deleteListCategories =>
    cases hexec
    exact ⟨rfl, rfl, rfl⟩
  | _ =>
    simp only [Stmt.exec] at hexec
    split_ifs at hexec <;> cases hexec <;> exact ⟨rfl, rfl, rfl⟩

/-- No statement creates or removes a category. -/
theorem Stmt.categories_exec {db db' : Database} {s : Stmt} (hexec : s.exec db = some db') :
    db'.categories = db.categories := by
  cases s with
  | updateCount | deleteEntries | deleteListCategories | deletePolicies =>
    cases hexec
    rfl
  | _ =>
    simp only [Stmt.exec] at hexec
    split_ifs at hexec <;> cases hexec <;> rfl

theorem PoliciesIntact.congr {db db' : Database} (h : PoliciesIntact db)
    (hgroups : db'.groups = db.groups) (hpolicies : db'.policies = db.policies)
    (hcategories : db'.categories = db.categories) : PoliciesIntact db' := by
  obtain ⟨hnodup, hrows, hgroup, hcategory⟩ := h
  refine ⟨?_, ?_, ?_, ?_⟩ <;> simpa only [hgroups, hpolicies, hcategories]

theorem RangesIntact.congr {db db' : Database} (h : RangesIntact db)
    (hgroups : db'.groups = db.groups) (hranges : db'.ipRanges = db.ipRanges) :
    RangesIntact db' := by
  obtain ⟨hnodup, hgroup, hparses⟩ := h
  refine ⟨?_, ?_, ?_⟩ <;> simpa only [hgroups, hranges]

/-- A group goes with its policies. -/
theorem PoliciesIntact.deleteGroup {db : Database} (h : PoliciesIntact db) (id : ℤ) :
    PoliciesIntact { db with
      groups := db.groups.filter (· ≠ id)
      policies := db.policies.filter (·.1 ≠ id)
      ipRanges := db.ipRanges.filter (·.groupID ≠ id) } := by
  refine ⟨h.nodup_groups.filter _, h.nodup_policies.filter _, fun p hp => ?_,
    fun p hp => h.policy_category p (List.mem_of_mem_filter hp)⟩
  obtain ⟨hp, hne⟩ := List.mem_filter.1 hp
  exact List.mem_filter.2 ⟨h.policy_group p hp, hne⟩

/-- A group goes with its ranges. -/
theorem RangesIntact.deleteGroup {db : Database} (h : RangesIntact db) (id : ℤ) :
    RangesIntact { db with
      groups := db.groups.filter (· ≠ id)
      policies := db.policies.filter (·.1 ≠ id)
      ipRanges := db.ipRanges.filter (·.groupID ≠ id) } := by
  refine ⟨h.nodup_ids.sublist (List.filter_sublist.map _), fun row hrow => ?_,
    fun row hrow => h.parses row (List.mem_of_mem_filter hrow)⟩
  obtain ⟨hrow, hne⟩ := List.mem_filter.1 hrow
  exact List.mem_filter.2 ⟨h.range_group row hrow, hne⟩

theorem Stmt.policiesIntact {db db' : Database} {s : Stmt} (h : PoliciesIntact db)
    (hexec : s.exec db = some db') : PoliciesIntact db' := by
  by_cases hs : s.isOnLists = true
  · obtain ⟨hgroups, hpolicies, -⟩ := s.frame_of_isOnLists hs hexec
    exact h.congr hgroups hpolicies (s.categories_exec hexec)
  cases s with
  | deletePolicies groupID =>
    cases hexec
    exact ⟨h.nodup_groups, h.nodup_policies.filter _,
      fun p hp => h.policy_group p (List.mem_of_mem_filter hp),
      fun p hp => h.policy_category p (List.mem_of_mem_filter hp)⟩
  | insertPolicy groupID catID =>
    simp only [Stmt.exec] at hexec
    split_ifs at hexec with hrefs hold <;> cases hexec
    · exact h
    · refine ⟨h.nodup_groups, nodup_concat_of_notMem h.nodup_policies hold, fun p hp => ?_,
        fun p hp => ?_⟩
      · rcases List.mem_append.1 hp with hp | hnew
        · exact h.policy_group p hp
        · rw [List.mem_singleton.1 hnew]
          exact hrefs.1
      · rcases List.mem_append.1 hp with hp | hnew
        · exact h.policy_category p hp
        · rw [List.mem_singleton.1 hnew]
          exact hrefs.2
  | deleteGroup id =>
    simp only [Stmt.exec] at hexec
    split_ifs at hexec <;> cases hexec
    · exact h.deleteGroup id
    · exact h
  | _ => exact absurd rfl hs

theorem Stmt.rangesIntact {db db' : Database} {s : Stmt} (h : RangesIntact db)
    (hexec : s.exec db = some db') : RangesIntact db' := by
  by_cases hs : s.isOnLists = true
  · obtain ⟨hgroups, -, hranges⟩ := s.frame_of_isOnLists hs hexec
    exact h.congr hgroups hranges
  cases s with
  | deletePolicies groupID =>
    cases hexec
    exact h.congr rfl rfl
  | insertPolicy groupID catID =>
    simp only [Stmt.exec] at hexec
    split_ifs at hexec <;> cases hexec
    · exact h
    · exact h.congr rfl rfl
  | deleteGroup id =>
    simp only [Stmt.exec] at hexec
    split_ifs at hexec <;> cases hexec
    · exact h.deleteGroup id
    · exact h
  | _ => exact absurd rfl hs

/-- Every statement keeps all constraints. -/
theorem Stmt.intact {db db' : Database} {s : Stmt} (h : Intact db)
    (hexec : s.exec db = some db') : Intact db' :=
  ⟨s.listsIntact h.lists hexec, s.policiesIntact h.policies hexec, s.rangesIntact h.ranges hexec⟩

/-- And so does every transaction. -/
theorem runStmts_intact {ss : List Stmt} {db db' : Database} {ts : List Table} (h : Intact db)
    (hrun : runStmts ss db = some (db', ts)) : Intact db' := by
  induction ss generalizing db ts with
  | nil =>
    cases hrun
    exact h
  | cons s ss ih =>
    obtain ⟨db₁, ts', hexec, hrest, -⟩ := runStmts_cons_eq_some.1 hrun
    exact ih (s.intact h hexec) hrest

theorem AdminOp.run_intact {op : AdminOp} {db db' : Database} {notes : List Table} (h : Intact db)
    (hrun : op.run db = some (db', notes)) : Intact db' := by
  obtain ⟨⟨db₁, ts⟩, hstmts, heq⟩ := Option.map_eq_some_iff.1 hrun
  obtain ⟨rfl, -⟩ := Prod.mk.inj heq
  exact runStmts_intact h hstmts

/-! ### Groups and ranges -/

/-- A row of `groups`. -/
structure GroupRow where
  id : ℤ
  name : GoString
  description : GoString
  deriving DecidableEq

/-- The configuration tables, with all columns of `groups`. -/
structure ConfigStore where
  db : Database
  groupRows : List GroupRow
  deriving DecidableEq

namespace ConfigStore

/-- `CreateGroup`, with the id that the sequence gives out; `none` where the database refuses
the row. -/
def createGroup (s : ConfigStore) (id : ℤ) (name description : GoString) : Option ConfigStore :=
  if fitsVarchar 100 name ∧ '\x00' ∉ description ∧
      varchar 100 name ∉ s.groupRows.map (·.name) ∧ id ∉ s.db.groups then
    some
      { db := { s.db with groups := s.db.groups ++ [id] }
        groupRows := s.groupRows ++ [⟨id, varchar 100 name, description⟩] }
  else none

/-- `UpdateGroup`; without a row of that id nothing is checked but the texts. -/
def updateGroup (s : ConfigStore) (id : ℤ) (name description : GoString) : Option ConfigStore :=
  if '\x00' ∈ name ∨ '\x00' ∈ description then none
  else if id ∈ s.groupRows.map (·.id) then
    if fitsVarchar 100 name ∧
        ∀ row ∈ s.groupRows, row.name = varchar 100 name → row.id = id then
      some { s with
        groupRows := s.groupRows.map fun row =>
          if row.id = id then ⟨id, varchar 100 name, description⟩ else row }
    else none
  else some s

end ConfigStore

/-- The operations that write the configuration tables. -/
inductive StoreOp
  | admin (op : AdminOp)
  /-- `id` is what the sequence gives out. -/
  | createGroup (id : ℤ) (name description : GoString)
  | updateGroup (id : ℤ) (name description : GoString)
  | createIPRange (id : ℤ) (cidr : GoString) (groupID authMode : ℤ) (description : GoString)
  | updateIPRange (id : ℤ) (cidr : GoString) (groupID authMode : ℤ) (description : GoString)
  | deleteIPRange (id : ℤ)

section Runs

variable [CidrType]

/-- What an operation that succeeds leaves, and the notifications it causes. -/
def StoreOp.execute (s : ConfigStore) : StoreOp → Option (ConfigStore × List Table)
  | .admin op =>
      -- the row of a deleted group
      (op.run s.db).map fun r => (⟨r.1, s.groupRows.filter fun row => row.id ∈ r.1.groups⟩, r.2)
  | .createGroup id name description =>
      (s.createGroup id name description).map fun s => (s, [])
  | .updateGroup id name description =>
      (s.updateGroup id name description).map fun s => (s, [])
  | .createIPRange id cidr groupID authMode description =>
      (DnsFilter.createIPRange s.db id cidr groupID authMode description).map fun db =>
        ({ s with db := db }, [.ipRanges])
  | .updateIPRange id cidr groupID authMode description =>
      (DnsFilter.updateIPRange s.db id cidr groupID authMode description).map fun db =>
        ({ s with db := db }, [.ipRanges])
  | .deleteIPRange id => some ({ s with db := DnsFilter.deleteIPRange s.db id }, [.ipRanges])

/-- An operation that fails changes nothing. -/
def StoreOp.apply (s : ConfigStore) (op : StoreOp) : ConfigStore :=
  ((op.execute s).map Prod.fst).getD s

/-- The constraints of all tables. -/
structure ConfigStore.Intact (s : ConfigStore) : Prop where
  tables : DnsFilter.Intact s.db
  groups_eq : s.groupRows.map (·.id) = s.db.groups
  nodup_names : (s.groupRows.map (·.name)).Nodup

omit [CidrType] in
/-- Statements only remove groups. -/
theorem Stmt.groups_exec {db db' : Database} {s : Stmt} (hexec : s.exec db = some db') :
    ∃ p : ℤ → Bool, db'.groups = db.groups.filter p := by
  by_cases hs : s.isOnLists = true
  · exact ⟨fun _ => true, by rw [(s.frame_of_isOnLists hs hexec).1, List.filter_true]⟩
  cases s with
  | deletePolicies groupID =>
    cases hexec
    exact ⟨fun _ => true, (List.filter_true _).symm⟩
  | insertPolicy groupID catID =>
    simp only [Stmt.exec] at hexec
    split_ifs at hexec <;> cases hexec <;> exact ⟨fun _ => true, (List.filter_true _).symm⟩
  | deleteGroup id =>
    simp only [Stmt.exec] at hexec
    split_ifs at hexec <;> cases hexec
    · exact ⟨fun g => g ≠ id, rfl⟩
    · exact ⟨fun _ => true, (List.filter_true _).symm⟩
  | _ => exact absurd rfl hs

omit [CidrType] in
theorem AdminOp.groups_run {op : AdminOp} {db db' : Database} {notes : List Table}
    (hrun : op.run db = some (db', notes)) :
    (∃ p : ℤ → Bool, db'.groups = db.groups.filter p) ∧ db'.categories = db.categories := by
  have hstmts : ∀ (ss : List Stmt) (db db' : Database) (ts : List Table),
      runStmts ss db = some (db', ts) →
        (∃ p : ℤ → Bool, db'.groups = db.groups.filter p) ∧ db'.categories = db.categories := by
    intro ss
    induction ss with
    | nil =>
      intro db db' ts h
      cases h
      exact ⟨⟨fun _ => true, (List.filter_true _).symm⟩, rfl⟩
    | cons s ss ih =>
      intro db db' ts h
      obtain ⟨db₁, ts', hexec, hrest, -⟩ := runStmts_cons_eq_some.1 h
      obtain ⟨p, hp⟩ := s.groups_exec hexec
      obtain ⟨⟨q, hq⟩, hcategories⟩ := ih _ _ _ hrest
      exact ⟨⟨fun g => q g && p g, by rw [hq, hp, List.filter_filter]⟩,
        hcategories.trans (s.categories_exec hexec)⟩
  obtain ⟨⟨db₁, ts⟩, h, heq⟩ := Option.map_eq_some_iff.1 hrun
  obtain ⟨rfl, -⟩ := Prod.mk.inj heq
  exact hstmts _ _ _ _ h

omit [CidrType] in
/-- An admin operation leaves the rows of the groups that are left. -/
theorem ConfigStore.Intact.admin {s : ConfigStore} (h : s.Intact) {op : AdminOp} {db : Database}
    {notes : List Table} (hrun : op.run s.db = some (db, notes)) :
    ConfigStore.Intact ⟨db, s.groupRows.filter fun row => row.id ∈ db.groups⟩ := by
  obtain ⟨⟨p, hp⟩, -⟩ := AdminOp.groups_run hrun
  refine ⟨AdminOp.run_intact h.tables hrun, ?_, h.nodup_names.sublist (List.filter_sublist.map _)⟩
  have hfilter : (s.groupRows.filter fun row => decide (row.id ∈ db.groups)).map (·.id) =
      (s.groupRows.map (·.id)).filter fun g => decide (g ∈ db.groups) := by
    rw [List.filter_map]
    rfl
  rw [hfilter, h.groups_eq, hp]
  refine List.filter_congr fun g hg => ?_
  rw [Bool.eq_iff_iff, decide_eq_true_eq, List.mem_filter]
  exact and_iff_right hg

omit [CidrType] in
/-- A new group. -/
theorem ConfigStore.Intact.createGroup {s s' : ConfigStore} (h : s.Intact) {id : ℤ}
    {name description : GoString} (hexec : s.createGroup id name description = some s') :
    s'.Intact := by
  unfold ConfigStore.createGroup at hexec
  split_ifs at hexec with hok
  cases hexec
  obtain ⟨-, -, hname, hid⟩ := hok
  obtain ⟨⟨hlists, hpolicies, hranges⟩, hgroups, hnames⟩ := h
  refine ⟨⟨hlists.congr rfl rfl rfl rfl rfl, ?_, ?_⟩, ?_, ?_⟩
  · exact ⟨nodup_concat_of_notMem hpolicies.nodup_groups hid, hpolicies.nodup_policies,
      fun p hp => List.mem_append_left _ (hpolicies.policy_group p hp), hpolicies.policy_category⟩
  · exact ⟨hranges.nodup_ids,
      fun row hrow => List.mem_append_left _ (hranges.range_group row hrow), hranges.parses⟩
  · rw [List.map_append, hgroups]
    rfl
  · rw [List.map_append]
    exact nodup_concat_of_notMem hnames hname

omit [CidrType] in
/-- Another name for a group, which no other group has. -/
theorem ConfigStore.Intact.updateGroup {s s' : ConfigStore} (h : s.Intact) {id : ℤ}
    {name description : GoString} (hexec : s.updateGroup id name description = some s') :
    s'.Intact := by
  unfold ConfigStore.updateGroup at hexec
  split_ifs at hexec with hnul hid hok <;> cases hexec
  swap
  · exact h
  have hids : (s.groupRows.map fun row =>
      if row.id = id then (⟨id, varchar 100 name, description⟩ : GroupRow) else row).map (·.id) =
        s.groupRows.map (·.id) := by
    rw [List.map_map]
    refine List.map_congr_left fun row _ => ?_
    rw [Function.comp_apply]
    split_ifs with hrow
    · exact hrow.symm
    · rfl
  refine ⟨h.tables, hids.trans h.groups_eq, ?_⟩
  have hnodup : (s.groupRows.map (·.id)).Nodup := by
    rw [h.groups_eq]
    exact h.tables.policies.nodup_groups
  rw [List.map_map]
  refine (List.Nodup.of_map _ hnodup).map_on fun a ha b hb heq => ?_
  have hname : ∀ {a b : GroupRow}, a ∈ s.groupRows → b ∈ s.groupRows → a.name = b.name → a = b :=
    fun ha hb hab => List.inj_on_of_nodup_map h.nodup_names ha hb hab
  have hkey : ∀ {a b : GroupRow}, a ∈ s.groupRows → b ∈ s.groupRows → a.id = b.id → a = b :=
    fun ha hb hab => List.inj_on_of_nodup_map hnodup ha hb hab
  simp only [Function.comp_apply] at heq
  split_ifs at heq with ha' hb' hb'
  · exact hkey ha hb (ha'.trans hb'.symm)
  · exact absurd (hok.2 b hb heq.symm) hb'
  · exact absurd (hok.2 a ha heq) ha'
  · exact hname ha hb heq

theorem RangesIntact.createIPRange {db db' : Database} (h : RangesIntact db)
    {id groupID authMode : ℤ} {cidr description : GoString}
    (hexec : DnsFilter.createIPRange db id cidr groupID authMode description = some db') :
    RangesIntact db' := by
  unfold DnsFilter.createIPRange at hexec
  cases hc : CidrType.cidr cidr with
  | none => simp [hc] at hexec
  | some text =>
    simp only [hc] at hexec
    split_ifs at hexec with hok
    cases hexec
    obtain ⟨hgroup, -, -, -, hid⟩ := hok
    refine ⟨?_, fun row hrow => ?_, fun row hrow => ?_⟩
    · rw [List.map_append]
      exact nodup_concat_of_notMem h.nodup_ids hid
    · rcases List.mem_append.1 hrow with hrow | hnew
      · exact h.range_group row hrow
      · rw [List.mem_singleton.1 hnew]
        exact hgroup
    · rcases List.mem_append.1 hrow with hrow | hnew
      · exact h.parses row hrow
      · rw [List.mem_singleton.1 hnew]
        exact CidrType.parses hc

theorem RangesIntact.updateIPRange {db db' : Database} (h : RangesIntact db)
    {id groupID authMode : ℤ} {cidr description : GoString}
    (hexec : DnsFilter.updateIPRange db id cidr groupID authMode description = some db') :
    RangesIntact db' := by
  unfold DnsFilter.updateIPRange at hexec
  cases hc : CidrType.cidr cidr with
  | none => simp [hc] at hexec
  | some text =>
    simp only [hc] at hexec
    split_ifs at hexec with hok
    cases hexec
    obtain ⟨-, -, -, hgroup⟩ := hok
    refine ⟨?_, fun row hrow => ?_, fun row hrow => ?_⟩
    · have hids : (db.ipRanges.map fun row =>
          if row.id = id then (⟨id, text, groupID, authMode, description⟩ : IPRangeRow)
          else row).map (·.id) = db.ipRanges.map (·.id) := by
        rw [List.map_map]
        refine List.map_congr_left fun row _ => ?_
        rw [Function.comp_apply]
        split_ifs with hrow
        · exact hrow.symm
        · rfl
      rw [hids]
      exact h.nodup_ids
    all_goals
      obtain ⟨old, hold, rfl⟩ := List.mem_map.1 hrow
      split_ifs with hrow'
    · exact hgroup (List.mem_map.2 ⟨old, hold, hrow'⟩)
    · exact h.range_group old hold
    · exact CidrType.parses hc
    · exact h.parses old hold

omit [CidrType] in
/-- Operations on the ranges write `ip_ranges` and nothing else. -/
theorem ConfigStore.Intact.ranges {s : ConfigStore} (h : s.Intact) {db : Database}
    (hdb : db = { s.db with ipRanges := db.ipRanges }) (hranges : RangesIntact db) :
    ConfigStore.Intact { s with db := db } := by
  refine ⟨⟨?_, ?_, hranges⟩, ?_, h.nodup_names⟩
  · rw [hdb]
    exact h.tables.lists.congr rfl rfl rfl rfl rfl
  · rw [hdb]
    exact h.tables.policies.congr rfl rfl rfl
  · rw [hdb]
    exact h.groups_eq

/-- Every operation that succeeds keeps all constraints, and the categories. -/
theorem StoreOp.intact_execute {s s' : ConfigStore} {op : StoreOp} {notes : List Table}
    (h : s.Intact) (hexec : op.execute s = some (s', notes)) :
    s'.Intact ∧ s'.db.categories = s.db.categories := by
  cases op with
  | admin op =>
    obtain ⟨⟨db, ts⟩, hrun, heq⟩ := Option.map_eq_some_iff.1 hexec
    obtain ⟨rfl, rfl⟩ := Prod.mk.inj heq
    exact ⟨h.admin hrun, (AdminOp.groups_run hrun).2⟩
  | createGroup id name description =>
    obtain ⟨s₁, hcreate, heq⟩ := Option.map_eq_some_iff.1 hexec
    obtain ⟨rfl, -⟩ := Prod.mk.inj heq
    refine ⟨h.createGroup hcreate, ?_⟩
    unfold ConfigStore.createGroup at hcreate
    split_ifs at hcreate
    cases hcreate
    rfl
  | updateGroup id name description =>
    obtain ⟨s₁, hupdate, heq⟩ := Option.map_eq_some_iff.1 hexec
    obtain ⟨rfl, -⟩ := Prod.mk.inj heq
    refine ⟨h.updateGroup hupdate, ?_⟩
    unfold ConfigStore.updateGroup at hupdate
    split_ifs at hupdate <;> cases hupdate <;> rfl
  | createIPRange id cidr groupID authMode description =>
    obtain ⟨db, hcreate, heq⟩ := Option.map_eq_some_iff.1 hexec
    obtain ⟨rfl, -⟩ := Prod.mk.inj heq
    have hranges := h.tables.ranges.createIPRange hcreate
    obtain ⟨text, -, rfl⟩ := createIPRange_eq_some hcreate
    exact ⟨h.ranges rfl hranges, rfl⟩
  | updateIPRange id cidr groupID authMode description =>
    obtain ⟨db, hupdate, heq⟩ := Option.map_eq_some_iff.1 hexec
    obtain ⟨rfl, -⟩ := Prod.mk.inj heq
    have hranges := h.tables.ranges.updateIPRange hupdate
    obtain ⟨text, -, rfl⟩ := updateIPRange_eq_some hupdate
    exact ⟨h.ranges rfl hranges, rfl⟩
  | deleteIPRange id =>
    cases hexec
    refine ⟨h.ranges rfl ⟨?_, fun row hrow => ?_, fun row hrow => ?_⟩, rfl⟩
    · exact h.tables.ranges.nodup_ids.sublist (List.filter_sublist.map _)
    · exact h.tables.ranges.range_group row (List.mem_of_mem_filter hrow)
    · exact h.tables.ranges.parses row (List.mem_of_mem_filter hrow)

theorem StoreOp.intact_apply {s : ConfigStore} (h : s.Intact) (op : StoreOp) :
    (op.apply s).Intact ∧ (op.apply s).db.categories = s.db.categories := by
  unfold StoreOp.apply
  cases hexec : op.execute s with
  | none => exact ⟨h, rfl⟩
  | some r =>
    obtain ⟨s', notes⟩ := r
    exact StoreOp.intact_execute h hexec

/-- Whatever operations succeed or fail, in any order, the constraints of all tables hold. -/
theorem StoreOp.intact_run {s : ConfigStore} (h : s.Intact) (ops : List StoreOp) :
    (run StoreOp.apply s ops).Intact ∧
      (run StoreOp.apply s ops).db.categories = s.db.categories :=
  run_invariant (fun s' : ConfigStore => s'.Intact ∧ s'.db.categories = s.db.categories)
    (fun _ op hs => ⟨(StoreOp.intact_apply hs.1 op).1,
      (StoreOp.intact_apply hs.1 op).2.trans hs.2⟩) ⟨h, rfl⟩ ops

end Runs

/-! ### The migrations -/

/-- The tables as the migrations leave them. -/
def ConfigStore.migrated : ConfigStore where
  db := { emptyDatabase with groups := [1], categories := [1, 2, 3, 4, 5, 6] }
  groupRows := [⟨1, "default".toList, "Política padrão para IPs não identificados".toList⟩]

theorem migrated_intact : ConfigStore.migrated.Intact where
  tables :=
    { lists := ⟨⟨List.nodup_nil, List.forall_mem_nil _, List.forall_mem_nil _, List.nodup_nil⟩,
        List.nodup_nil, List.forall_mem_nil _, List.forall_mem_nil _⟩
      policies := ⟨by decide, List.nodup_nil, List.forall_mem_nil _, List.forall_mem_nil _⟩
      ranges := ⟨List.nodup_nil, List.forall_mem_nil _, List.forall_mem_nil _⟩ }
  groups_eq := rfl
  nodup_names := by decide

end DnsFilter
