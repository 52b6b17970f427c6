import DnsFilter.Lib.Transaction
import DnsFilter.Store.Counts
import DnsFilter.Store.Refresh

/-!
# Replacing what belongs to a group or a list

`SetGroupPolicy`, `SetBlocklistCategories`, `DeleteBlocklist` and `InsertBlocklistEntries` of
`internal/store`, statement by statement.  Each returns at the first error and rolls back what
it has done.

* `clearAndInsert_eq`, `insertBlocklistEntries_eq`: the operations are transactions;
* `replace_all_atomic`: when they return an error, that they then leave the database alone, and
  what they leave behind when they return none.
-/

namespace DnsFilter

open Transaction

/-- A transaction that clears the rows of a key and inserts new ones; the second component says
that an error is returned. -/
def clearAndInsert (f : Faults) (db : Database) (clear : Stmt) (inserts : List Stmt) :
    Database × Bool :=
  match start f db with
  | none => (db, true)
  | some tx =>
      let (tx, err) := tx.exec Stmt.exec f clear
      if err then (tx.rollback, true)
      else
        let (tx, err) := tx.execAll Stmt.exec f inserts
        if err then (tx.rollback, true) else tx.commit f

def setGroupPolicy (f : Faults) (db : Database) (groupID : ℤ) (categoryIDs : List ℤ) :
    Database × Bool :=
  clearAndInsert f db (.deletePolicies groupID) (categoryIDs.map (.insertPolicy groupID))

def setBlocklistCategories (f : Faults) (db : Database) (listID : ℤ) (categoryIDs : List ℤ) :
    Database × Bool :=
  clearAndInsert f db (.deleteListCategories listID)
    (categoryIDs.map (.insertListCategory listID))

/-- `DeleteBlocklist` deletes the list where the others insert rows. -/
def deleteBlocklist (f : Faults) (db : Database) (id : ℤ) : Database × Bool :=
  clearAndInsert f db (.deleteEntries id) [.deleteBlocklist id]

/-- The loop of `InsertBlocklistEntries`, which counts and returns at the first error. -/
def insertLoop (f : Faults) (listID : ℤ) :
    Tx Database → ℕ → List GoString → Tx Database × ℕ × Bool
  | tx, count, [] => (tx, count, false)
  | tx, count, domain :: domains =>
      let (tx, err) := tx.exec Stmt.exec f (.insertEntry listID domain)
      if err then (tx, count, true) else insertLoop f listID tx (count + 1) domains

/-- The database, the number that is returned, and whether an error is. -/
def insertBlocklistEntries (f : Faults) (db : Database) (listID : ℤ) (domains : List GoString) :
    Database × ℕ × Bool :=
  if domains.length = 0 then (db, 0, false)
  else
    match start f db with
    | none => (db, 0, true)
    | some tx =>
        let (tx, count, err) := insertLoop f listID tx 0 domains
        if err then (tx.rollback, count, true)
        else
          let (tx, err) := tx.exec Stmt.exec f (.updateCount count listID)
          if err then (tx.rollback, count, true)
          else
            let (db, err) := tx.commit f
            if err then (db, 0, true) else (db, count, false)

/-! ### Transactions -/

theorem start_of_beginFails {f : Faults} (h : f.beginFails = true) (db : Database) :
    start f db = none := if_pos h

theorem start_of_not_beginFails {f : Faults} (h : f.beginFails = false) (db : Database) :
    start f db = some ⟨db, some db, 0⟩ := if_neg (by simp [h])

theorem attempt_of_beginFails {f : Faults} (h : f.beginFails = true) (db : Database)
    (stmts : List Stmt) : attempt Stmt.exec f db stmts = none :=
  if_neg fun hc => by simp [hc.1] at h

/-- An early return is a transaction that is rolled back. -/
theorem clearAndInsert_eq (f : Faults) (db : Database) (clear : Stmt) (inserts : List Stmt) :
    clearAndInsert f db clear inserts =
      ((attempt Stmt.exec f db (clear :: inserts)).getD db,
        (attempt Stmt.exec f db (clear :: inserts)).isNone) := by
  cases hbegin : f.beginFails with
  | true =>
    rw [clearAndInsert, start_of_beginFails hbegin, attempt_of_beginFails hbegin]
    rfl
  | false =>
    rw [← Tx.commit_after hbegin, ← Tx.rollback_or_commit, clearAndInsert,
      start_of_not_beginFails hbegin]
    dsimp only
    rw [Tx.execAll]
    by_cases hclear : ((⟨db, some db, 0⟩ : Tx Database).exec Stmt.exec f clear).2 = true
    · simp only [hclear, if_true]
    · simp only [hclear, Bool.false_eq_true, if_false]

/-- The operations are those of the statement level. -/
theorem clearAndInsert_fst {op : AdminOp} {clear : Stmt} {inserts : List Stmt}
    (hop : op.stmts = clear :: inserts) (f : Faults) (db : Database) :
    (clearAndInsert f db clear inserts).1 = transaction (f.Clean (inserts.length + 1)) op db := by
  have hlen : op.stmts.length = inserts.length + 1 := by rw [hop, List.length_cons]
  rw [clearAndInsert_eq, ← hop, attempt_stmts, hlen]

theorem setGroupPolicy_fst (f : Faults) (db : Database) (groupID : ℤ) (categoryIDs : List ℤ) :
    (setGroupPolicy f db groupID categoryIDs).1 =
      transaction (f.Clean (categoryIDs.length + 1)) (.setGroupPolicy groupID categoryIDs) db := by
  have hop : AdminOp.stmts (.setGroupPolicy groupID categoryIDs) =
      .deletePolicies groupID :: categoryIDs.map (.insertPolicy groupID) := rfl
  rw [setGroupPolicy, clearAndInsert_fst hop, List.length_map]

theorem setBlocklistCategories_fst (f : Faults) (db : Database) (listID : ℤ)
    (categoryIDs : List ℤ) :
    (setBlocklistCategories f db listID categoryIDs).1 =
      transaction (f.Clean (categoryIDs.length + 1)) (.setBlocklistCategories listID categoryIDs)
        db := by
  have hop : AdminOp.stmts (.setBlocklistCategories listID categoryIDs) =
      .deleteListCategories listID :: categoryIDs.map (.insertListCategory listID) := rfl
  rw [setBlocklistCategories, clearAndInsert_fst hop, List.length_map]

theorem deleteBlocklist_fst (f : Faults) (db : Database) (id : ℤ) :
    (deleteBlocklist f db id).1 = transaction (f.Clean 2) (.deleteBlocklist id) db := by
  have hop : AdminOp.stmts (.deleteBlocklist id) = [.deleteEntries id, .deleteBlocklist id] := rfl
  rw [deleteBlocklist, clearAndInsert_fst hop]
  rfl

/-- The loop counts every statement that it has issued. -/
theorem insertLoop_eq (f : Faults) (listID : ℤ) (tx : Tx Database) (count : ℕ)
    (domains : List GoString) :
    ∃ n, insertLoop f listID tx count domains =
        ((tx.execAll Stmt.exec f (domains.map (.insertEntry listID))).1, n,
          (tx.execAll Stmt.exec f (domains.map (.insertEntry listID))).2) ∧
      ((tx.execAll Stmt.exec f (domains.map (.insertEntry listID))).2 = false →
        n = count + domains.length) := by
  induction domains generalizing tx count with
  | nil => exact ⟨count, rfl, fun _ => rfl⟩
  | cons d domains ih =>
    rw [List.map_cons, Tx.execAll, insertLoop]
    by_cases herr : (tx.exec Stmt.exec f (.insertEntry listID d)).2 = true
    · simp only [herr, if_true]
      exact ⟨count, rfl, fun h => by cases h⟩
    · simp only [herr, Bool.false_eq_true, if_false]
      obtain ⟨n, hloop, hn⟩ := ih (tx.exec Stmt.exec f (.insertEntry listID d)).1 (count + 1)
      refine ⟨n, hloop, fun h => ?_⟩
      rw [hn h, List.length_cons]
      omega

/-- The statements of an insertion. -/
def insertStmts (listID : ℤ) (domains : List GoString) : List Stmt :=
  domains.map (.insertEntry listID) ++ [.updateCount domains.length listID]

/-- `InsertBlocklistEntries` returns the number of domains with a nil error. -/
theorem insertBlocklistEntries_eq (f : Faults) (db : Database) (listID : ℤ)
    {domains : List GoString} (hne : domains ≠ []) :
    (insertBlocklistEntries f db listID domains).1 =
        (attempt Stmt.exec f db (insertStmts listID domains)).getD db ∧
      (insertBlocklistEntries f db listID domains).2.2 =
        (attempt Stmt.exec f db (insertStmts listID domains)).isNone := by
  have hlen : domains.length ≠ 0 := by simpa using hne
  cases hbegin : f.beginFails with
  | true =>
    rw [insertBlocklistEntries, if_neg hlen, start_of_beginFails hbegin,
      attempt_of_beginFails hbegin]
    exact ⟨rfl, rfl⟩
  | false =>
    have hcommit := @Tx.commit_after _ _ Stmt.exec f hbegin db (insertStmts listID domains)
    rw [insertStmts, Tx.after_append, Tx.after_cons, Tx.after_nil, ← insertStmts] at hcommit
    obtain ⟨n, hloop, hn⟩ := insertLoop_eq f listID ⟨db, some db, 0⟩ 0 domains
    rw [insertBlocklistEntries, if_neg hlen, start_of_not_beginFails hbegin]
    simp only [hloop]
    rcases @Tx.execAll_cases _ _ Stmt.exec f ⟨db, some db, 0⟩
      (domains.map (.insertEntry listID)) with h | ⟨herr, hsaved, hlost⟩
    · rw [h] at hn
      rw [h, hn rfl, zero_add]
      simp only [Bool.false_eq_true, if_false]
      by_cases hupd : (((⟨db, some db, 0⟩ : Tx Database).after Stmt.exec f
          (domains.map (.insertEntry listID))).exec Stmt.exec f
            (.updateCount domains.length listID)).2 = true
      · have hrollback := Tx.commit_lost hupd []
        rw [Tx.after_nil, hcommit] at hrollback
        rw [if_pos hupd]
        exact ⟨(congrArg Prod.fst hrollback).symm, (congrArg Prod.snd hrollback).symm⟩
      · rw [if_neg hupd, hcommit]
        cases (attempt Stmt.exec f db (insertStmts listID domains)) with
        | none => exact ⟨rfl, rfl⟩
        | some db' => exact ⟨rfl, rfl⟩
    · have hrollback : (((⟨db, some db, 0⟩ : Tx Database).after Stmt.exec f
          (domains.map (.insertEntry listID))).exec Stmt.exec f
            (.updateCount domains.length listID)).1.commit f = (db, true) := by
        simp [Tx.commit, Tx.exec, hlost]
      rw [hcommit] at hrollback
      simp only [herr, if_true]
      exact ⟨hsaved.trans (congrArg Prod.fst hrollback).symm,
        (congrArg Prod.snd hrollback).symm⟩

/-! ### Rows -/

section Rows

variable {ρ : Type*} [DecidableEq ρ]

/-- `ON CONFLICT DO NOTHING`, row after row. -/
def insertNew (rows new : List ρ) : List ρ :=
  new.foldl (fun rows r => if r ∈ rows then rows else rows ++ [r]) rows

theorem insertNew_cons (rows : List ρ) (r : ρ) (new : List ρ) :
    insertNew rows (r :: new) = insertNew (insertNew rows [r]) new := rfl

theorem mem_insertNew {rows new : List ρ} {r : ρ} :
    r ∈ insertNew rows new ↔ r ∈ rows ∨ r ∈ new := by
  induction new generalizing rows with
  | nil => simp [insertNew]
  | cons r' new ih =>
    have hone : r ∈ insertNew rows [r'] ↔ r ∈ rows ∨ r = r' := by
      simp only [insertNew, List.foldl_cons, List.foldl_nil]
      split_ifs with h
      · exact ⟨.inl, fun hr => hr.elim id fun heq => heq ▸ h⟩
      · rw [List.mem_append, List.mem_singleton]
    rw [insertNew_cons, ih, hone, List.mem_cons, or_assoc]

/-- Rows that differ from the new ones stay, in their order. -/
theorem filter_insertNew {p : ρ → Bool} {rows new : List ρ} (h : ∀ r ∈ new, p r = false) :
    (insertNew rows new).filter p = rows.filter p := by
  induction new generalizing rows with
  | nil => rfl
  | cons r new ih =>
    have hone : (insertNew rows [r]).filter p = rows.filter p := by
      simp only [insertNew, List.foldl_cons, List.foldl_nil]
      split_ifs
      · rfl
      · rw [List.filter_append, List.filter_cons_of_neg (by simp [h r]), List.filter_nil,
          List.append_nil]
    rw [insertNew_cons, ih fun r' hr' => h r' (List.mem_cons_of_mem _ hr'), hone]

end Rows

/-- The rows of a key are exactly the given pairs; those of the other keys are as before. -/
def PairsReplaced (before after : List (ℤ × ℤ)) (key : ℤ) (values : List ℤ) : Prop :=
  (∀ v, (key, v) ∈ after ↔ v ∈ values) ∧
    ∀ k, k ≠ key → after.filter (·.1 = k) = before.filter (·.1 = k)

theorem pairsReplaced_insertNew (before : List (ℤ × ℤ)) (key : ℤ) (values : List ℤ) :
    PairsReplaced before
      (insertNew (before.filter (·.1 ≠ key)) (values.map fun v => (key, v))) key values := by
  constructor
  · intro v
    rw [mem_insertNew]
    simp
  · intro k hk
    rw [filter_insertNew, List.filter_filter]
    · refine List.filter_congr fun bc _ => ?_
      by_cases h : bc.1 = k <;> simp [h, hk]
    · intro bc hbc
      obtain ⟨v, -, rfl⟩ := List.mem_map.1 hbc
      simpa using hk.symm

/-! ### Committed operations -/

theorem attempt_isSome {f : Faults} {db : Database} {stmts : List Stmt} :
    (attempt Stmt.exec f db stmts).isSome ↔
      f.Clean stmts.length ∧ (stmts.foldlM Stmt.exec db).isSome := by
  rw [attempt]
  by_cases hclean : f.Clean stmts.length <;> simp [hclean]

theorem run_of_attempt {f : Faults} {db db' : Database} {stmts : List Stmt}
    (h : attempt Stmt.exec f db stmts = some db') : stmts.foldlM Stmt.exec db = some db' := by
  rw [attempt] at h
  split_ifs at h
  exact h

section Pairs

/-- A table of pairs: how it is read and written, and the inserts into it. -/
structure PairTable where
  get : Database → List (ℤ × ℤ)
  put : Database → List (ℤ × ℤ) → Database
  insert : ℤ → ℤ → Stmt
  put_get : ∀ db, put db (get db) = db
  get_put : ∀ db rows, get (put db rows) = rows
  put_put : ∀ db rows rows', put (put db rows) rows' = put db rows'
  /-- The row and the category that the pair refers to exist. -/
  refers : Database → ℤ → ℤ → Prop
  refers_put : ∀ db rows key v, refers (put db rows) key v ↔ refers db key v
  exec_isSome : ∀ db key v, ((insert key v).exec db).isSome ↔ refers db key v
  exec_insert : ∀ {db db' : Database} {key v : ℤ}, (insert key v).exec db = some db' →
    db' = put db (insertNew (get db) [(key, v)])

def PairTable.policies : PairTable where
  get := Database.policies
  put db rows := { db with policies := rows }
  insert := .insertPolicy
  put_get _ := rfl
  get_put _ _ := rfl
  put_put _ _ _ := rfl
  refers db groupID catID := groupID ∈ db.groups ∧ catID ∈ db.categories
  refers_put _ _ _ _ := Iff.rfl
  exec_isSome db groupID catID := by
    rw [Stmt.exec]
    split_ifs <;> simp_all
  exec_insert h := by
    simp only [Stmt.exec] at h
    simp only [insertNew, List.foldl_cons, List.foldl_nil]
    split_ifs at h ⊢ <;> cases h <;> rfl

def PairTable.blocklistCategories : PairTable where
  get := Database.blocklistCategories
  put db rows := { db with blocklistCategories := rows }
  insert := .insertListCategory
  put_get _ := rfl
  get_put _ _ := rfl
  put_put _ _ _ := rfl
  refers db listID catID := db.hasList listID ∧ catID ∈ db.categories
  refers_put _ _ _ _ := Iff.rfl
  exec_isSome db listID catID := by
    rw [Stmt.exec]
    split_ifs <;> simp_all
  exec_insert h := by
    simp only [Stmt.exec] at h
    simp only [insertNew, List.foldl_cons, List.foldl_nil]
    split_ifs at h ⊢ <;> cases h <;> rfl

variable (t : PairTable)

theorem PairTable.foldlM_insert {db db' : Database} {key : ℤ} {values : List ℤ}
    (h : (values.map (t.insert key)).foldlM Stmt.exec db = some db') :
    db' = t.put db (insertNew (t.get db) (values.map fun v => (key, v))) := by
  induction values generalizing db with
  | nil =>
    rw [← Option.some_inj.1 h]
    exact (t.put_get db).symm
  | cons v values ih =>
    rw [List.map_cons, List.foldlM_cons, Option.bind_eq_bind, Option.bind_eq_some_iff] at h
    obtain ⟨db₁, hv, hrest⟩ := h
    rw [ih hrest, t.exec_insert hv, t.get_put, t.put_put]
    rfl

theorem PairTable.foldlM_isSome (db : Database) (key : ℤ) (values : List ℤ) :
    ((values.map (t.insert key)).foldlM Stmt.exec db).isSome ↔
      ∀ v ∈ values, t.refers db key v := by
  induction values generalizing db with
  | nil => simp
  | cons v values ih =>
    rw [List.map_cons, List.foldlM_cons, List.forall_mem_cons, ← t.exec_isSome]
    cases hexec : (t.insert key v).exec db with
    | none => simp
    | some db₁ =>
      rw [Option.bind_eq_bind, Option.bind_some, ih, t.exec_insert hexec]
      simp only [t.refers_put, Option.isSome_some, true_and]

/-- A replacement succeeds when no failure meets it and all that it refers to exists. -/
theorem PairTable.attempt_isSome {f : Faults} {db : Database} {key : ℤ} {values : List ℤ}
    {clear : Stmt} (hclear : clear.exec db = some (t.put db ((t.get db).filter (·.1 ≠ key)))) :
    (attempt Stmt.exec f db (clear :: values.map (t.insert key))).isSome ↔
      f.Clean (values.length + 1) ∧ ∀ v ∈ values, t.refers db key v := by
  rw [DnsFilter.attempt_isSome, List.length_cons, List.length_map, List.foldlM_cons, hclear,
    Option.bind_eq_bind, Option.bind_some, t.foldlM_isSome]
  simp only [t.refers_put]

/-- The rows of a key are deleted and new ones inserted; nothing else is written. -/
theorem PairTable.committed {f : Faults} {db db' : Database} {key : ℤ} {values : List ℤ}
    {clear : Stmt} (hclear : clear.exec db = some (t.put db ((t.get db).filter (·.1 ≠ key))))
    (h : attempt Stmt.exec f db (clear :: values.map (t.insert key)) = some db') :
    PairsReplaced (t.get db) (t.get db') key values ∧ db' = t.put db (t.get db') := by
  have hrun := run_of_attempt h
  rw [List.foldlM_cons, hclear, Option.bind_eq_bind, Option.bind_some] at hrun
  rw [t.foldlM_insert hrun, t.get_put, t.get_put, t.put_put]
  exact ⟨pairsReplaced_insertNew _ _ _, rfl⟩

end Pairs

/-- No table has a row of the list. -/
def Traceless (db : Database) (id : ℤ) : Prop :=
  ¬ db.hasList id ∧ (∀ be ∈ db.entries, be.listID ≠ id) ∧ ∀ bc ∈ db.blocklistCategories, bc.1 ≠ id

/-- The foreign key of `blocklist_categories` on the lists. -/
def ReferencesLists (db : Database) : Prop := ∀ bc ∈ db.blocklistCategories, db.hasList bc.1

theorem map_id_map {g : BlocklistRow → BlocklistRow} (hg : ∀ bl, (g bl).id = bl.id)
    (blocklists : List BlocklistRow) :
    (blocklists.map g).map (·.id) = blocklists.map (·.id) := by
  rw [List.map_map]
  exact List.map_congr_left fun bl _ => hg bl

/-- Every statement keeps the foreign key. -/
theorem ReferencesLists.exec {db db' : Database} {s : Stmt} (hdb : ReferencesLists db)
    (h : s.exec db = some db') : ReferencesLists db' := by
  cases s with
  | insertBlocklist name sourceURL listType =>
    simp only [Stmt.exec] at h
    split_ifs at h
    cases h
    intro bc hbc
    rw [Database.hasList, List.map_append]
    exact List.mem_append_left _ (hdb bc hbc)
  | updateBlocklist id name active =>
    simp only [Stmt.exec] at h
    split_ifs at h
    cases h
    intro bc hbc
    rw [Database.hasList, map_id_map fun bl => by split_ifs <;> rfl]
    exact hdb bc hbc
  | updateCount count id =>
    cases h
    intro bc hbc
    rw [Database.hasList, map_id_map fun bl => by split_ifs <;> rfl]
    exact hdb bc hbc
  | deleteBlocklist id =>
    simp only [Stmt.exec] at h
    split_ifs at h <;> cases h
    · intro bc hbc
      obtain ⟨hmem, hid⟩ := List.mem_filter.1 hbc
      obtain ⟨bl, hbl, hbc⟩ := List.mem_map.1 (hdb bc hmem)
      refine List.mem_map.2 ⟨bl, List.mem_filter.2 ⟨hbl, ?_⟩, hbc⟩
      rwa [hbc]
    · exact hdb
  | insertListCategory listID catID =>
    simp only [Stmt.exec] at h
    split_ifs at h with hrefs hold <;> cases h
    · exact hdb
    · intro bc hbc
      rcases List.mem_append.1 hbc with hbc | hbc
      · exact hdb bc hbc
      · rw [List.mem_singleton.1 hbc]
        exact hrefs.1
  | deleteListCategories listID =>
    cases h
    exact fun bc hbc => hdb bc (List.mem_of_mem_filter hbc)
  | deleteEntries listID =>
    cases h
    exact hdb
  | deletePolicies groupID =>
    cases h
    exact hdb
  | insertEntry listID domain =>
    simp only [Stmt.exec] at h
    split_ifs at h <;> cases h <;> exact hdb
  | insertPolicy groupID catID =>
    simp only [Stmt.exec] at h
    split_ifs at h <;> cases h <;> exact hdb
  | deleteGroup id =>
    simp only [Stmt.exec] at h
    split_ifs at h <;> cases h <;> exact hdb

theorem deleteBlocklist_committed {f : Faults} {db db' : Database} (hdb : ReferencesLists db)
    {id : ℤ}
    (h : attempt Stmt.exec f db [.deleteEntries id, .deleteBlocklist id] = some db') :
    Traceless db' id ∧
      db' = { db with
        blocklists := db.blocklists.filter (·.id ≠ id)
        entries := db.entries.filter (·.listID ≠ id)
        blocklistCategories := db.blocklistCategories.filter (·.1 ≠ id) } := by
  have hdb' : db' = { db with
      blocklists := db.blocklists.filter (·.id ≠ id)
      entries := db.entries.filter (·.listID ≠ id)
      blocklistCategories := db.blocklistCategories.filter (·.1 ≠ id) } := by
    have hrun := run_of_attempt h
    by_cases hlist : db.hasList id
    · have hlist' : Database.hasList
          { db with entries := db.entries.filter (·.listID ≠ id) } id := hlist
      simp only [List.foldlM_cons, List.foldlM_nil, Stmt.exec, Option.bind_eq_bind,
        Option.bind_some, hlist', if_true, List.filter_filter, Bool.and_self, Option.pure_def,
        Option.some.injEq] at hrun
      exact hrun.symm
    · have hlist' : ¬ Database.hasList
          { db with entries := db.entries.filter (·.listID ≠ id) } id := hlist
      simp only [List.foldlM_cons, List.foldlM_nil, Stmt.exec, Option.bind_eq_bind,
        Option.bind_some, hlist', if_false, Option.pure_def, Option.some.injEq] at hrun
      -- no row refers to a list that does not exist
      have hlists : db.blocklists.filter (·.id ≠ id) = db.blocklists := by
        refine List.filter_eq_self.2 fun bl hbl => decide_eq_true ?_
        rintro rfl
        exact hlist (List.mem_map_of_mem hbl)
      have hpairs : db.blocklistCategories.filter (·.1 ≠ id) = db.blocklistCategories := by
        refine List.filter_eq_self.2 fun bc hbc => decide_eq_true ?_
        rintro rfl
        exact hlist (hdb bc hbc)
      rw [← hrun, hlists, hpairs]
  refine ⟨?_, hdb'⟩
  rw [hdb']
  refine ⟨fun hlist => ?_, fun be hbe => ?_, fun bc hbc => ?_⟩
  · obtain ⟨bl, hbl, hid⟩ := List.mem_map.1 hlist
    exact of_decide_eq_true (List.mem_filter.1 hbl).2 hid
  · exact of_decide_eq_true (List.mem_filter.1 hbe).2
  · exact of_decide_eq_true (List.mem_filter.1 hbc).2

/-- A list is deleted when no failure meets the statements. -/
theorem deleteBlocklist_isSome (f : Faults) (db : Database) (id : ℤ) :
    (attempt Stmt.exec f db [.deleteEntries id, .deleteBlocklist id]).isSome ↔ f.Clean 2 := by
  have hrun : ([.deleteEntries id, .deleteBlocklist id].foldlM Stmt.exec db).isSome := by
    rw [List.foldlM_cons, Stmt.exec, Option.bind_eq_bind, Option.bind_some, List.foldlM_cons,
      Stmt.exec]
    split_ifs <;> rfl
  rw [attempt_isSome, and_iff_left hrun]
  rfl

/-- Domains are inserted when no failure meets the statements and the database takes all of
them. -/
theorem insertBlocklistEntries_isSome (f : Faults) (db : Database) (listID : ℤ)
    {domains : List GoString} (hne : domains ≠ []) :
    (attempt Stmt.exec f db (insertStmts listID domains)).isSome ↔
      f.Clean (domains.length + 1) ∧ Accepts db listID domains := by
  have hlen : (insertStmts listID domains).length = domains.length + 1 := by simp [insertStmts]
  rw [attempt_isSome, hlen, insertStmts, List.foldlM_append, foldlM_insertEntry hne]
  by_cases hacc : Accepts db listID domains
  · simp [hacc, Stmt.exec]
  · simp [hacc]

/-- `InsertBlocklistEntries` adds the domains to its list. -/
theorem insertBlocklistEntries_committed {f : Faults} {db db' : Database} {listID : ℤ}
    {domains : List GoString} (hne : domains ≠ [])
    (h : attempt Stmt.exec f db (insertStmts listID domains) = some db') :
    db' = writeList db listID (addEntries listID db.entries (stored domains)) domains.length := by
  have hrun := run_of_attempt h
  rw [insertStmts, List.foldlM_append, foldlM_insertEntry hne] at hrun
  split_ifs at hrun
  · exact (Option.some_inj.1 hrun).symm
  · cases hrun

theorem filter_setCount_ne (blocklists : List BlocklistRow) (listID count : ℤ) :
    (setCount blocklists listID count).filter (·.id ≠ listID) =
      blocklists.filter (·.id ≠ listID) := by
  induction blocklists with
  | nil => rfl
  | cons bl blocklists ih =>
    rw [setCount, List.map_cons, ← setCount]
    by_cases hid : bl.id = listID
    · rw [if_pos hid, List.filter_cons_of_neg (by simp [hid]),
        List.filter_cons_of_neg (by simp [hid]), ih]
    · rw [if_neg hid, List.filter_cons_of_pos (by simp [hid]),
        List.filter_cons_of_pos (by simp [hid]), ih]

/-! ### All or an error -/

/-- An operation returns no error exactly when it `succeeds`, and then leaves a database with the
property; with an error it leaves the database as it was. -/
def AllOrError (db : Database) (result : Database × Bool) (succeeds : Prop)
    (p : Database → Prop) : Prop :=
  (result.2 = false ↔ succeeds) ∧ (result.2 = true → result.1 = db) ∧
    (result.2 = false → p result.1)

theorem allOrError_attempt {f : Faults} {db : Database} {stmts : List Stmt} {succeeds : Prop}
    {p : Database → Prop} (hsome : (attempt Stmt.exec f db stmts).isSome ↔ succeeds)
    (h : ∀ db', attempt Stmt.exec f db stmts = some db' → p db') :
    AllOrError db ((attempt Stmt.exec f db stmts).getD db, (attempt Stmt.exec f db stmts).isNone)
      succeeds p := by
  cases hrun : attempt Stmt.exec f db stmts with
  | none =>
    rw [hrun] at hsome
    exact ⟨by simpa using hsome, fun _ => rfl, fun herr => absurd herr (by simp)⟩
  | some db' =>
    rw [hrun] at hsome
    exact ⟨iff_of_true rfl (hsome.1 rfl), fun herr => absurd herr (by simp), fun _ => h db' hrun⟩

/-- Under any failures each operation does all that it should or returns an error, and it
touches the rows of no other group or list.  It returns none when no failure meets it and
PostgreSQL takes its values.  The domains are added as the column stores them. -/
theorem replace_all_atomic {db : Database} (hdb : ReferencesLists db) (f : Faults) :
    (∀ groupID categoryIDs, AllOrError db (setGroupPolicy f db groupID categoryIDs)
      (f.Clean (categoryIDs.length + 1) ∧
        ∀ catID ∈ categoryIDs, groupID ∈ db.groups ∧ catID ∈ db.categories) fun db' =>
      PairsReplaced db.policies db'.policies groupID categoryIDs ∧
        db' = { db with policies := db'.policies }) ∧
    (∀ listID categoryIDs, AllOrError db (setBlocklistCategories f db listID categoryIDs)
      (f.Clean (categoryIDs.length + 1) ∧
        ∀ catID ∈ categoryIDs, db.hasList listID ∧ catID ∈ db.categories) fun db' =>
      PairsReplaced db.blocklistCategories db'.blocklistCategories listID categoryIDs ∧
        db' = { db with blocklistCategories := db'.blocklistCategories }) ∧
    (∀ listID domains,
      AllOrError db ((insertBlocklistEntries f db listID domains).1,
        (insertBlocklistEntries f db listID domains).2.2)
        (domains = [] ∨ f.Clean (domains.length + 1) ∧ Accepts db listID domains) fun db' =>
        domainsOf db'.entries listID = domainsOf db.entries listID ∪ (stored domains).toFinset ∧
          (∀ l, l ≠ listID → entryRows db'.entries l = entryRows db.entries l) ∧
          db'.blocklists.filter (·.id ≠ listID) = db.blocklists.filter (·.id ≠ listID) ∧
          db' = { db with entries := db'.entries, blocklists := db'.blocklists }) ∧
    (∀ id, AllOrError db (deleteBlocklist f db id) (f.Clean 2) fun db' =>
      Traceless db' id ∧
        db' = { db with
          blocklists := db.blocklists.filter (·.id ≠ id)
          entries := db.entries.filter (·.listID ≠ id)
          blocklistCategories := db.blocklistCategories.filter (·.1 ≠ id) }) := by
  refine ⟨fun groupID categoryIDs => ?_, fun listID categoryIDs => ?_, fun listID domains => ?_,
    fun id => ?_⟩
  · rw [setGroupPolicy, clearAndInsert_eq]
    exact allOrError_attempt (PairTable.policies.attempt_isSome rfl) fun db' =>
      PairTable.policies.committed rfl
  · rw [setBlocklistCategories, clearAndInsert_eq]
    exact allOrError_attempt (PairTable.blocklistCategories.attempt_isSome rfl) fun db' =>
      PairTable.blocklistCategories.committed rfl
  · by_cases hne : domains = []
    · subst hne
      exact ⟨iff_of_true rfl (.inl rfl), fun _ => rfl,
        fun _ => ⟨(Finset.union_empty _).symm, fun _ _ => rfl, rfl, rfl⟩⟩
    · obtain ⟨hdb', herr⟩ := insertBlocklistEntries_eq f db listID hne
      rw [hdb', herr, or_iff_right hne]
      refine allOrError_attempt (insertBlocklistEntries_isSome f db listID hne) fun db' hdb' => ?_
      rw [insertBlocklistEntries_committed hne hdb']
      refine ⟨?_, fun l hl => entryRows_addEntries_of_ne hl _ _, ?_, rfl⟩
      · exact (domainsOf_addEntries _ _ _ _).trans (if_pos rfl)
      · exact filter_setCount_ne _ _ _
  · rw [deleteBlocklist, clearAndInsert_eq]
    exact allOrError_attempt (deleteBlocklist_isSome f db id) fun db' =>
      deleteBlocklist_committed hdb

/-- A group that blocks one of two categories. -/
def blockingDatabase : Database :=
  { emptyDatabase with groups := [1], categories := [10, 20], policies := [(1, 10)] }

theorem replace_all_atomic_policy :
    PairsReplaced blockingDatabase.policies
      (setGroupPolicy .none blockingDatabase 1 [20, 20]).1.policies 1 [20, 20] := by
  have hdb : ReferencesLists blockingDatabase := fun _ hbc => nomatch hbc
  obtain ⟨hsucceeds, -, hdone⟩ := (replace_all_atomic hdb .none).1 1 [20, 20]
  exact (hdone (hsucceeds.2 (by decide))).1

/-- PostgreSQL cuts the space behind a name of 253 letters, without an error. -/
theorem entries_cut :
    let db : Database := { emptyDatabase with blocklists := [⟨1, [], [], 0, true, 0⟩] }
    let domain := List.replicate 253 'x' ++ [' ']
    let result := insertBlocklistEntries .none db 1 [domain]
    result.2 = (1, false) ∧ result.1.entries = [⟨1, List.replicate 253 'x'⟩] ∧
      domainsOf result.1.entries 1 ≠ domainsOf db.entries 1 ∪ [domain].toFinset := by
  decide +kernel

end DnsFilter
