import DnsFilter.Filter.Downloader
import DnsFilter.Lib.Transaction
import DnsFilter.Store.Counts

/-!
# Refreshing a list

`Updater.updateList` of `internal/filter/updater.go` and the body of the loop in
`Handlers.DownloadLists`, statement by statement, under any failures.  The two copies ignore
different errors: both the errors of the inserts, the second one also those of the other
statements and of the commit.

* `updateList_eq`, `downloadList_eq`: both are the same transaction;
* `refresh_atomic`: it replaces the entries of its list by the downloaded domains or leaves
  the database as it was.
-/

namespace DnsFilter

open Transaction

/-- The results of `FetchDomains`, whose domains contain no spaces.  The database refuses a
domain that is not UTF-8: its insert is among the statements that fail. -/
structure Fetched where
  found : List GoString
  err : Option FetchError
  noSpace : ∀ d ∈ found, ' ' ∉ d

/-- The results for a download. -/
def Fetched.ofDownload (result : Download) : Fetched where
  found := (fetchDomains result).1.map GoString.runes
  err := (fetchDomains result).2
  noSpace d hd := by
    obtain ⟨bytes, hbytes, rfl⟩ := List.mem_map.1 hd
    exact GoString.space_not_mem_runes (space_not_mem_of_fetchDomains hbytes)

/-- `Updater.updateList` behind the download; a return rolls an open transaction back. -/
def updateList (f : Faults) (db : Database) (listID : ℤ) (fetched : Fetched) : Database :=
  let ⟨domains, err, _⟩ := fetched
  if err ≠ none then db
  else if domains.length = 0 then db
  else
    match start f db with
    | none => db
    | some tx =>
        let (tx, err) := tx.exec Stmt.exec f (.deleteEntries listID)
        if err then tx.rollback
        else
          let (tx, count) := tx.execCount Stmt.exec f (domains.map (.insertEntry listID))
          let (tx, err) := tx.exec Stmt.exec f (.updateCount count listID)
          if err then tx.rollback else (tx.commit f).1

/-- The loop body of `DownloadLists` behind the download: the database, and the value that is
reported for the list. -/
def downloadList (f : Faults) (db : Database) (listID : ℤ) (fetched : Fetched) : Database × ℤ :=
  let ⟨domains, err, _⟩ := fetched
  if err ≠ none then (db, -1)
  else if domains.length = 0 then (db, 0)
  else
    match start f db with
    | none => (db, -1)
    | some tx =>
        let (tx, _) := tx.exec Stmt.exec f (.deleteEntries listID)
        let (tx, count) := tx.execCount Stmt.exec f (domains.map (.insertEntry listID))
        let (tx, _) := tx.exec Stmt.exec f (.updateCount count listID)
        ((tx.commit f).1, count)

/-- The domains that a download provides. -/
def Fetched.domains (fetched : Fetched) : List GoString :=
  if fetched.err = none then fetched.found else []

theorem Fetched.eq_of_domains_ne_nil {fetched : Fetched} (h : fetched.domains ≠ []) :
    fetched.err = none ∧ fetched.domains = fetched.found := by
  by_cases hok : fetched.err = none
  · exact ⟨hok, if_pos hok⟩
  · exact absurd (if_neg hok) h

/-- The domains that the database accepts are stored as they are. -/
theorem Fetched.stored_domains (fetched : Fetched) {db : Database} {commits : Bool} {listID : ℤ}
    (hw : Writes db commits listID fetched.domains) : stored fetched.domains = fetched.domains := by
  have hdomains := (Fetched.eq_of_domains_ne_nil hw.2.1).2
  exact stored_eq_self hw.2.2.2 (hdomains ▸ fetched.noSpace)

/-! ### One transaction -/

/-- The statements of a refresh. -/
def refreshStmts (listID : ℤ) (domains : List GoString) : List Stmt :=
  .deleteEntries listID :: domains.map (.insertEntry listID) ++ [.updateCount domains.length listID]

/-- The count is that of all domains in every transaction that is not lost. -/
theorem exec_updateCount {f : Faults} {listID : ℤ} {domains : List GoString} (tx : Tx Database) :
    (tx.after Stmt.exec f (domains.map (.insertEntry listID))).exec Stmt.exec f
        (.updateCount (tx.execCount Stmt.exec f (domains.map (.insertEntry listID))).2 listID) =
      (tx.after Stmt.exec f (domains.map (.insertEntry listID))).exec Stmt.exec f
        (.updateCount domains.length listID) := by
  refine Tx.exec_congr fun h => ?_
  rw [Tx.execCount_eq_length h, List.length_map]

/-- The statements of an operation are its transaction, committed when no failure meets it. -/
theorem attempt_stmts (f : Faults) (db : Database) (op : AdminOp) :
    (attempt Stmt.exec f db op.stmts).getD db = transaction (f.Clean op.stmts.length) op db := by
  rw [attempt, transaction, run_map_fst]
  by_cases hclean : f.Clean op.stmts.length <;> simp [hclean]

theorem attempt_refreshStmts (f : Faults) (db : Database) (listID : ℤ) {domains : List GoString}
    (hne : domains ≠ []) :
    (attempt Stmt.exec f db (refreshStmts listID domains)).getD db =
      transaction (f.Clean (domains.length + 2)) (.updateList listID domains) db := by
  have hlen : (refreshStmts listID domains).length = domains.length + 2 := by simp [refreshStmts]
  have hstmts : AdminOp.stmts (.updateList listID domains) = refreshStmts listID domains :=
    if_neg hne
  rw [← hlen, ← hstmts, attempt_stmts]

theorem transaction_updateList_nil (commits : Bool) (db : Database) (listID : ℤ) :
    transaction commits (.updateList listID []) db = db := by
  rw [transaction_updateList, if_neg fun h => h.2.1 rfl]

theorem transaction_of_beginFails {f : Faults} (h : f.beginFails = true) (n : ℕ) (op : AdminOp)
    (db : Database) : transaction (f.Clean n) op db = db := by
  have hclean : ¬ f.Clean n := fun hc => by simp [hc.1] at h
  simp [transaction, hclean]

/-- The transaction of a refresh behind all its statements. -/
theorem commit_refreshStmts {f : Faults} (hbegin : f.beginFails = false) (db : Database)
    (listID : ℤ) {domains : List GoString} (hne : domains ≠ []) :
    (((⟨db, some db, 0⟩ : Tx Database).after Stmt.exec f (refreshStmts listID domains)).commit
        f).1 = transaction (f.Clean (domains.length + 2)) (.updateList listID domains) db := by
  rw [Tx.commit_after hbegin, attempt_refreshStmts f db listID hne]

/-- `DownloadLists` refreshes a list in one transaction. -/
theorem downloadList_eq (f : Faults) (db : Database) (listID : ℤ) (fetched : Fetched) :
    (downloadList f db listID fetched).1 = transaction (f.Clean (fetched.domains.length + 2))
      (.updateList listID fetched.domains) db := by
  obtain ⟨domains, _ | err, hspace⟩ := fetched
  swap
  · exact (transaction_updateList_nil _ db listID).symm
  have hdomains : Fetched.domains ⟨domains, none, hspace⟩ = domains := rfl
  rw [hdomains]
  by_cases hne : domains = []
  · subst hne
    exact (transaction_updateList_nil _ db listID).symm
  have hlen : domains.length ≠ 0 := by simpa using hne
  cases hbegin : f.beginFails with
  | true =>
    rw [transaction_of_beginFails hbegin]
    simp [downloadList, start, hbegin, hne]
  | false =>
    rw [← commit_refreshStmts hbegin db listID hne, refreshStmts, List.cons_append, Tx.after_cons,
      Tx.after_append, Tx.after_cons, Tx.after_nil]
    simp only [downloadList, start, hbegin, hlen, Tx.execCount_fst, exec_updateCount]
    rfl

/-- Where `updateList` returns early, the commit of `DownloadLists` is a rollback. -/
theorem updateList_eq (f : Faults) (db : Database) (listID : ℤ) (fetched : Fetched) :
    updateList f db listID fetched = (downloadList f db listID fetched).1 := by
  obtain ⟨domains, _ | err, hspace⟩ := fetched
  swap
  · rfl
  by_cases hlen : domains.length = 0
  · simp [updateList, downloadList, hlen]
  cases hstart : start f db with
  | none => simp [updateList, downloadList, hlen, hstart]
  | some tx =>
    simp only [updateList, downloadList, hlen, hstart, Tx.execCount_fst, exec_updateCount, ne_eq,
      not_true_eq_false, if_false]
    by_cases hdel : (tx.exec Stmt.exec f (.deleteEntries listID)).2 = true
    · have hlost := Tx.commit_lost hdel
        (domains.map (Stmt.insertEntry listID) ++ [.updateCount domains.length listID])
      rw [Tx.after_append, Tx.after_cons, Tx.after_nil] at hlost
      rw [if_pos hdel, hlost]
      rfl
    · rw [if_neg hdel]
      by_cases hupd : (((tx.exec Stmt.exec f (.deleteEntries listID)).1.after Stmt.exec f
          (domains.map (.insertEntry listID))).exec Stmt.exec f
            (.updateCount domains.length listID)).2 = true
      · have hlost := Tx.commit_lost hupd []
        rw [Tx.after_nil] at hlost
        rw [if_pos hupd, hlost]
        rfl
      · rw [if_neg hupd]

/-! ### All or nothing -/

theorem entryRows_addEntries_self (listID : ℤ) (entries : List EntryRow)
    (domains : List GoString) :
    entryRows (addEntries listID entries domains) listID =
      addEntries listID (entryRows entries listID) domains := by
  induction domains generalizing entries with
  | nil => rfl
  | cons d domains ih =>
    have hmem : (⟨listID, d⟩ : EntryRow) ∈ entryRows entries listID ↔ ⟨listID, d⟩ ∈ entries := by
      simp [entryRows]
    rw [addEntries_cons, addEntries_cons, ih]
    by_cases h : (⟨listID, d⟩ : EntryRow) ∈ entries
    · rw [if_pos h, if_pos (hmem.2 h)]
    · rw [if_neg h, if_neg (mt hmem.1 h)]
      simp [entryRows]

theorem entryRows_addEntries_of_ne {listID l : ℤ} (h : l ≠ listID) (entries : List EntryRow)
    (domains : List GoString) :
    entryRows (addEntries listID entries domains) l = entryRows entries l := by
  induction domains generalizing entries with
  | nil => rfl
  | cons d domains ih =>
    rw [addEntries_cons, ih]
    split_ifs
    · rfl
    · simp [entryRows, h.symm]

theorem entryRows_filter_ne (entries : List EntryRow) (listID l : ℤ) :
    entryRows (entries.filter (·.listID ≠ listID)) l =
      if l = listID then [] else entryRows entries l := by
  split_ifs with h
  · rw [entryRows, List.filter_filter, List.filter_eq_nil_iff]
    intro be _
    simp [h]
  · rw [entryRows, List.filter_filter]
    refine List.filter_congr fun be _ => ?_
    by_cases hl : be.listID = l
    · simp [hl, h]
    · simp [hl]

/-- What a refresh does to the rows of `blocklist_entries`. -/
theorem entryRows_refresh (commits : Bool) (db : Database) (listID : ℤ)
    (domains : List GoString) (l : ℤ) :
    entryRows (transaction commits (.updateList listID domains) db).entries l =
      if l = listID ∧ Writes db commits listID domains then addEntries listID [] (stored domains)
      else entryRows db.entries l := by
  rw [transaction_updateList]
  by_cases hw : Writes db commits listID domains
  · rw [if_pos hw, writeList]
    by_cases hl : l = listID
    · subst hl
      rw [if_pos ⟨rfl, hw⟩, entryRows_addEntries_self, entryRows_filter_ne, if_pos rfl]
    · rw [if_neg fun h => hl h.1, entryRows_addEntries_of_ne hl, entryRows_filter_ne, if_neg hl]
  · rw [if_neg hw, if_neg fun h => hw h.2]

/-- The rows of a list are the domains of a download, each of them once. -/
def HoldsExactly (db : Database) (listID : ℤ) (domains : List GoString) : Prop :=
  (entryRows db.entries listID).Nodup ∧ domainsOf db.entries listID = domains.toFinset

theorem holdsExactly_of_rows {db : Database} {listID : ℤ} {domains : List GoString}
    (h : entryRows db.entries listID = addEntries listID [] domains) :
    HoldsExactly db listID domains := by
  refine ⟨h ▸ nodup_addEntries List.nodup_nil domains, ?_⟩
  ext d
  have hrow : d ∈ domainsOf db.entries listID ↔ ⟨listID, d⟩ ∈ entryRows db.entries listID := by
    rw [mem_domainsOf]
    simp [entryRows]
  rw [hrow, h, mem_addEntries]
  simp

/-- Under any failures both refreshers leave the same database; the entries of the list are
those of the download or those before, and no other entry changes. -/
theorem refresh_atomic (f : Faults) (db : Database) (listID : ℤ) (fetched : Fetched) :
    (updateList f db listID fetched).entries = (downloadList f db listID fetched).1.entries ∧
      ∀ db' ∈ [updateList f db listID fetched, (downloadList f db listID fetched).1],
        (entryRows db'.entries listID = entryRows db.entries listID ∨
            fetched.err = none ∧ HoldsExactly db' listID fetched.found) ∧
          (fetched.err ≠ none ∨ fetched.found = [] →
            entryRows db'.entries listID = entryRows db.entries listID) ∧
          ∀ l, l ≠ listID → entryRows db'.entries l = entryRows db.entries l := by
  refine ⟨by rw [updateList_eq], ?_⟩
  have hboth : ∀ db' ∈ [updateList f db listID fetched, (downloadList f db listID fetched).1],
      db' = transaction (f.Clean (fetched.domains.length + 2))
        (.updateList listID fetched.domains) db := by
    simp [updateList_eq, downloadList_eq]
  intro db' hdb'
  have hrows := fun l => entryRows_refresh (f.Clean (fetched.domains.length + 2)) db listID
    fetched.domains l
  rw [← hboth db' hdb'] at hrows
  refine ⟨?_, ?_, fun l hl => ?_⟩
  · rw [hrows listID]
    split_ifs with hw
    · obtain ⟨hok, hdomains⟩ := Fetched.eq_of_domains_ne_nil hw.2.2.1
      right
      refine ⟨hok, holdsExactly_of_rows ?_⟩
      rw [hrows listID, if_pos hw, fetched.stored_domains hw.2, hdomains]
    · exact .inl rfl
  · intro hempty
    have hnil : fetched.domains = [] := by
      rw [Fetched.domains]
      split_ifs with hok
      · exact hempty.resolve_left (not_not.2 hok)
      · rfl
    rw [hrows listID, if_neg fun hw => hw.2.2.1 hnil]
  · rw [hrows l, if_neg fun hw => hl hw.1]

end DnsFilter
