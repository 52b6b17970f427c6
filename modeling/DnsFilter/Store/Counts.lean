import DnsFilter.Store.Operations
import DnsFilter.Lib.Run

/-!
# Domain counts

`blocklists.domain_count` next to the rows it counts, over runs of the operations that write
either of them.

* `Consistent`: the keys and constraints of the two tables, which every operation keeps;
* `length_entryRows`: the rows of a list are its distinct domains;
* `run_insertBlocklistEntries`, `run_updateList`: what a committed operation leaves behind;
* `domainCounts_iff`: the counts stay true exactly along the runs whose insertions report as
  many domains as the list then has.
-/

namespace DnsFilter

open EventRun

/-! ### Rows of a list -/

/-- Keys, references and the unique index of `blocklists` and `blocklist_entries`. -/
structure Database.Consistent (db : Database) : Prop where
  nodup_ids : (db.blocklists.map (·.id)).Nodup
  lt_next : ∀ bl ∈ db.blocklists, bl.id < db.nextListID
  hasList : ∀ be ∈ db.entries, db.hasList be.listID
  nodup_entries : db.entries.Nodup

/-- The entry rows of a list. -/
def entryRows (entries : List EntryRow) (listID : ℤ) : List EntryRow :=
  entries.filter (·.listID = listID)

/-- The domains of a list. -/
def domainsOf (entries : List EntryRow) (listID : ℤ) : Finset GoString :=
  ((entryRows entries listID).map (·.domain)).toFinset

theorem mem_domainsOf {entries : List EntryRow} {listID : ℤ} {d : GoString} :
    d ∈ domainsOf entries listID ↔ ⟨listID, d⟩ ∈ entries := by
  simp only [domainsOf, entryRows, List.mem_toFinset, List.mem_map, List.mem_filter,
    decide_eq_true_eq]
  constructor
  · rintro ⟨⟨l, d'⟩, ⟨hmem, rfl⟩, rfl⟩
    exact hmem
  · intro h
    exact ⟨_, ⟨h, rfl⟩, rfl⟩

/-- Under the unique index the rows of a list are its distinct domains. -/
theorem length_entryRows {entries : List EntryRow} (h : entries.Nodup) (listID : ℤ) :
    (entryRows entries listID).length = (domainsOf entries listID).card := by
  rw [domainsOf, List.toFinset_card_of_nodup, List.length_map]
  refine (h.filter _).map_on ?_
  rintro ⟨l, d⟩ hx ⟨l', d'⟩ hy hd
  have hl : l = listID := by simpa using (List.mem_filter.1 hx).2
  have hl' : l' = listID := by simpa using (List.mem_filter.1 hy).2
  exact congrArg₂ EntryRow.mk (hl.trans hl'.symm) hd

/-- `ON CONFLICT (list_id, domain) DO NOTHING`, domain after domain. -/
def addEntries (listID : ℤ) (entries : List EntryRow) (domains : List GoString) : List EntryRow :=
  domains.foldl
    (fun entries d => if ⟨listID, d⟩ ∈ entries then entries else entries ++ [⟨listID, d⟩]) entries

theorem addEntries_cons (listID : ℤ) (entries : List EntryRow) (d : GoString)
    (domains : List GoString) : addEntries listID entries (d :: domains) =
      addEntries listID
        (if ⟨listID, d⟩ ∈ entries then entries else entries ++ [⟨listID, d⟩]) domains := rfl

theorem mem_addEntries {listID : ℤ} {entries : List EntryRow} {domains : List GoString}
    {be : EntryRow} :
    be ∈ addEntries listID entries domains ↔
      be ∈ entries ∨ be.listID = listID ∧ be.domain ∈ domains := by
  induction domains generalizing entries with
  | nil => simp [addEntries]
  | cons d domains ih =>
    have hbe : be = ⟨listID, d⟩ ↔ be.listID = listID ∧ be.domain = d := by
      cases be
      simp
    rw [addEntries_cons, ih]
    split_ifs with h
    · constructor
      · tauto
      · rintro (hmem | ⟨hl, hd⟩)
        · exact .inl hmem
        · rcases List.mem_cons.1 hd with hd | hd
          · exact .inl (hbe.2 ⟨hl, hd⟩ ▸ h)
          · exact .inr ⟨hl, hd⟩
    · rw [List.mem_append, List.mem_singleton, hbe, List.mem_cons]
      tauto

theorem nodup_addEntries {listID : ℤ} {entries : List EntryRow} (h : entries.Nodup)
    (domains : List GoString) : (addEntries listID entries domains).Nodup := by
  induction domains generalizing entries with
  | nil => exact h
  | cons d domains ih =>
    rw [addEntries_cons]
    split_ifs with hd
    · exact ih h
    · refine ih (List.nodup_append.2 ⟨h, List.nodup_singleton _, ?_⟩)
      rintro _ hmem _ hlast rfl
      exact hd (List.mem_singleton.1 hlast ▸ hmem)

theorem domainsOf_addEntries (listID : ℤ) (entries : List EntryRow) (domains : List GoString)
    (l : ℤ) : domainsOf (addEntries listID entries domains) l =
      if l = listID then domainsOf entries l ∪ domains.toFinset else domainsOf entries l := by
  ext d
  rw [mem_domainsOf, mem_addEntries]
  split_ifs with h
  · rw [Finset.mem_union, mem_domainsOf, List.mem_toFinset]
    simp [h]
  · rw [mem_domainsOf]
    simp [h]

/-! ### Committed operations -/

/-- An operation in a transaction; a transaction that does not commit rolls back. -/
def transaction (commits : Bool) (op : AdminOp) (db : Database) : Database :=
  if commits then ((op.run db).map Prod.fst).getD db else db

/-- The statements of a transaction, without their notifications. -/
theorem run_map_fst (op : AdminOp) (db : Database) :
    (op.run db).map Prod.fst = op.stmts.foldlM Stmt.exec db := by
  have hstmts : ∀ (ss : List Stmt) (db : Database),
      (runStmts ss db).map Prod.fst = ss.foldlM Stmt.exec db := by
    intro ss
    induction ss with
    | nil => exact fun _ => rfl
    | cons s ss ih =>
      intro db
      simp only [runStmts, List.foldlM_cons, Option.bind_eq_bind, Option.map_bind]
      congr 1
      funext db₁
      rw [← ih db₁, Function.comp_apply]
      cases runStmts ss db₁ <;> rfl
  rw [AdminOp.run, commit, Option.map_map, ← hstmts]
  rfl

/-- PostgreSQL accepts the domains as entries of the list. -/
def Accepts (db : Database) (listID : ℤ) (domains : List GoString) : Prop :=
  db.hasList listID ∧ ∀ d ∈ domains, fitsVarchar 253 d

instance (db : Database) (listID : ℤ) (domains : List GoString) :
    Decidable (Accepts db listID domains) := inferInstanceAs (Decidable (_ ∧ _))

/-- The domains as the column stores them. -/
def stored (domains : List GoString) : List GoString := domains.map (varchar 253)

@[simp] theorem length_stored (domains : List GoString) :
    (stored domains).length = domains.length := List.length_map _

/-- Domains without spaces are stored as they are. -/
theorem stored_eq_self {domains : List GoString} (h : ∀ d ∈ domains, fitsVarchar 253 d)
    (hspace : ∀ d ∈ domains, ' ' ∉ d) : stored domains = domains :=
  (List.map_congr_left fun d hd => varchar_eq_self (h d hd) (hspace d hd)).trans (List.map_id _)

theorem exec_insertEntry {db : Database} {listID : ℤ} (hlist : db.hasList listID) (d : GoString) :
    (Stmt.insertEntry listID d).exec db =
      if fitsVarchar 253 d then
        some { db with entries := addEntries listID db.entries [varchar 253 d] }
      else none := by
  simp only [Stmt.exec, hlist, and_true, addEntries, List.foldl_cons, List.foldl_nil]
  split_ifs <;> rfl

theorem foldlM_insertEntry_of_hasList {db : Database} {listID : ℤ} (hlist : db.hasList listID)
    (domains : List GoString) :
    (domains.map (.insertEntry listID)).foldlM Stmt.exec db =
      if ∀ d ∈ domains, fitsVarchar 253 d then
        some { db with entries := addEntries listID db.entries (stored domains) }
      else none := by
  induction domains generalizing db with
  | nil => simp [addEntries, stored]
  | cons d domains ih =>
    rw [List.map_cons, List.foldlM_cons, exec_insertEntry hlist]
    by_cases hd : fitsVarchar 253 d
    · have hlist' : Database.hasList
          { db with entries := addEntries listID db.entries [varchar 253 d] } listID := hlist
      rw [if_pos hd, Option.bind_eq_bind, Option.bind_some, ih hlist']
      simp only [List.forall_mem_cons, hd, true_and]
      rfl
    · rw [if_neg hd, if_neg fun h => hd (h d List.mem_cons_self)]
      rfl

/-- The entries of a list are inserted together or not at all. -/
theorem foldlM_insertEntry {db : Database} {listID : ℤ} {domains : List GoString}
    (hne : domains ≠ []) :
    (domains.map (.insertEntry listID)).foldlM Stmt.exec db =
      if Accepts db listID domains then
        some { db with entries := addEntries listID db.entries (stored domains) }
      else none := by
  by_cases hlist : db.hasList listID
  · rw [foldlM_insertEntry_of_hasList hlist]
    simp [Accepts, hlist]
  · obtain ⟨d, domains, rfl⟩ := List.exists_cons_of_ne_nil hne
    simp [Accepts, hlist, Stmt.exec]

/-- Set the count of a list. -/
def setCount (blocklists : List BlocklistRow) (listID count : ℤ) : List BlocklistRow :=
  blocklists.map fun bl => if bl.id = listID then { bl with domainCount := count } else bl

/-- The entries of one list are written, and its count is set. -/
def writeList (db : Database) (listID : ℤ) (entries : List EntryRow) (count : ℤ) : Database :=
  { db with entries := entries, blocklists := setCount db.blocklists listID count }

/-- `InsertBlocklistEntries` adds the domains and stores how many it was given. -/
theorem run_insertBlocklistEntries {db : Database} {listID : ℤ} {domains : List GoString}
    (hne : domains ≠ []) :
    ((AdminOp.insertBlocklistEntries listID domains).run db).map Prod.fst =
      if Accepts db listID domains then
        some (writeList db listID (addEntries listID db.entries (stored domains)) domains.length)
      else none := by
  rw [run_map_fst, AdminOp.stmts, if_neg hne, List.foldlM_append, foldlM_insertEntry hne]
  split_ifs <;> rfl

/-- `updateList` replaces the domains and stores how many it was given. -/
theorem run_updateList {db : Database} {listID : ℤ} {domains : List GoString}
    (hne : domains ≠ []) :
    ((AdminOp.updateList listID domains).run db).map Prod.fst =
      if Accepts db listID domains then
        some (writeList db listID
          (addEntries listID (db.entries.filter (·.listID ≠ listID)) (stored domains))
          domains.length)
      else none := by
  rw [run_map_fst, AdminOp.stmts, if_neg hne, List.cons_append, List.foldlM_cons, Stmt.exec,
    Option.bind_eq_bind, Option.bind_some, List.foldlM_append, foldlM_insertEntry hne]
  split_ifs with h h' h'
  · rfl
  · exact absurd h h'
  · exact absurd h' h
  · rfl

/-! ### True counts -/

/-- The count of a list is the number of its rows. -/
def CountTrue (db : Database) (listID : ℤ) : Prop :=
  ∀ bl ∈ db.blocklists, bl.id = listID → bl.domainCount = (entryRows db.entries listID).length

/-- The counts of all lists are true. -/
def CountsTrue (db : Database) : Prop :=
  ∀ bl ∈ db.blocklists, bl.domainCount = (entryRows db.entries bl.id).length

theorem countsTrue_iff {db : Database} : CountsTrue db ↔ ∀ l, CountTrue db l :=
  ⟨fun h _ bl hbl hid => hid ▸ h bl hbl, fun h bl hbl => h bl.id bl hbl rfl⟩

theorem map_id_setCount (blocklists : List BlocklistRow) (listID count : ℤ) :
    (setCount blocklists listID count).map (·.id) = blocklists.map (·.id) := by
  rw [setCount, List.map_map]
  refine List.map_congr_left fun bl _ => ?_
  rw [Function.comp_apply]
  split_ifs <;> rfl

@[simp] theorem hasList_writeList (db : Database) (listID : ℤ) (entries : List EntryRow)
    (count l : ℤ) : (writeList db listID entries count).hasList l ↔ db.hasList l := by
  rw [Database.hasList, writeList, map_id_setCount, Database.hasList]

theorem Database.Consistent.writeList {db : Database} (h : db.Consistent) {listID count : ℤ}
    {entries : List EntryRow} (hnodup : entries.Nodup)
    (hlist : ∀ be ∈ entries, db.hasList be.listID) :
    (writeList db listID entries count).Consistent where
  nodup_ids := by
    rw [DnsFilter.writeList, map_id_setCount]
    exact h.nodup_ids
  lt_next bl hbl := by
    obtain ⟨bl', hbl', rfl⟩ := List.mem_map.1 hbl
    have hlt := h.lt_next bl' hbl'
    split_ifs <;> exact hlt
  hasList be hbe := (hasList_writeList ..).2 (hlist be hbe)
  nodup_entries := hnodup

/-- A write settles the count of its list and leaves the others alone. -/
theorem countTrue_writeList {db : Database} (h : db.Consistent) {listID count : ℤ}
    {entries : List EntryRow} (hnodup : entries.Nodup) (hlist : db.hasList listID)
    (hother : ∀ l, l ≠ listID → domainsOf entries l = domainsOf db.entries l) (l : ℤ) :
    CountTrue (writeList db listID entries count) l ↔
      if l = listID then count = (domainsOf entries listID).card else CountTrue db l := by
  have hrow : CountTrue (writeList db listID entries count) l ↔ ∀ bl ∈ db.blocklists, bl.id = l →
      (if bl.id = listID then count else bl.domainCount) = (domainsOf entries l).card := by
    simp only [CountTrue, writeList, setCount, List.forall_mem_map, length_entryRows hnodup]
    refine forall₂_congr fun bl _ => ?_
    split_ifs <;> rfl
  rw [hrow]
  by_cases hl : l = listID
  · subst hl
    obtain ⟨bl, hbl, hid⟩ := List.mem_map.1 hlist
    rw [if_pos rfl]
    constructor
    · intro hall
      simpa [hid] using hall bl hbl hid
    · intro hcount bl' _ hid'
      rw [if_pos hid', hcount]
  · rw [if_neg hl, hother l hl, CountTrue, length_entryRows h.nodup_entries]
    refine forall₃_congr fun bl _ hid => ?_
    rw [if_neg (hid ▸ hl)]

theorem length_eq_card_iff {domains : List GoString} :
    domains.length = (stored domains).toFinset.card ↔ (stored domains).Nodup := by
  rw [eq_comm, ← length_stored]
  exact Multiset.toFinset_card_eq_card_iff_nodup (m := (stored domains : Multiset GoString))

/-! ### Operations -/

/-- The active lists with a source URL. -/
def externalLists (db : Database) : List ℤ :=
  (db.blocklists.filter fun bl => bl.sourceURL ≠ [] ∧ bl.active).map (·.id)

/-- `DownloadLists`: one transaction for each external list; a list whose download fails or
is empty is skipped. -/
def downloadAll (db : Database) (fetched : ℤ → List GoString) (commits : ℤ → Bool) : Database :=
  (externalLists db).foldl
    (fun db listID => transaction (commits listID) (.updateList listID (fetched listID)) db) db

/-- An operation on lists and entries, and whether its transactions commit. -/
inductive ListOp
  | insertBlocklist (name sourceURL : GoString) (listType : ℤ) (commits : Bool)
  | insertBlocklistEntries (listID : ℤ) (domains : List GoString) (commits : Bool)
  | updateList (listID : ℤ) (domains : List GoString) (commits : Bool)
  | downloadLists (fetched : ℤ → List GoString) (commits : ℤ → Bool)

def ListOp.apply (db : Database) : ListOp → Database
  | .insertBlocklist name sourceURL listType commits =>
      transaction commits (.insertBlocklist name sourceURL listType) db
  | .insertBlocklistEntries listID domains commits =>
      transaction commits (.insertBlocklistEntries listID domains) db
  | .updateList listID domains commits => transaction commits (.updateList listID domains) db
  | .downloadLists fetched commits => downloadAll db fetched commits

/-- The number of domains given to the operation is the number of distinct domains that the
list then has, as the column stores them. -/
def CountsDistinct (db : Database) : ListOp → Prop
  | .insertBlocklist .. => True
  | .insertBlocklistEntries listID domains commits =>
      commits → domains ≠ [] → Accepts db listID domains →
        domains.length = (domainsOf db.entries listID ∪ (stored domains).toFinset).card
  | .updateList listID domains commits =>
      commits → Accepts db listID domains → (stored domains).Nodup
  | .downloadLists fetched commits =>
      ∀ listID ∈ externalLists db, commits listID → Accepts db listID (fetched listID) →
        (stored (fetched listID)).Nodup

/-- The transaction writes. -/
def Writes (db : Database) (commits : Bool) (listID : ℤ) (domains : List GoString) : Prop :=
  commits ∧ domains ≠ [] ∧ Accepts db listID domains

instance (db : Database) (commits : Bool) (listID : ℤ) (domains : List GoString) :
    Decidable (Writes db commits listID domains) := inferInstanceAs (Decidable (_ ∧ _))

theorem transaction_eq {op : AdminOp} {db db' : Database} {listID : ℤ} {domains : List GoString}
    (commits : Bool) (hnil : domains = [] → op.stmts = [])
    (hrun : domains ≠ [] → (op.run db).map Prod.fst =
      if Accepts db listID domains then some db' else none) :
    transaction commits op db =
      if Writes db commits listID domains then db' else db := by
  cases commits with
  | false => simp [transaction, Writes]
  | true =>
    by_cases hne : domains = []
    · rw [transaction, run_map_fst, hnil hne]
      simp [Writes, hne]
    · rw [transaction, hrun hne]
      by_cases hacc : Accepts db listID domains <;> simp [Writes, hne, hacc]

theorem transaction_insertBlocklistEntries (db : Database) (commits : Bool) (listID : ℤ)
    (domains : List GoString) :
    transaction commits (.insertBlocklistEntries listID domains) db =
      if Writes db commits listID domains then
        writeList db listID (addEntries listID db.entries (stored domains)) domains.length
      else db :=
  transaction_eq commits (fun h => if_pos h) run_insertBlocklistEntries

theorem transaction_updateList (db : Database) (commits : Bool) (listID : ℤ)
    (domains : List GoString) :
    transaction commits (.updateList listID domains) db =
      if Writes db commits listID domains then
        writeList db listID
          (addEntries listID (db.entries.filter (·.listID ≠ listID)) (stored domains))
          domains.length
      else db :=
  transaction_eq commits (fun h => if_pos h) run_updateList

/-- Domains are added to some of the entries, which still have all domains of the other lists:
the tables stay consistent, and one count is settled. -/
theorem writeList_spec {db : Database} (h : db.Consistent) {listID : ℤ} {entries : List EntryRow}
    (hlist : db.hasList listID) (domains : List GoString) (hsub : entries.Sublist db.entries)
    (hother : ∀ l, l ≠ listID → domainsOf entries l = domainsOf db.entries l) :
    let db' := writeList db listID (addEntries listID entries (stored domains)) domains.length
    db'.Consistent ∧ ∀ l, CountTrue db' l ↔
      if l = listID then
        domains.length = (domainsOf entries listID ∪ (stored domains).toFinset).card
      else CountTrue db l := by
  intro db'
  have hnodup : (addEntries listID entries (stored domains)).Nodup :=
    nodup_addEntries (h.nodup_entries.sublist hsub) (stored domains)
  have hlists : ∀ be ∈ addEntries listID entries (stored domains), db.hasList be.listID := by
    intro be hbe
    rcases mem_addEntries.1 hbe with hbe | ⟨hl, -⟩
    · exact h.hasList be (hsub.subset hbe)
    · exact hl ▸ hlist
  refine ⟨h.writeList hnodup hlists, fun l => ?_⟩
  rw [countTrue_writeList h hnodup hlist, domainsOf_addEntries, if_pos rfl, Nat.cast_inj]
  intro l hl
  rw [domainsOf_addEntries, if_neg hl, hother l hl]

theorem domainsOf_filter_ne (entries : List EntryRow) (listID l : ℤ) :
    domainsOf (entries.filter (·.listID ≠ listID)) l =
      if l = listID then ∅ else domainsOf entries l := by
  ext d
  split_ifs with hl <;> simp [mem_domainsOf, hl]

theorem insertBlocklistEntries_spec {db : Database} (h : db.Consistent) (commits : Bool)
    (listID : ℤ) (domains : List GoString) :
    let db' := transaction commits (.insertBlocklistEntries listID domains) db
    db'.Consistent ∧ ∀ l, CountTrue db' l ↔
      if Writes db commits listID domains ∧ l = listID then
        domains.length = (domainsOf db.entries listID ∪ (stored domains).toFinset).card
      else CountTrue db l := by
  rw [transaction_insertBlocklistEntries]
  by_cases hw : Writes db commits listID domains
  · rw [if_pos hw]
    simpa [hw] using writeList_spec h hw.2.2.1 domains (.refl _) fun _ _ => rfl
  · rw [if_neg hw]
    simpa [hw] using h

theorem updateList_spec {db : Database} (h : db.Consistent) (commits : Bool)
    (listID : ℤ) (domains : List GoString) :
    let db' := transaction commits (.updateList listID domains) db
    db'.Consistent ∧ ∀ l, CountTrue db' l ↔
      if Writes db commits listID domains ∧ l = listID then (stored domains).Nodup
      else CountTrue db l := by
  rw [transaction_updateList]
  by_cases hw : Writes db commits listID domains
  · rw [if_pos hw]
    have hsub : (db.entries.filter (·.listID ≠ listID)).Sublist db.entries := List.filter_sublist
    have hspec := writeList_spec h hw.2.2.1 domains hsub fun l hl => by
      rw [domainsOf_filter_ne, if_neg hl]
    rw [domainsOf_filter_ne, if_pos rfl, Finset.empty_union, length_eq_card_iff] at hspec
    simpa [hw] using hspec
  · rw [if_neg hw]
    simpa [hw] using h

theorem hasList_transaction (db : Database) (commits : Bool) (listID : ℤ)
    (domains : List GoString) (l : ℤ) :
    (transaction commits (.updateList listID domains) db).hasList l ↔ db.hasList l := by
  rw [transaction_updateList]
  split_ifs
  · exact hasList_writeList ..
  · rfl

/-- The refresh of several lists settles the count of each list that it writes. -/
theorem downloads_spec (fetched : ℤ → List GoString) (commits : ℤ → Bool) {listIDs : List ℤ}
    (hnodup : listIDs.Nodup) {db : Database} (h : db.Consistent) :
    let db' := listIDs.foldl
      (fun db listID => transaction (commits listID) (.updateList listID (fetched listID)) db) db
    db'.Consistent ∧ ∀ l, CountTrue db' l ↔
      if Writes db (commits l) l (fetched l) ∧ l ∈ listIDs then (stored (fetched l)).Nodup
      else CountTrue db l := by
  induction listIDs generalizing db with
  | nil => simpa using h
  | cons listID listIDs ih =>
    obtain ⟨hnew, hnodup⟩ := List.nodup_cons.1 hnodup
    obtain ⟨hstep, htrue⟩ := updateList_spec h (commits listID) listID (fetched listID)
    obtain ⟨hrest, hall⟩ := ih hnodup hstep
    refine ⟨hrest, fun l => ?_⟩
    have hwrites : ∀ l,
        Writes (transaction (commits listID) (.updateList listID (fetched listID)) db) (commits l) l
          (fetched l) ↔ Writes db (commits l) l (fetched l) := by
      intro l
      simp only [Writes, Accepts, hasList_transaction]
    rw [List.foldl_cons, hall, htrue]
    simp only [hwrites]
    by_cases hl : l = listID
    · subst hl
      simp [hnew]
    · simp [hl]

/-- `InsertBlocklist` adds a list without rows and counts none. -/
theorem insertBlocklist_spec {db : Database} (h : db.Consistent) (name sourceURL : GoString)
    (listType : ℤ) (commits : Bool) :
    let db' := transaction commits (.insertBlocklist name sourceURL listType) db
    db'.Consistent ∧ (CountsTrue db → CountsTrue db') := by
  have hfresh : ∀ bl ∈ db.blocklists, bl.id ≠ db.nextListID := fun bl hbl => (h.lt_next bl hbl).ne
  unfold transaction
  rw [run_map_fst, AdminOp.stmts, List.foldlM_cons, Stmt.exec]
  split_ifs
  · refine ⟨⟨?_, ?_, ?_, h.nodup_entries⟩, fun hcounts => ?_⟩
    · simp only [Option.bind_eq_bind, Option.bind_some, List.foldlM_nil, Option.pure_def,
        Option.getD_some, List.map_append, List.map_cons, List.map_nil]
      refine List.nodup_append.2 ⟨h.nodup_ids, List.nodup_singleton _, ?_⟩
      rintro _ hid _ hnew rfl
      obtain ⟨bl, hbl, hid⟩ := List.mem_map.1 hid
      exact hfresh bl hbl (hid.trans (List.mem_singleton.1 hnew))
    · intro bl hbl
      rcases List.mem_append.1 hbl with hbl | hnew
      · exact (h.lt_next bl hbl).trans (Int.lt_succ _)
      · rw [List.mem_singleton.1 hnew]
        exact Int.lt_succ _
    · intro be hbe
      obtain ⟨bl, hbl, hid⟩ := List.mem_map.1 (h.hasList be hbe)
      exact List.mem_map.2 ⟨bl, List.mem_append_left _ hbl, hid⟩
    · intro bl hbl
      rcases List.mem_append.1 hbl with hbl | hnew
      · exact hcounts bl hbl
      · -- no row refers to an id that the sequence has not given out
        rw [List.mem_singleton.1 hnew]
        have hnone : entryRows db.entries db.nextListID = [] := by
          refine List.filter_eq_nil_iff.2 fun be hbe hid => ?_
          obtain ⟨bl', hbl', hid'⟩ := List.mem_map.1 (h.hasList be hbe)
          exact hfresh bl' hbl' (hid'.trans (by simpa using hid))
        exact (congrArg (fun rows : List EntryRow => (rows.length : ℤ)) hnone).symm
  · exact ⟨h, id⟩
  · exact ⟨h, id⟩

/-- Consistent tables with true counts. -/
structure Counted (db : Database) : Prop where
  consistent : db.Consistent
  counts : CountsTrue db

theorem consistent_apply {db : Database} (h : db.Consistent) (op : ListOp) :
    (op.apply db).Consistent := by
  cases op with
  | insertBlocklist name sourceURL listType commits =>
    exact (insertBlocklist_spec h name sourceURL listType commits).1
  | insertBlocklistEntries listID domains commits =>
    exact (insertBlocklistEntries_spec h commits listID domains).1
  | updateList listID domains commits => exact (updateList_spec h commits listID domains).1
  | downloadLists fetched commits =>
    exact (downloads_spec fetched commits (h.nodup_ids.sublist (List.filter_sublist.map _)) h).1

/-- One operation keeps the counts true exactly under its condition. -/
theorem counted_apply_iff {db : Database} (h : Counted db) (op : ListOp) :
    Counted (op.apply db) ↔ CountsDistinct db op := by
  have htrue := countsTrue_iff.1 h.counts
  have hcounts : Counted (op.apply db) ↔ CountsTrue (op.apply db) :=
    ⟨fun h => h.counts, fun hc => ⟨consistent_apply h.consistent op, hc⟩⟩
  rw [hcounts]
  cases op with
  | insertBlocklist name sourceURL listType commits =>
    exact iff_of_true ((insertBlocklist_spec h.consistent ..).2 h.counts) trivial
  | insertBlocklistEntries listID domains commits =>
    have hspec := (insertBlocklistEntries_spec h.consistent commits listID domains).2
    simp only [countsTrue_iff, ListOp.apply, hspec, CountsDistinct]
    constructor
    · intro hall hc hne hacc
      simpa [Writes, hc, hne, hacc] using hall listID
    · intro hcond l
      split_ifs with hw
      · exact hcond hw.1.1 hw.1.2.1 hw.1.2.2
      · exact htrue l
  | updateList listID domains commits =>
    have hspec := (updateList_spec h.consistent commits listID domains).2
    simp only [countsTrue_iff, ListOp.apply, hspec, CountsDistinct]
    constructor
    · intro hall hc hacc
      by_cases hne : domains = []
      · exact hne ▸ List.nodup_nil
      · simpa [Writes, hc, hne, hacc] using hall listID
    · intro hcond l
      split_ifs with hw
      · exact hcond hw.1.1 hw.1.2.2
      · exact htrue l
  | downloadLists fetched commits =>
    have hids : (externalLists db).Nodup :=
      h.consistent.nodup_ids.sublist (List.filter_sublist.map _)
    have hspec := (downloads_spec fetched commits hids h.consistent).2
    simp only [countsTrue_iff, ListOp.apply, downloadAll, hspec, CountsDistinct]
    constructor
    · intro hall listID hmem hc hacc
      by_cases hne : fetched listID = []
      · exact hne ▸ List.nodup_nil
      · simpa [Writes, hc, hne, hacc, hmem] using hall listID
    · intro hcond l
      split_ifs with hw
      · exact hcond l hw.2 hw.1.1 hw.1.2.2
      · exact htrue l

/-- **The domain counts are true after every operation of a run exactly when every insertion
is given as many domains as its list then has distinct ones.** -/
theorem domainCounts_iff {db : Database} (h : Counted db) (ops : List ListOp) :
    (∀ done, done <+: ops → CountsTrue (run ListOp.apply db done)) ↔
      Along ListOp.apply CountsDistinct db ops := by
  have hconsistent : ∀ done, (run ListOp.apply db done).Consistent :=
    run_invariant Database.Consistent (fun _ op hc => consistent_apply hc op) h.consistent
  rw [along_iff Counted (fun _ op hc => counted_apply_iff hc op) h]
  exact forall₂_congr fun done _ => ⟨fun hc => ⟨hconsistent done, hc⟩, fun hc => hc.counts⟩

theorem counted_emptyDatabase : Counted emptyDatabase :=
  ⟨⟨List.nodup_nil, List.forall_mem_nil _, List.forall_mem_nil _, List.nodup_nil⟩,
    List.forall_mem_nil _⟩

/-- A new list and one insertion of two domains into it. -/
theorem domainCounts_two :
    CountsTrue (run ListOp.apply emptyDatabase [.insertBlocklist "ads".toList [] 0 true,
      .insertBlocklistEntries 1 ["a.com".toList, "b.com".toList] true]) := by
  refine (domainCounts_iff counted_emptyDatabase _).2 ?_ _ List.prefix_rfl
  exact ⟨trivial, fun _ _ _ => by decide, trivial⟩

/-- A second insertion overwrites the count of a list of three domains by one. -/
theorem domainCounts_overwritten :
    ¬ ∀ ops, CountsTrue (run ListOp.apply emptyDatabase ops) := by
  intro h
  have hcount := h [.insertBlocklist "ads".toList [] 0 true,
    .insertBlocklistEntries 1 ["a.com".toList, "b.com".toList] true,
    .insertBlocklistEntries 1 ["c.com".toList] true]
  revert hcount
  unfold CountsTrue
  decide

end DnsFilter
