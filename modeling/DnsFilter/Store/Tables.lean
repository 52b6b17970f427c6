import DnsFilter.GoString
import Mathlib.Data.List.Dedup

/-!
# The database

The configuration tables of the migrations, the statements that the admin operations
execute on them, and the notifications of migration `007`.

* `Database`: the tables, as lists of rows in physical order;
* `Stmt.exec`: one statement, `none` when a constraint makes it fail;
* `Stmt.touched`: the tables a statement runs on, the referential actions (`ON DELETE
  CASCADE`) included, which PostgreSQL performs as ordinary statements on the referencing
  tables;
* `commit`: a transaction all of whose statements succeed, with the payloads that the
  statement-level triggers send at its end.
-/

namespace DnsFilter

/-- The configuration tables. -/
inductive Table
  | groups
  | categories
  | policies
  | blocklists
  | blocklistEntries
  | blocklistCategories
  | ipRanges
  deriving DecidableEq

/-- The tables with a `notify_config_change` trigger. -/
def Table.hasTrigger : Table → Bool
  | .blocklists | .blocklistEntries | .policies | .ipRanges => true
  | .groups | .categories | .blocklistCategories => false

/-- A row of `blocklists`; `listType` is `0` for a blacklist and `1` for a whitelist. -/
structure BlocklistRow where
  id : ℤ
  name : GoString
  sourceURL : GoString
  listType : ℤ
  active : Bool
  domainCount : ℤ
  deriving DecidableEq

/-- A row of `blocklist_entries`. -/
structure EntryRow where
  listID : ℤ
  domain : GoString
  deriving DecidableEq

/-- A row of `ip_ranges`, with the text of its `cidr` column. -/
structure IPRangeRow where
  id : ℤ
  cidr : GoString
  groupID : ℤ
  authMode : ℤ
  description : GoString
  deriving DecidableEq

structure Database where
  groups : List ℤ
  categories : List ℤ
  /-- Pairs of a group and a category it blocks. -/
  policies : List (ℤ × ℤ)
  blocklists : List BlocklistRow
  entries : List EntryRow
  /-- Pairs of a list and a category it is associated with. -/
  blocklistCategories : List (ℤ × ℤ)
  ipRanges : List IPRangeRow
  /-- The sequence behind `blocklists.id`.  The values that failed insertions may use up, too,
  are not counted: they leave gaps between the ids and nothing else. -/
  nextListID : ℤ
  deriving DecidableEq

/-- A database without lists. -/
def emptyDatabase : Database := ⟨[], [], [], [], [], [], [], 1⟩

/-- A value that a `VARCHAR(n)` column takes: the characters in excess are spaces. -/
def fitsVarchar (n : ℕ) (s : GoString) : Prop := (s.drop n).all (· = ' ') ∧ '\x00' ∉ s

instance (n : ℕ) (s : GoString) : Decidable (fitsVarchar n s) :=
  inferInstanceAs (Decidable (_ ∧ _))

/-- What a `VARCHAR(n)` column stores of a value that it takes; the spaces in excess are cut. -/
def varchar (n : ℕ) (s : GoString) : GoString := s.take n

/-- A value without spaces is taken only if it is stored as it is. -/
theorem varchar_eq_self {n : ℕ} {s : GoString} (h : fitsVarchar n s) (hspace : ' ' ∉ s) :
    varchar n s = s := by
  have hdrop : s.drop n = [] := by
    refine List.eq_nil_iff_forall_not_mem.2 fun c hc => hspace ?_
    have hc' : c = ' ' := of_decide_eq_true (List.all_eq_true.1 h.1 c hc)
    exact hc' ▸ List.mem_of_mem_drop hc
  rw [varchar, ← List.append_nil (s.take n), ← hdrop, List.take_append_drop]

/-- A value of a `SMALLINT` column. -/
def fitsSmallint (n : ℤ) : Prop := -32768 ≤ n ∧ n ≤ 32767

/-- A value of an `INTEGER` column. -/
def fitsInteger (n : ℤ) : Prop := -2147483648 ≤ n ∧ n ≤ 2147483647

instance (n : ℤ) : Decidable (fitsSmallint n) := inferInstanceAs (Decidable (_ ∧ _))

instance (n : ℤ) : Decidable (fitsInteger n) := inferInstanceAs (Decidable (_ ∧ _))

/-- The statements of the admin operations. -/
inductive Stmt
  | insertBlocklist (name sourceURL : GoString) (listType : ℤ)
  | updateBlocklist (id : ℤ) (name : GoString) (active : Bool)
  | updateCount (count : ℤ) (id : ℤ)
  | deleteBlocklist (id : ℤ)
  | deleteEntries (listID : ℤ)
  | insertEntry (listID : ℤ) (domain : GoString)
  | deleteListCategories (listID : ℤ)
  | insertListCategory (listID catID : ℤ)
  | deletePolicies (groupID : ℤ)
  | insertPolicy (groupID catID : ℤ)
  | deleteGroup (id : ℤ)

namespace Database

def hasList (db : Database) (id : ℤ) : Prop := id ∈ db.blocklists.map (·.id)

instance (db : Database) (id : ℤ) : Decidable (db.hasList id) :=
  inferInstanceAs (Decidable (_ ∈ _))

end Database

/-- Execute a statement; `none` is a violated constraint. -/
def Stmt.exec (db : Database) : Stmt → Option Database
  | .insertBlocklist name sourceURL listType =>
      if fitsVarchar 200 name ∧ '\x00' ∉ sourceURL ∧ -32768 ≤ listType ∧ listType ≤ 32767 then
        some { db with
          blocklists := db.blocklists ++
            [⟨db.nextListID, varchar 200 name, sourceURL, listType, true, 0⟩]
          nextListID := db.nextListID + 1 }
      else none
  | .updateBlocklist id name active =>
      -- without a row of that id nothing is checked but the text
      if '\x00' ∉ name ∧ (db.hasList id → fitsVarchar 200 name) then
        some { db with
          blocklists := db.blocklists.map fun bl =>
            if bl.id = id then { bl with name := varchar 200 name, active := active } else bl }
      else none
  | .updateCount count id =>
      some { db with
        blocklists := db.blocklists.map fun bl =>
          if bl.id = id then { bl with domainCount := count } else bl }
  | .deleteBlocklist id =>
      -- the entries and the category associations of a deleted list go with it
      if db.hasList id then
        some { db with
          blocklists := db.blocklists.filter (·.id ≠ id)
          entries := db.entries.filter (·.listID ≠ id)
          blocklistCategories := db.blocklistCategories.filter (·.1 ≠ id) }
      else some db
  | .deleteEntries listID => some { db with entries := db.entries.filter (·.listID ≠ listID) }
  | .insertEntry listID domain =>
      if fitsVarchar 253 domain ∧ db.hasList listID then
        -- ON CONFLICT (list_id, domain) DO NOTHING
        let row : EntryRow := ⟨listID, varchar 253 domain⟩
        if row ∈ db.entries then some db else some { db with entries := db.entries ++ [row] }
      else none
  | .deleteListCategories listID =>
      some { db with blocklistCategories := db.blocklistCategories.filter (·.1 ≠ listID) }
  | .insertListCategory listID catID =>
      if db.hasList listID ∧ catID ∈ db.categories then
        if (listID, catID) ∈ db.blocklistCategories then some db
        else some { db with blocklistCategories := db.blocklistCategories ++ [(listID, catID)] }
      else none
  | .deletePolicies groupID =>
      some { db with policies := db.policies.filter (·.1 ≠ groupID) }
  | .insertPolicy groupID catID =>
      if groupID ∈ db.groups ∧ catID ∈ db.categories then
        if (groupID, catID) ∈ db.policies then some db
        else some { db with policies := db.policies ++ [(groupID, catID)] }
      else none
  | .deleteGroup id =>
      if id ∈ db.groups then
        some { db with
          groups := db.groups.filter (· ≠ id)
          policies := db.policies.filter (·.1 ≠ id)
          ipRanges := db.ipRanges.filter (·.groupID ≠ id) }
      else some db

/-- The tables a statement and its referential actions run on. -/
def Stmt.touched (db : Database) : Stmt → List Table
  | .insertBlocklist .. | .updateBlocklist .. | .updateCount .. => [.blocklists]
  | .deleteBlocklist id =>
      if db.hasList id then [.blocklists, .blocklistEntries, .blocklistCategories]
      else [.blocklists]
  | .deleteEntries .. | .insertEntry .. => [.blocklistEntries]
  | .deleteListCategories .. | .insertListCategory .. => [.blocklistCategories]
  | .deletePolicies .. | .insertPolicy .. => [.policies]
  | .deleteGroup id =>
      if id ∈ db.groups then [.groups, .policies, .ipRanges] else [.groups]

/-- Execute the statements of a transaction in order, collecting the tables they run on. -/
def runStmts : List Stmt → Database → Option (Database × List Table)
  | [], db => some (db, [])
  | s :: ss, db => do
      let db₁ ← s.exec db
      let (db₂, ts) ← runStmts ss db₁
      return (db₂, s.touched db ++ ts)

/-- A transaction: its effect and the payloads it notifies when it commits.  Equal payloads
of one transaction are sent once. -/
def commit (stmts : List Stmt) (db : Database) : Option (Database × List Table) :=
  (runStmts stmts db).map fun r => (r.1, (r.2.filter Table.hasTrigger).dedup)

theorem runStmts_cons_eq_some {s : Stmt} {ss : List Stmt} {db db₂ : Database} {ts : List Table} :
    runStmts (s :: ss) db = some (db₂, ts) ↔
      ∃ db₁ ts', s.exec db = some db₁ ∧ runStmts ss db₁ = some (db₂, ts') ∧
        ts = s.touched db ++ ts' := by
  simp only [runStmts, Option.bind_eq_bind, Option.bind_eq_some_iff, Option.pure_def,
    Option.some.injEq, Prod.exists, Prod.mk.injEq]
  constructor
  · rintro ⟨db₁, h₁, db₂', ts', h₂, rfl, rfl⟩
    exact ⟨db₁, ts', h₁, h₂, rfl⟩
  · rintro ⟨db₁, ts', h₁, h₂, rfl⟩
    exact ⟨db₁, h₁, db₂, ts', h₂, rfl, rfl⟩

/-- A transaction whose first statement runs on a table with a trigger notifies. -/
theorem commit_notifies {s : Stmt} {ss : List Stmt} {db db' : Database} {notes : List Table}
    (h : commit (s :: ss) db = some (db', notes)) {t : Table} (ht : t ∈ s.touched db)
    (htr : t.hasTrigger) : notes ≠ [] := by
  obtain ⟨⟨db₂, ts⟩, hrun, heq⟩ := Option.map_eq_some_iff.1 h
  obtain ⟨-, ts', -, -, rfl⟩ := runStmts_cons_eq_some.1 hrun
  obtain ⟨-, rfl⟩ := Prod.mk.inj heq
  refine List.ne_nil_of_mem (a := t) ?_
  rw [List.mem_dedup, List.mem_filter]
  exact ⟨List.mem_append_left _ ht, htr⟩

end DnsFilter
