import DnsFilter.Store.Refresh
import Mathlib.Data.Finmap

/-!
# What `DownloadLists` reports

The response of `Handlers.DownloadLists` gives a number for the name of each external list.
The number is counted insert by insert and reported whatever becomes of the transaction, and
lists of one name share one place in the response.

* `entryRows_downloadLists`: which lists have their entries replaced;
* `lookup_downloadLists`: the number under a name is that of the last list of this name;
* `reports_truly_iff`: when the number for a list is the truth about its entries.
-/

namespace DnsFilter

open Transaction

/-- The active lists with a source URL. -/
def externalRows (db : Database) : List BlocklistRow :=
  db.blocklists.filter fun bl => bl.sourceURL ≠ [] ∧ bl.active

/-- One round of the loop in `DownloadLists`, on the database and the map `results`. -/
def downloadRound (faults : ℤ → Faults) (fetched : ℤ → Fetched)
    (s : Database × Finmap fun _ : GoString => ℤ) (l : BlocklistRow) :
    Database × Finmap fun _ : GoString => ℤ :=
  let (db, value) := downloadList (faults l.id) s.1 l.id (fetched l.id)
  (db, s.2.insert l.name value)

/-- The loop of `DownloadLists`; failures and downloads are given for each list. -/
def Handlers.downloadLists (faults : ℤ → Faults) (fetched : ℤ → Fetched) (lists : List BlocklistRow)
    (db : Database) : Database × Finmap fun _ : GoString => ℤ :=
  lists.foldl (downloadRound faults fetched) (db, ∅)

/-! ### The value of one list -/

/-- The number of domains in front of the first whose insert fails, when the first of them is
inserted by the `i`-th statement of the transaction. -/
def insertedFrom (f : Faults) : ℕ → List GoString → ℕ
  | _, [] => 0
  | i, d :: ds =>
      if f.stmtFails i = false ∧ fitsVarchar 253 d then insertedFrom f (i + 1) ds + 1 else 0

/-- The inserts that succeed, none of them when the entries cannot be deleted. -/
def insertedCount (f : Faults) (domains : List GoString) : ℕ :=
  if f.stmtFails 0 then 0 else insertedFrom f 1 domains

theorem succeeded_insertEntry {f : Faults} {db : Database} {listID : ℤ}
    (hlist : db.hasList listID) (i : ℕ) (domains : List GoString) :
    succeeded Stmt.exec f i db (domains.map (.insertEntry listID)) = insertedFrom f i domains := by
  induction domains generalizing db i with
  | nil => rfl
  | cons d domains ih =>
    rw [List.map_cons, succeeded, insertedFrom, exec_insertEntry hlist]
    have hlist' : Database.hasList
        { db with entries := addEntries listID db.entries [varchar 253 d] } listID := hlist
    cases hfail : f.stmtFails i with
    | true => simp
    | false =>
      by_cases hd : fitsVarchar 253 d
      · simp only [hd, and_true, if_true, Bool.false_eq_true, if_false]
        rw [ih hlist']
      · simp [hd]

/-- The value that is reported for a list. -/
theorem downloadList_snd {f : Faults} {db : Database} {listID : ℤ} (hlist : db.hasList listID)
    (fetched : Fetched) :
    (downloadList f db listID fetched).2 =
      if fetched.err ≠ none ∨ fetched.found ≠ [] ∧ f.beginFails then -1
      else (insertedCount f fetched.found : ℤ) := by
  obtain ⟨domains, _ | err, hspace⟩ := fetched
  swap
  · rfl
  by_cases hne : domains = []
  · subst hne
    have hzero : insertedCount f [] = 0 := by simp [insertedCount, insertedFrom]
    simp [downloadList, hzero]
  · cases hbegin : f.beginFails with
    | true => simp [downloadList, hne, start, hbegin]
    | false =>
      have hvalue : (downloadList f db listID ⟨domains, none, hspace⟩).2 =
          ((((⟨db, some db, 0⟩ : Tx Database).exec Stmt.exec f (.deleteEntries listID)).1.execCount
            Stmt.exec f (domains.map (.insertEntry listID))).2 : ℤ) := by
        simp [downloadList, hne, start, hbegin]
      have hlist' : Database.hasList
          { db with entries := db.entries.filter (·.listID ≠ listID) } listID := hlist
      rw [hvalue, if_neg (by simp), Tx.execCount_snd, insertedCount]
      cases hfail : f.stmtFails 0 with
      | true => simp [Tx.exec, hfail]
      | false =>
        rw [if_neg Bool.false_ne_true, ← succeeded_insertEntry hlist']
        simp [Tx.exec, hfail, Stmt.exec]

/-! ### All lists -/

/-- The entries of the list are replaced by the download. -/
def Replaced (db : Database) (f : Faults) (listID : ℤ) (fetched : Fetched) : Prop :=
  Writes db (f.Clean (fetched.domains.length + 2)) listID fetched.domains

instance (db : Database) (f : Faults) (listID : ℤ) (fetched : Fetched) :
    Decidable (Replaced db f listID fetched) := inferInstanceAs (Decidable (Writes _ _ _ _))

/-- An error keeps the entries of the list from being replaced. -/
def RefreshFails (db : Database) (f : Faults) (listID : ℤ) (fetched : Fetched) : Prop :=
  fetched.err ≠ none ∨ fetched.found ≠ [] ∧ ¬ Replaced db f listID fetched

instance (db : Database) (f : Faults) (listID : ℤ) (fetched : Fetched) :
    Decidable (RefreshFails db f listID fetched) := inferInstanceAs (Decidable (_ ∨ _))

theorem hasList_downloadList (f : Faults) (db : Database) (listID : ℤ) (fetched : Fetched)
    (l : ℤ) : (downloadList f db listID fetched).1.hasList l ↔ db.hasList l := by
  rw [downloadList_eq, hasList_transaction]

section Loop

variable {faults : ℤ → Faults} {fetched : ℤ → Fetched}

theorem hasList_rounds (lists : List BlocklistRow)
    (s : Database × Finmap fun _ : GoString => ℤ) (l : ℤ) :
    (lists.foldl (downloadRound faults fetched) s).1.hasList l ↔ s.1.hasList l := by
  induction lists generalizing s with
  | nil => rfl
  | cons bl lists ih => rw [List.foldl_cons, ih]; exact hasList_downloadList ..

/-- Each list is refreshed on its own. -/
theorem entryRows_rounds {lists : List BlocklistRow} (hids : (lists.map (·.id)).Nodup)
    (s : Database × Finmap fun _ : GoString => ℤ) (l : ℤ) :
    entryRows (lists.foldl (downloadRound faults fetched) s).1.entries l =
      if l ∈ lists.map (·.id) ∧ Replaced s.1 (faults l) l (fetched l) then
        addEntries l [] (stored (fetched l).domains)
      else entryRows s.1.entries l := by
  induction lists generalizing s with
  | nil => simp
  | cons bl lists ih =>
    obtain ⟨hnew, hids⟩ := List.nodup_cons.1 hids
    have hround : (downloadRound faults fetched s bl).1 = transaction
        ((faults bl.id).Clean ((fetched bl.id).domains.length + 2))
        (.updateList bl.id (fetched bl.id).domains) s.1 := downloadList_eq ..
    have hreplaced : Replaced (downloadRound faults fetched s bl).1 (faults l) l (fetched l) ↔
        Replaced s.1 (faults l) l (fetched l) := by
      simp only [Replaced, Writes, Accepts, hround, hasList_transaction]
    rw [List.foldl_cons, ih hids, hround, entryRows_refresh, ← hround]
    simp only [hreplaced, List.map_cons, List.mem_cons]
    by_cases hl : l = bl.id
    · subst hl
      simp [hnew, Replaced]
    · simp [hl]

/-- The last round for a name decides what is reported under it. -/
theorem lookup_rounds_of_ne {name : GoString} {lists : List BlocklistRow}
    (h : ∀ bl ∈ lists, bl.name ≠ name) (s : Database × Finmap fun _ : GoString => ℤ) :
    (lists.foldl (downloadRound faults fetched) s).2.lookup name = s.2.lookup name := by
  induction lists generalizing s with
  | nil => rfl
  | cons bl lists ih =>
    rw [List.foldl_cons, ih fun bl' hbl' => h bl' (List.mem_cons_of_mem _ hbl')]
    exact Finmap.lookup_insert_of_ne _ (h bl List.mem_cons_self).symm

/-- The number under a name is that of the last list of this name. -/
theorem lookup_downloadLists {db : Database} {lists : List BlocklistRow}
    (hlists : ∀ bl ∈ lists, db.hasList bl.id) {name : GoString} {l : BlocklistRow}
    (hl : lists.findRev? (·.name = name) = some l) :
    (Handlers.downloadLists faults fetched lists db).2.lookup name =
      some (if (fetched l.id).err ≠ none ∨ (fetched l.id).found ≠ [] ∧ (faults l.id).beginFails
        then -1 else (insertedCount (faults l.id) (fetched l.id).found : ℤ)) := by
  rw [List.findRev?_eq_find?_reverse, List.find?_eq_some_iff_append] at hl
  obtain ⟨hname, post, pre, hrev, hpost⟩ := hl
  have hlists' : lists = pre.reverse ++ l :: post.reverse := by
    rw [← List.reverse_reverse lists, hrev]
    simp
  subst hlists'
  have hlist : (pre.reverse.foldl (downloadRound faults fetched) (db, ∅)).1.hasList l.id :=
    (hasList_rounds ..).2 (hlists l (by simp))
  obtain rfl : l.name = name := by simpa using hname
  rw [Handlers.downloadLists, List.foldl_append, List.foldl_cons, lookup_rounds_of_ne]
  · rw [← downloadList_snd hlist]
    exact Finmap.lookup_insert _
  · intro bl hbl
    simpa using hpost bl (List.mem_reverse.1 hbl)

theorem exists_last_of_name {lists : List BlocklistRow} {l : BlocklistRow} (hl : l ∈ lists) :
    ∃ l', lists.findRev? (·.name = l.name) = some l' := by
  rw [← Option.isSome_iff_exists, List.findRev?_eq_find?_reverse, List.find?_isSome]
  exact ⟨l, List.mem_reverse.2 hl, by simp⟩

theorem entryRows_downloadLists {db : Database} (hdb : db.Consistent) (l : ℤ) :
    entryRows (Handlers.downloadLists faults fetched (externalRows db) db).1.entries l =
      if l ∈ externalLists db ∧ Replaced db (faults l) l (fetched l) then
        addEntries l [] (stored (fetched l).domains)
      else entryRows db.entries l :=
  entryRows_rounds (hdb.nodup_ids.sublist (List.filter_sublist.map _)) (db, ∅) l

end Loop

/-! ### The report -/

/-- The number reported for a list is the truth about its entries. -/
def ReportsTruly (faults : ℤ → Faults) (fetched : ℤ → Fetched) (db : Database)
    (l : BlocklistRow) : Prop :=
  let (db', results) := Handlers.downloadLists faults fetched (externalRows db) db
  (∀ n : ℤ, 0 < n → results.lookup l.name = some n →
    Replaced db (faults l.id) l.id (fetched l.id) ∧ HoldsExactly db' l.id (fetched l.id).found ∧
      n = (entryRows db'.entries l.id).length) ∧
  (RefreshFails db (faults l.id) l.id (fetched l.id) → results.lookup l.name = some (-1))

theorem length_addEntries_nil (listID : ℤ) (domains : List GoString) :
    (addEntries listID [] domains).length = domains.toFinset.card := by
  have hnodup : (addEntries listID [] domains).Nodup := nodup_addEntries List.nodup_nil domains
  have hrows : entryRows (addEntries listID [] domains) listID = addEntries listID [] domains :=
    entryRows_addEntries_self listID [] domains
  rw [← hrows, length_entryRows hnodup, domainsOf_addEntries, if_pos rfl]
  simp [domainsOf, entryRows]

/-- A number that is not positive promises nothing about the entries. -/
theorem nothing_promised {v : ℤ} (hv : v ≤ 0) {p : ℤ → Prop} :
    ∀ n : ℤ, 0 < n → some v = some n → p n := by
  rintro n hn hvalue
  rw [← Option.some_inj.1 hvalue] at hn
  exact absurd hn (not_lt.2 hv)

/-- The report on a list is true exactly when the last list of its name cannot be fetched or
gets no transaction; or none of its inserts succeeds and the list itself does not fail; or as
many of them succeed as the list, which is replaced, then has domains. -/
theorem reports_truly_iff {db : Database} (hdb : db.Consistent) (faults : ℤ → Faults)
    (fetched : ℤ → Fetched) {l : BlocklistRow} (hl : l ∈ externalRows db) :
    ∃ last, (externalRows db).findRev? (·.name = l.name) = some last ∧
      (ReportsTruly faults fetched db l ↔
        ((fetched last.id).err ≠ none ∨
          (fetched last.id).found ≠ [] ∧ (faults last.id).beginFails) ∨
        (insertedCount (faults last.id) (fetched last.id).found = 0 ∧
          ¬ RefreshFails db (faults l.id) l.id (fetched l.id)) ∨
        (Replaced db (faults l.id) l.id (fetched l.id) ∧
          insertedCount (faults last.id) (fetched last.id).found =
            (fetched l.id).found.toFinset.card)) := by
  obtain ⟨last, hlast⟩ := exists_last_of_name hl
  refine ⟨last, hlast, ?_⟩
  have hlists : ∀ bl ∈ externalRows db, db.hasList bl.id := fun bl hbl =>
    List.mem_map_of_mem (List.mem_of_mem_filter hbl)
  have hlookup := @lookup_downloadLists faults fetched _ _ hlists _ _ hlast
  have hrows : Replaced db (faults l.id) l.id (fetched l.id) →
      HoldsExactly (Handlers.downloadLists faults fetched (externalRows db) db).1 l.id
          (fetched l.id).found ∧
        (entryRows (Handlers.downloadLists faults fetched (externalRows db) db).1.entries
          l.id).length = (fetched l.id).found.toFinset.card := by
    intro hrep
    have hrow := @entryRows_downloadLists faults fetched _ hdb l.id
    rw [if_pos ⟨List.mem_map_of_mem hl, hrep⟩, (fetched l.id).stored_domains hrep,
      (Fetched.eq_of_domains_ne_nil hrep.2.1).2] at hrow
    exact ⟨holdsExactly_of_rows hrow, by rw [hrow, length_addEntries_nil]⟩
  simp only [ReportsTruly, hlookup]
  by_cases hskip : (fetched last.id).err ≠ none ∨
      (fetched last.id).found ≠ [] ∧ (faults last.id).beginFails
  · rw [if_pos hskip]
    exact iff_of_true ⟨nothing_promised (by decide), fun _ => rfl⟩ (.inl hskip)
  · rw [if_neg hskip, or_iff_right hskip]
    constructor
    · rintro ⟨hcount, hfail⟩
      rcases Nat.eq_zero_or_pos (insertedCount (faults last.id) (fetched last.id).found) with
        h0 | hpos
      · refine .inl ⟨h0, fun hfails => ?_⟩
        have hvalue := hfail hfails
        rw [h0] at hvalue
        simp at hvalue
      · obtain ⟨hrep, -, hlen⟩ := hcount _ (by exact_mod_cast hpos) rfl
        exact .inr ⟨hrep, by exact_mod_cast hlen.trans (congrArg _ (hrows hrep).2)⟩
    · rintro (⟨h0, hok⟩ | ⟨hrep, hcard⟩)
      · rw [h0]
        exact ⟨nothing_promised le_rfl, fun hfails => absurd hfails hok⟩
      · refine ⟨?_, ?_⟩
        · rintro n - hvalue
          rw [← Option.some_inj.1 hvalue, hcard, (hrows hrep).2]
          exact ⟨hrep, (hrows hrep).1, rfl⟩
        · rintro (herr | ⟨-, hnot⟩)
          · exact absurd (Fetched.eq_of_domains_ne_nil hrep.2.1).1 herr
          · exact absurd hrep hnot

/-- An external list with one entry. -/
def externalList : BlocklistRow :=
  ⟨1, "ads".toList, "http://lists.test/ads".toList, 0, true, 1⟩

def externalDatabase : Database :=
  { emptyDatabase with
    blocklists := [externalList]
    entries := [⟨1, "old.test".toList⟩]
    nextListID := 2 }

theorem consistent_externalDatabase : externalDatabase.Consistent :=
  ⟨by decide, by decide, by decide, by decide⟩

theorem reports_truly_one :
    ReportsTruly (fun _ => .none) (fun _ => ⟨["a.test".toList], none, by decide⟩)
      externalDatabase externalList := by
  obtain ⟨last, hlast, hiff⟩ := reports_truly_iff consistent_externalDatabase (fun _ => .none)
    (fun _ => ⟨["a.test".toList], none, by decide⟩) (l := externalList) (by decide)
  have hself : (externalRows externalDatabase).findRev? (·.name = externalList.name) =
      some externalList := by decide
  obtain rfl : externalList = last := Option.some_inj.1 (hself.symm.trans hlast)
  exact hiff.2 (.inr (.inr (by decide)))

/-- A download whose second domain is too long. -/
def longFetched : Fetched := ⟨["a.test".toList, List.replicate 254 'x'], none, by decide⟩

/-- An entry that is too long rolls the transaction back behind a counted insert. -/
theorem reports_truly_fails :
    let (db', results) := Handlers.downloadLists (fun _ => .none) (fun _ => longFetched)
      (externalRows externalDatabase) externalDatabase
    results.lookup "ads".toList = some 1 ∧ db'.entries = externalDatabase.entries ∧
      ¬ ReportsTruly (fun _ => .none) (fun _ => longFetched) externalDatabase externalList := by
  have hlookup : (Handlers.downloadLists (fun _ => .none) (fun _ => longFetched)
      (externalRows externalDatabase) externalDatabase).2.lookup "ads".toList = some 1 := by
    decide +kernel
  refine ⟨hlookup, by decide +kernel, fun h => ?_⟩
  have hvalue := h.2 (by decide +kernel)
  rw [show externalList.name = "ads".toList from rfl] at hvalue
  exact absurd (hlookup.symm.trans hvalue) (by decide)

end DnsFilter
