import DnsFilter.Filter.Categories
import DnsFilter.Reload.Paths
import DnsFilter.Store.Operations

/-!
# Convergence of admin writes

Admin operations commit to the database, the triggers of migration `007` queue
notifications, and the callback of the listener takes them one by one, loading the lists,
the category map and the policies in three queries between which other operations may
commit.

* `World`, `ConfigEvent.apply`: the database, the engine, the pending notifications and the
  position of the callback;
* `Tracks`: every part of the engine is up to date or a load of it is still due;
* `converged_of_covered`: in runs whose category associations change only under cover of
  such a load, the engine is in the end what a fresh startup loads;
* `setBlocklistCategories_converges_iff`: on an idle system this is the exact condition.
-/

namespace DnsFilter

open Blacklist Engine EventRun

/-- Where the callback is: idle, or about to run one of its three loads. -/
inductive Callback
  | idle
  | lists
  | categories
  | policies
  deriving DecidableEq

structure World where
  db : Database
  engine : Engine
  /-- Payloads sent but not yet taken by the listener. -/
  pending : List Table
  callback : Callback

inductive ConfigEvent
  | admin (op : AdminOp)
  | deliver
  | loadLists
  /-- `order` is the order in which the loaded map is ranged over. -/
  | loadCategories (order : List (Σ _ : ℤ, List GoString))
  | loadPolicies

section Events

variable [Unicode]

/-- One event; an operation that fails rolls back, and an event that is not possible at the
callback's position does nothing. -/
def ConfigEvent.apply (files : ListFiles) (w : World) : ConfigEvent → World
  | .admin op =>
      match op.run w.db with
      | some (db, notes) => { w with db := db, pending := w.pending ++ notes }
      | none => w
  | .deliver =>
      match w.callback, w.pending with
      | .idle, _ :: pending => { w with pending := pending, callback := .lists }
      | _, _ => w
  | .loadLists =>
      if w.callback = .lists then
        { w with
          engine := (w.engine.replaceLists w.db.loadActiveBlocklistEntries).loadListFiles files
          callback := .categories }
      else w
  | .loadCategories order =>
      if w.callback = .categories ∧ Enumerates order w.db.loadCategoryDomains then
        { w with engine := w.engine.loadCategories order, callback := .policies }
      else w
  | .loadPolicies =>
      if w.callback = .policies then
        { w with engine := w.engine.loadPolicies w.db.loadGroupPolicies, callback := .idle }
      else w

/-- Without operations in between, the three loads are the callback. -/
theorem run_callback (files : ListFiles) (w : World) {t : Table} {pending : List Table}
    (hpending : w.pending = t :: pending) (hidle : w.callback = .idle)
    {order : List (Σ _ : ℤ, List GoString)} (horder : Enumerates order w.db.loadCategoryDomains) :
    run (ConfigEvent.apply files) w [.deliver, .loadLists, .loadCategories order, .loadPolicies] =
      { w with
        engine := notifyCallback w.engine files (some w.db.loadActiveBlocklistEntries)
          (some order) (some w.db.loadGroupPolicies)
        pending := pending } := by
  obtain ⟨db, engine, _, _⟩ := w
  subst hpending hidle
  simp only [run_cons, run_nil, ConfigEvent.apply, if_pos, horder, and_self]
  rfl

/-! ### What a startup loads -/

/-- A process start, with the order in which it ranges over the category map. -/
structure ProcessStart where
  db : Database
  order : List (Σ _ : ℤ, List GoString)
  enumerates : Enumerates order db.loadCategoryDomains

/-- The engine of a process start. -/
def ProcessStart.engine (files : ListFiles) (s : ProcessStart) : Engine :=
  startup files (some s.db.loadActiveBlocklistEntries) (some s.order)
    (some s.db.loadGroupPolicies)

/-- The system right after a process start. -/
def ProcessStart.world (files : ListFiles) (s : ProcessStart) : World :=
  ⟨s.db, s.engine files, [], .idle⟩

/-- The engine is one that a fresh startup loads. -/
def FreshlyLoaded (files : ListFiles) (db : Database) (e : Engine) : Prop :=
  ∃ s : ProcessStart, s.db = db ∧ e = s.engine files

/-- Once the last notification has been processed, memory is what a startup loads. -/
def Converged (files : ListFiles) (w : World) : Prop :=
  w.pending = [] → w.callback = .idle → FreshlyLoaded files w.db w.engine

/-- The blacklist and whitelist sets that the database and the files make up. -/
def loadedLists (files : ListFiles) (db : Database) : Finset GoString × Finset GoString :=
  (normalized db.loadActiveBlocklistEntries.1 ∪ normalized files.blocklist.domains,
    normalized db.loadActiveBlocklistEntries.2 ∪ normalized files.allowlist.domains)

/-- The category maps that the enumerations of the loaded categories lead to. -/
def categoryMaps (db : Database) : Set (Finmap fun _ : GoString => ℤ) :=
  {m | ∃ order, Enumerates order db.loadCategoryDomains ∧
    m = writeCategories (categoryWrites order)}

theorem ProcessStart.freshlyLoaded (files : ListFiles) (s : ProcessStart) :
    FreshlyLoaded files s.db (s.engine files) := ⟨s, rfl, rfl⟩

theorem freshlyLoaded_iff {files : ListFiles} {db : Database} {e : Engine} :
    FreshlyLoaded files db e ↔
      (e.blacklist.domains, e.whitelist.domains) = loadedLists files db ∧
        e.domainCategories ∈ categoryMaps db ∧ e.groupPolicies = db.loadGroupPolicies := by
  have hlists := fun s : ProcessStart => startup_lists files s.db.loadActiveBlocklistEntries
    (some s.order) (some s.db.loadGroupPolicies)
  constructor
  · rintro ⟨s, rfl, rfl⟩
    exact ⟨Prod.ext (hlists s).1 (hlists s).2, ⟨s.order, s.enumerates, rfl⟩, rfl⟩
  · obtain ⟨⟨bs⟩, ⟨ws⟩, cats, policies⟩ := e
    rintro ⟨hl, ⟨order, horder, rfl⟩, rfl⟩
    obtain ⟨rfl, rfl⟩ := Prod.mk.inj hl
    refine ⟨⟨db, order, horder⟩, rfl, ?_⟩
    have hb := (hlists ⟨db, order, horder⟩).1
    have hw := (hlists ⟨db, order, horder⟩).2
    unfold ProcessStart.engine
    rw [← hb, ← hw]
    rfl

/-! ### What is still due -/

/-- A load of the lists is still to come. -/
def ListsDue (w : World) : Prop := w.pending ≠ [] ∨ w.callback = .lists

/-- A load of the categories is still to come. -/
def CategoriesDue (w : World) : Prop := ListsDue w ∨ w.callback = .categories

/-- A load of the policies is still to come. -/
def PoliciesDue (w : World) : Prop := w.pending ≠ [] ∨ w.callback ≠ .idle

/-- Every part of the engine is up to date, or its load is due. -/
structure Tracks (files : ListFiles) (w : World) : Prop where
  lists : ListsDue w ∨
    (w.engine.blacklist.domains, w.engine.whitelist.domains) = loadedLists files w.db
  categories : CategoriesDue w ∨ w.engine.domainCategories ∈ categoryMaps w.db
  policies : PoliciesDue w ∨ w.engine.groupPolicies = w.db.loadGroupPolicies

theorem Tracks.converged {files : ListFiles} {w : World} (h : Tracks files w) :
    Converged files w := by
  intro hpending hidle
  have hdue : ¬ CategoriesDue w := by simp [CategoriesDue, ListsDue, hpending, hidle]
  refine freshlyLoaded_iff.2 ⟨h.lists.resolve_left fun hl => hdue (.inl hl),
    h.categories.resolve_left hdue, h.policies.resolve_left ?_⟩
  simp [PoliciesDue, hpending, hidle]

theorem tracks_of_pending (files : ListFiles) {w : World} (h : w.pending ≠ []) :
    Tracks files w := ⟨.inl (.inl h), .inl (.inl (.inl h)), .inl (.inl h)⟩

theorem tracks_start (files : ListFiles) (s : ProcessStart) : Tracks files (s.world files) := by
  obtain ⟨hl, hc, hp⟩ := freshlyLoaded_iff.1 (s.freshlyLoaded files)
  exact ⟨.inr hl, .inr hc, .inr hp⟩

/-- A change of the category associations that no later load would pick up leaves the
loaded lists and the loadable category maps as they are. -/
def Covered (files : ListFiles) (w : World) : ConfigEvent → Prop
  | .admin (.setBlocklistCategories listID categoryIDs) =>
      ∀ db notes, (AdminOp.setBlocklistCategories listID categoryIDs).run w.db = some (db, notes) →
        (ListsDue w ∨ loadedLists files db = loadedLists files w.db) ∧
          (CategoriesDue w ∨ categoryMaps w.db ⊆ categoryMaps db)
  | _ => True

theorem tracks_admin {files : ListFiles} {w : World} {op : AdminOp} (h : Tracks files w)
    (hc : Covered files w (.admin op)) : Tracks files (ConfigEvent.apply files w (.admin op)) := by
  cases hrun : op.run w.db with
  | none => simpa only [ConfigEvent.apply, hrun] using h
  | some r =>
    obtain ⟨db, notes⟩ := r
    simp only [ConfigEvent.apply, hrun]
    by_cases hop : op.setsListCategories
    · obtain ⟨listID, categoryIDs, rfl⟩ := op.eq_of_setsListCategories hop
      obtain ⟨rfl, hpolicies⟩ := AdminOp.run_setBlocklistCategories hrun
      obtain ⟨hlists, hcats⟩ := hc db [] hrun
      rw [List.append_nil]
      refine ⟨?_, ?_, ?_⟩
      · rcases hlists with hl | hl
        · exact .inl hl
        · exact h.lists.imp_right fun heq => heq.trans hl.symm
      · rcases hcats with hl | hl
        · exact .inl hl
        · exact h.categories.imp_right fun hm => hl hm
      · refine h.policies.imp_right fun heq => heq.trans ?_
        simp only [Database.loadGroupPolicies, hpolicies]
    · rcases AdminOp.run_notifies hop hrun with hnotes | rfl
      · exact tracks_of_pending files (by simp [hnotes])
      · by_cases hnotes : notes = []
        · simpa [hnotes] using h
        · exact tracks_of_pending files (by simp [hnotes])

/-- A covered event keeps the engine tracking the database. -/
theorem tracks_apply {files : ListFiles} {w : World} {e : ConfigEvent} (h : Tracks files w)
    (hc : Covered files w e) : Tracks files (ConfigEvent.apply files w e) := by
  cases e with
  | admin op => exact tracks_admin h hc
  | deliver =>
    simp only [ConfigEvent.apply]
    split
    · exact ⟨.inl (.inr rfl), .inl (.inl (.inr rfl)), .inl (.inr (by simp))⟩
    · exact h
  | loadLists =>
    simp only [ConfigEvent.apply]
    split_ifs with hcb
    · refine ⟨.inr ?_, .inl (.inr rfl), .inl (.inr (by simp))⟩
      simp [Engine.replaceLists, Engine.loadListFiles, loadedLists]
    · exact h
  | loadCategories order =>
    simp only [ConfigEvent.apply]
    split_ifs with hcb
    · refine ⟨?_, .inr ⟨order, hcb.2, rfl⟩, .inl (.inr (by simp))⟩
      refine h.lists.imp_left fun hl => .inl (hl.resolve_right ?_)
      simp [hcb.1]
    · exact h
  | loadPolicies =>
    simp only [ConfigEvent.apply]
    split_ifs with hcb
    · refine ⟨?_, ?_, .inr rfl⟩
      · refine h.lists.imp_left fun hl => .inl (hl.resolve_right ?_)
        simp [hcb]
      · refine h.categories.imp_left fun hl => .inl (.inl ?_)
        simpa [CategoriesDue, ListsDue, hcb] using hl
    · exact h

/-- **Runs whose `SetBlocklistCategories` steps are covered converge: once the last
notification has been processed, the engine is one that a fresh startup loads from the
final database.** -/
theorem converged_of_covered (files : ListFiles) (s : ProcessStart) (es : List ConfigEvent)
    (h : Along (ConfigEvent.apply files) (Covered files) (s.world files) es) :
    Converged files (run (ConfigEvent.apply files) (s.world files) es) :=
  (along_invariant (fun _ w => Tracks files w) (tracks_start files s)
    (fun _ _ hw hc => tracks_apply hw hc) es h).converged

/-- On an idle, freshly started system `SetBlocklistCategories` converges from every
enumeration of the categories exactly when it changes neither the loaded lists nor makes a
loadable category map unloadable. -/
theorem setBlocklistCategories_converges_iff (files : ListFiles) {db db' : Database}
    {notes : List Table} {listID : ℤ} {categoryIDs : List ℤ}
    (hrun : (AdminOp.setBlocklistCategories listID categoryIDs).run db = some (db', notes)) :
    (∀ s : ProcessStart, s.db = db → Converged files (ConfigEvent.apply files (s.world files)
        (.admin (.setBlocklistCategories listID categoryIDs)))) ↔
      loadedLists files db' = loadedLists files db ∧ categoryMaps db ⊆ categoryMaps db' := by
  obtain ⟨rfl, hpolicies⟩ := AdminOp.run_setBlocklistCategories hrun
  have hstep : ∀ s : ProcessStart, s.db = db → ConfigEvent.apply files (s.world files)
      (.admin (.setBlocklistCategories listID categoryIDs)) =
        { s.world files with db := db' } := by
    rintro s rfl
    simp [ConfigEvent.apply, ProcessStart.world, hrun]
  have hconv : ∀ s : ProcessStart, s.db = db →
      (Converged files { s.world files with db := db' } ↔
        FreshlyLoaded files db' (s.engine files)) :=
    fun s _ => ⟨fun h => h rfl rfl, fun h _ _ => h⟩
  constructor
  · intro h
    have hfresh : ∀ s : ProcessStart, s.db = db → FreshlyLoaded files db' (s.engine files) :=
      fun s hs => (hconv s hs).1 (hstep s hs ▸ h s hs)
    constructor
    · obtain ⟨order, horder⟩ := exists_enumerates db.loadCategoryDomains
      have hnew := freshlyLoaded_iff.1 (hfresh ⟨db, order, horder⟩ rfl)
      have hold := freshlyLoaded_iff.1 (ProcessStart.freshlyLoaded files ⟨db, order, horder⟩)
      exact hnew.1.symm.trans hold.1
    · rintro _ ⟨order, horder, rfl⟩
      exact (freshlyLoaded_iff.1 (hfresh ⟨db, order, horder⟩ rfl)).2.1
  · rintro ⟨hlists, hmaps⟩ s rfl
    rw [hstep s rfl, hconv s rfl]
    obtain ⟨hl, hm, hp⟩ := freshlyLoaded_iff.1 (s.freshlyLoaded files)
    refine freshlyLoaded_iff.2 ⟨hl.trans hlists.symm, hmaps hm, hp.trans ?_⟩
    simp only [Database.loadGroupPolicies, hpolicies]

/-! ### One category per domain -/

/-- When no normalised domain belongs to two categories, all startups load the same engine. -/
theorem startup_engine_unique {files : ListFiles} {s s' : ProcessStart} (hdb : s.db = s'.db)
    (hone : ∀ d c c', (d, c) ∈ categoryWrites s.order → (d, c') ∈ categoryWrites s.order →
      c = c') : s.engine files = s'.engine files := by
  have hperm : s.order.Perm s'.order := by
    have h := s.enumerates.trans (hdb ▸ s'.enumerates.symm)
    exact Quotient.exact h
  have hmaps : writeCategories (categoryWrites s.order) =
      writeCategories (categoryWrites s'.order) :=
    writeCategories_congr (fun w => (hperm.flatMap_right _).mem_iff) hone
  simp only [ProcessStart.engine, startup, Engine.loadTables, Engine.loadCategories, hdb, hmaps]

end Events

/-! ### A lost write -/

/-- A database with one active blacklist of one entry, and one category. -/
def adsDatabase : Database :=
  { groups := [], categories := [1], policies := [], blocklists := [⟨1, [], [], 0, true, 1⟩],
    entries := [⟨1, "ads.com".toList⟩], blocklistCategories := [], ipRanges := [],
    nextListID := 2 }

/-- A process start on `adsDatabase`, which has no category to range over. -/
def adsStart : ProcessStart := ⟨adsDatabase, [], by decide⟩

/-- A domain is added to the list, the list is put into the category before the callback takes
the first of the two notifications, and the callback runs for both of them. -/
def categorisedInTime : List ConfigEvent :=
  let callback : List ConfigEvent :=
    [.deliver, .loadLists, .loadCategories [⟨1, ["ads.com".toList, "x.com".toList]⟩],
      .loadPolicies]
  [.admin (.insertBlocklistEntries 1 ["x.com".toList]), .admin (.setBlocklistCategories 1 [1])] ++
    callback ++ callback

theorem converged_of_covered_ads :
    letI := asciiTable
    let w := run (ConfigEvent.apply ⟨.missing, .missing⟩) (adsStart.world ⟨.missing, .missing⟩)
      categorisedInTime
    w.pending = [] ∧ w.callback = .idle ∧ w.db.blocklistCategories = [(1, 1)] ∧
      FreshlyLoaded ⟨.missing, .missing⟩ w.db w.engine := by
  let := asciiTable
  have hcovered : Along (ConfigEvent.apply ⟨.missing, .missing⟩) (Covered ⟨.missing, .missing⟩)
      (adsStart.world ⟨.missing, .missing⟩) categorisedInTime := by
    refine ⟨trivial, fun db notes _ => ?_, trivial, trivial, trivial, trivial, trivial, trivial,
      trivial, trivial, trivial⟩
    have hdue : ListsDue (ConfigEvent.apply ⟨.missing, .missing⟩
        (adsStart.world ⟨.missing, .missing⟩)
        (.admin (.insertBlocklistEntries 1 ["x.com".toList]))) := .inl (by decide)
    exact ⟨.inl hdue, .inl (.inl hdue)⟩
  have hconverged := converged_of_covered ⟨.missing, .missing⟩ adsStart categorisedInTime hcovered
  have hpending : (run (ConfigEvent.apply ⟨.missing, .missing⟩)
      (adsStart.world ⟨.missing, .missing⟩) categorisedInTime).pending = [] := by decide
  have hidle : (run (ConfigEvent.apply ⟨.missing, .missing⟩)
      (adsStart.world ⟨.missing, .missing⟩) categorisedInTime).callback = .idle := by decide
  exact ⟨hpending, hidle, by decide, hconverged hpending hidle⟩

/-- Associating the list with the category notifies nobody: its domain stays in the global
blacklist, where a fresh startup would not put it. -/
theorem setBlocklistCategories_lost :
    ¬ @Converged asciiTable ⟨.missing, .missing⟩
      (run (@ConfigEvent.apply asciiTable ⟨.missing, .missing⟩)
        (@ProcessStart.world asciiTable ⟨.missing, .missing⟩ adsStart)
        [.admin (.setBlocklistCategories 1 [1])]) := by
  intro h
  have hlists := ((@freshlyLoaded_iff asciiTable _ _ _).1 (h rfl rfl)).1
  revert hlists
  decide

end DnsFilter
