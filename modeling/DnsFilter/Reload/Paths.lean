import DnsFilter.Filter.Categories
import DnsFilter.Lib.Run
import DnsFilter.Store.Loaders

/-!
# The reload paths

The four places that fill the in-memory lists: process start and the `LISTEN/NOTIFY`
callback in `cmd/dnsfilter/main.go`, and the endpoints `ReloadLists` and `DownloadLists`
of `internal/api/handlers.go`.

* `startup`, `notifyCallback`, `reloadLists`, `downloadLists`: the paths as functions of
  what the load queries return (`none` is a failed query);
* `ReloadStep`: one lock-protected step, with the step sequences `replaceSteps` and
  `notifySteps` that the running paths perform (`run_replaceSteps`, `run_notifySteps`);
* `reload_paths_agree_iff`: the paths agree exactly when the local files add nothing to the
  database, and its categories and policies nothing to what memory decides.
-/

namespace DnsFilter

open Blacklist EventRun

/-- A list file in the working directory, as `os.Stat` and `os.Open` find it. -/
inductive ListFile
  | missing
  | unreadable
  | text (t : GoString)

/-- `blocklist.txt` and `allowlist.txt`. -/
structure ListFiles where
  blocklist : ListFile
  allowlist : ListFile

/-- What a load of the lists returns: blacklist and whitelist domains. -/
abbrev LoadedLists := List GoString × List GoString

/-- The domains a list file contributes. -/
def ListFile.domains : ListFile → List GoString
  | .missing | .unreadable => []
  | .text t => (scanDomains t).1

section Paths

variable [Unicode]

/-- `LoadFromFile` behind `os.Stat`. -/
def Blacklist.loadListFile (b : Blacklist) : ListFile → Blacklist
  | .missing => b
  | .unreadable => (b.loadFromFile none).1
  | .text t => (b.loadFromFile (some t)).1

@[simp] theorem Blacklist.loadListFile_eq (b : Blacklist) (f : ListFile) :
    b.loadListFile f = b.addAll f.domains := by
  cases f <;> rfl

/-- Load the categories and the policies, skipping a query that failed. -/
def Engine.loadTables (e : Engine) (categories : Option (List (Σ _ : ℤ, List GoString)))
    (policies : Option Policies) : Engine :=
  let e := match categories with
    | some order => e.loadCategories order
    | none => e
  match policies with
  | some p => e.loadPolicies p
  | none => e

/-- Process start: fresh lists from the database and the files, then categories and
policies. -/
def startup (files : ListFiles) (lists : Option LoadedLists)
    (categories : Option (List (Σ _ : ℤ, List GoString))) (policies : Option Policies) : Engine :=
  let (blackDomains, whiteDomains) := lists.getD ([], [])
  let blacklist := (new.addAll blackDomains).loadListFile files.blocklist
  let whitelist := (new.addAll whiteDomains).loadListFile files.allowlist
  (Engine.new blacklist whitelist).loadTables categories policies

/-- Clear both lists, then add the loaded domains. -/
def Engine.replaceLists (e : Engine) (lists : LoadedLists) : Engine :=
  { e with
    blacklist := e.blacklist.clear.addAll lists.1
    whitelist := e.whitelist.clear.addAll lists.2 }

/-- Re-add the domains of the local files. -/
def Engine.loadListFiles (e : Engine) (files : ListFiles) : Engine :=
  { e with
    blacklist := e.blacklist.loadListFile files.blocklist
    whitelist := e.whitelist.loadListFile files.allowlist }

/-- The callback of the listener; it gives up when the lists cannot be loaded. -/
def notifyCallback (e : Engine) (files : ListFiles) (lists : Option LoadedLists)
    (categories : Option (List (Σ _ : ℤ, List GoString))) (policies : Option Policies) : Engine :=
  match lists with
  | none => e
  | some lists => ((e.replaceLists lists).loadListFiles files).loadTables categories policies

/-- The endpoint `ReloadLists`.  The two fresh lists it also builds are never used. -/
def reloadLists (e : Engine) (lists : Option LoadedLists) : Engine :=
  match lists with
  | none => e
  | some lists => e.replaceLists lists

/-- The auto-reload at the end of `DownloadLists`. -/
def downloadLists (e : Engine) (lists : Option LoadedLists) : Engine :=
  match lists with
  | none => e
  | some lists => e.replaceLists lists

end Paths

/-! ### Steps -/

/-- A lock-protected step of a reload. -/
inductive ReloadStep
  | clear (l : ListKind)
  | add (l : ListKind) (d : GoString)
  | loadCategories (order : List (Σ _ : ℤ, List GoString))
  | loadPolicies (policies : Policies)

/-- The steps of `ReloadLists`, and of the reload of `DownloadLists`. -/
def replaceSteps (lists : LoadedLists) : List ReloadStep :=
  .clear .black :: .clear .white :: (lists.1.map (.add .black) ++ lists.2.map (.add .white))

def fileSteps (files : ListFiles) : List ReloadStep :=
  files.blocklist.domains.map (.add .black) ++ files.allowlist.domains.map (.add .white)

/-- The steps of the callback once the lists are loaded. -/
def notifySteps (files : ListFiles) (lists : LoadedLists)
    (categories : Option (List (Σ _ : ℤ, List GoString))) (policies : Option Policies) :
    List ReloadStep :=
  replaceSteps lists ++ fileSteps files ++ categories.toList.map .loadCategories ++
    policies.toList.map .loadPolicies

/-- The domains that steps add to a list, in order. -/
def addsTo (l : ListKind) (ss : List ReloadStep) : List GoString :=
  ss.filterMap fun
    | .add l' d => if l' = l then some d else none
    | _ => none

theorem mem_addsTo {l : ListKind} {ss : List ReloadStep} {d : GoString} :
    d ∈ addsTo l ss ↔ .add l d ∈ ss := by
  simp only [addsTo, List.mem_filterMap]
  constructor
  · rintro ⟨s, hs, h⟩
    split at h
    · split_ifs at h with hl
      cases h
      exact hl ▸ hs
    · cases h
  · exact fun h => ⟨_, h, by simp⟩

@[simp] theorem addsTo_append (l : ListKind) (ss ss' : List ReloadStep) :
    addsTo l (ss ++ ss') = addsTo l ss ++ addsTo l ss' := List.filterMap_append

theorem addsTo_map_add (l l' : ListKind) (ds : List GoString) :
    addsTo l (ds.map (.add l')) = if l' = l then ds else [] := by
  induction ds with
  | nil => simp [addsTo]
  | cons d ds ih =>
    simp only [addsTo, List.map_cons, List.filterMap_cons] at ih ⊢
    split_ifs at ih ⊢ <;> simp [ih]

section Steps

variable [Unicode]

def ReloadStep.apply (e : Engine) : ReloadStep → Engine
  | .clear .black => { e with blacklist := e.blacklist.clear }
  | .clear .white => { e with whitelist := e.whitelist.clear }
  | .add .black d => { e with blacklist := e.blacklist.add d }
  | .add .white d => { e with whitelist := e.whitelist.add d }
  | .loadCategories order => e.loadCategories order
  | .loadPolicies policies => e.loadPolicies policies

theorem list_apply_clear (e : Engine) (l l' : ListKind) :
    ((ReloadStep.clear l').apply e).list l = if l' = l then (e.list l).clear else e.list l := by
  cases l <;> cases l' <;> rfl

theorem list_apply_add (e : Engine) (l l' : ListKind) (d : GoString) :
    ((ReloadStep.add l' d).apply e).list l = if l' = l then (e.list l).add d else e.list l := by
  cases l <;> cases l' <;> rfl

@[simp] theorem list_apply_loadCategories (e : Engine) (l : ListKind)
    (order : List (Σ _ : ℤ, List GoString)) :
    ((ReloadStep.loadCategories order).apply e).list l = e.list l := by
  cases l <;> rfl

@[simp] theorem list_apply_loadPolicies (e : Engine) (l : ListKind) (policies : Policies) :
    ((ReloadStep.loadPolicies policies).apply e).list l = e.list l := by
  cases l <;> rfl

/-- Steps without a `Clear` of a list add to it what they add. -/
theorem list_run_of_no_clear {l : ListKind} {ss : List ReloadStep} (h : .clear l ∉ ss)
    (e : Engine) : (run ReloadStep.apply e ss).list l = (e.list l).addAll (addsTo l ss) := by
  induction ss generalizing e with
  | nil => rfl
  | cons s ss ih =>
    rw [List.mem_cons, not_or] at h
    rw [run_cons, ih h.2]
    cases s with
    | clear l' =>
      have hl : l' ≠ l := fun hl => h.1 (by rw [hl])
      simp [list_apply_clear, hl, addsTo]
    | add l' d =>
      by_cases hl : l' = l
      · simp [list_apply_add, hl, addsTo]
      · simp [list_apply_add, hl, addsTo]
    | loadCategories order => simp [addsTo]
    | loadPolicies policies => simp [addsTo]

theorem run_addBlack (e : Engine) (ds : List GoString) :
    run ReloadStep.apply e (ds.map (.add .black)) =
      { e with blacklist := e.blacklist.addAll ds } := by
  induction ds generalizing e with
  | nil => rfl
  | cons d ds ih => rw [List.map_cons, run_cons, ih]; rfl

theorem run_addWhite (e : Engine) (ds : List GoString) :
    run ReloadStep.apply e (ds.map (.add .white)) =
      { e with whitelist := e.whitelist.addAll ds } := by
  induction ds generalizing e with
  | nil => rfl
  | cons d ds ih => rw [List.map_cons, run_cons, ih]; rfl

/-- The steps of an endpoint's reload perform its list replacement. -/
theorem run_replaceSteps (e : Engine) (lists : LoadedLists) :
    run ReloadStep.apply e (replaceSteps lists) = e.replaceLists lists := by
  rw [replaceSteps, run_cons, run_cons, run_append, run_addBlack, run_addWhite]
  rfl

/-- The steps of the callback perform the callback. -/
theorem run_notifySteps (e : Engine) (files : ListFiles) (lists : LoadedLists)
    (categories : Option (List (Σ _ : ℤ, List GoString))) (policies : Option Policies) :
    run ReloadStep.apply e (notifySteps files lists categories policies) =
      notifyCallback e files (some lists) categories policies := by
  simp only [notifySteps, fileSteps, run_append, run_replaceSteps, run_addBlack, run_addWhite,
    notifyCallback, Engine.loadListFiles, loadListFile_eq]
  cases categories <;> cases policies <;> rfl

end Steps

/-! ### Agreement -/

section Agreement

variable [Unicode]

/-- Two engines with the same blacklist and whitelist sets. -/
def SameLists (e e' : Engine) : Prop :=
  e.blacklist.domains = e'.blacklist.domains ∧ e.whitelist.domains = e'.whitelist.domains

/-- Two engines that decide alike for every domain and group. -/
def SameDecisions (e e' : Engine) : Prop :=
  ∀ (d : GoString) (g : ℤ), e.evaluateForGroup d g = e'.evaluateForGroup d g

/-- Neither list covers the domain. -/
def Undecided (lists : LoadedLists) (d : GoString) : Prop :=
  (new.addAll lists.2).contains d = false ∧ (new.addAll lists.1).contains d = false

/-- The categories and policies in memory decide what the lists of the database leave open as
those that a start loads, in whatever order it ranges over the categories. -/
def TablesCurrent (e : Engine) (db : Database) : Prop :=
  ∀ order, Enumerates order db.loadCategoryDomains →
    ∀ (d : GoString) (g : ℤ), Undecided db.loadActiveBlocklistEntries d →
      e.policyCheck d g =
        ((Engine.new new new).loadTables (some order) (some db.loadGroupPolicies)).policyCheck d g

/-- The three reloads of a running process agree with a process start, on the lists and on
every decision, in whatever orders the callback and the start range over the categories. -/
def ReloadPathsAgree (e : Engine) (db : Database) (files : ListFiles) : Prop :=
  ∀ order order', Enumerates order db.loadCategoryDomains →
    Enumerates order' db.loadCategoryDomains →
    let lists := some db.loadActiveBlocklistEntries
    let policies := some db.loadGroupPolicies
    let fresh := startup files lists (some order) policies
    ∀ e' ∈ [reloadLists e lists, downloadLists e lists,
        notifyCallback e files lists (some order') policies],
      SameLists e' fresh ∧ SameDecisions e' fresh

omit [Unicode] in
theorem SameLists.eq {e e' : Engine} (h : SameLists e e') :
    e.blacklist = e'.blacklist ∧ e.whitelist = e'.whitelist := by
  obtain ⟨⟨bs⟩, ⟨ws⟩, _, _⟩ := e
  obtain ⟨⟨bs'⟩, ⟨ws'⟩, _, _⟩ := e'
  obtain ⟨rfl, rfl⟩ : bs = bs' ∧ ws = ws' := h
  exact ⟨rfl, rfl⟩

/-- With the same lists, the decisions differ where the lists leave the tables to decide. -/
theorem SameLists.sameDecisions_iff {e e' : Engine} (h : SameLists e e') :
    SameDecisions e e' ↔ ∀ d g, e.whitelist.contains d = false →
      e.blacklist.contains d = false → e.policyCheck d g = e'.policyCheck d g := by
  obtain ⟨hblack, hwhite⟩ := h.eq
  refine forall₂_congr fun d g => ?_
  unfold Engine.evaluateForGroup
  rw [← hblack, ← hwhite]
  by_cases hw : e.whitelist.contains d
  · simp [hw]
  by_cases hb : e.blacklist.contains d
  · simp [hw, hb]
  simp only [hw, hb, Bool.false_eq_true, if_false, forall_const]
  cases e.policyCheck d g <;> cases e'.policyCheck d g <;> simp

theorem startup_lists (files : ListFiles) (lists : LoadedLists)
    (categories : Option (List (Σ _ : ℤ, List GoString))) (policies : Option Policies) :
    (startup files (some lists) categories policies).blacklist.domains =
        normalized lists.1 ∪ normalized files.blocklist.domains ∧
      (startup files (some lists) categories policies).whitelist.domains =
        normalized lists.2 ∪ normalized files.allowlist.domains := by
  cases categories <;> cases policies <;>
    simp [startup, Engine.loadTables, Engine.loadCategories, Engine.loadPolicies, Engine.new]

theorem notifyCallback_lists (e : Engine) (files : ListFiles) (lists : LoadedLists)
    (categories categories' : Option (List (Σ _ : ℤ, List GoString))) (policies : Option Policies) :
    SameLists (notifyCallback e files (some lists) categories' policies)
      (startup files (some lists) categories policies) := by
  rw [SameLists, (startup_lists ..).1, (startup_lists ..).2]
  cases categories' <;> cases policies <;>
    simp [notifyCallback, Engine.loadTables, Engine.loadCategories, Engine.loadPolicies,
      Engine.loadListFiles, Engine.replaceLists]

theorem replaceLists_lists (e : Engine) (lists : LoadedLists) :
    (e.replaceLists lists).blacklist.domains = normalized lists.1 ∧
      (e.replaceLists lists).whitelist.domains = normalized lists.2 := by
  simp [Engine.replaceLists]

/-- **The endpoints agree with a process start exactly when every domain of the two local
files is already in the corresponding list of the database, and the categories and policies in
memory, which they do not load, decide what these lists leave open as those of the database.** -/
theorem reload_paths_agree_iff (e : Engine) (db : Database) (files : ListFiles) :
    ReloadPathsAgree e db files ↔
      normalized files.blocklist.domains ⊆ normalized db.loadActiveBlocklistEntries.1 ∧
        normalized files.allowlist.domains ⊆ normalized db.loadActiveBlocklistEntries.2 ∧
        TablesCurrent e db := by
  have hstart := startup_lists files db.loadActiveBlocklistEntries
  have hreplace := replaceLists_lists e db.loadActiveBlocklistEntries
  have hundecided : ∀ d, Undecided db.loadActiveBlocklistEntries d ↔
      (e.replaceLists db.loadActiveBlocklistEntries).whitelist.contains d = false ∧
        (e.replaceLists db.loadActiveBlocklistEntries).blacklist.contains d = false :=
    fun d => Iff.rfl
  constructor
  · intro h
    -- the endpoint alone already forces the condition
    have hendpoint := fun order horder => h order order horder horder _ List.mem_cons_self
    obtain ⟨order, horder⟩ := exists_enumerates db.loadCategoryDomains
    obtain ⟨⟨hb, hw⟩, -⟩ := hendpoint order horder
    rw [reloadLists, hreplace.1, (hstart _ _).1] at hb
    rw [reloadLists, hreplace.2, (hstart _ _).2] at hw
    refine ⟨Finset.union_eq_left.1 hb.symm, Finset.union_eq_left.1 hw.symm, ?_⟩
    intro order horder d g hd
    obtain ⟨hlists, hdecisions⟩ := hendpoint order horder
    obtain ⟨hwhite, hblack⟩ := (hundecided d).1 hd
    exact hlists.sameDecisions_iff.1 hdecisions d g hwhite hblack
  · rintro ⟨hb, hw, htables⟩ order order' horder horder'
    intro lists policies fresh e' he'
    have hrep : SameLists (e.replaceLists db.loadActiveBlocklistEntries) fresh := by
      rw [SameLists, hreplace.1, hreplace.2, (hstart _ _).1, (hstart _ _).2]
      exact ⟨(Finset.union_eq_left.2 hb).symm, (Finset.union_eq_left.2 hw).symm⟩
    have hreload : SameLists (e.replaceLists db.loadActiveBlocklistEntries) fresh ∧
        SameDecisions (e.replaceLists db.loadActiveBlocklistEntries) fresh := by
      refine ⟨hrep, hrep.sameDecisions_iff.2 fun d g hwhite hblack => ?_⟩
      exact htables order horder d g ((hundecided d).2 ⟨hwhite, hblack⟩)
    simp only [List.mem_cons, List.not_mem_nil, or_false] at he'
    rcases he' with rfl | rfl | rfl
    · exact hreload
    · exact hreload
    · have hnotify := notifyCallback_lists e files db.loadActiveBlocklistEntries order order'
        policies
      refine ⟨hnotify, hnotify.sameDecisions_iff.2 fun d g hwhite hblack => ?_⟩
      have hd : Undecided db.loadActiveBlocklistEntries d := by
        rw [hundecided, hrep.eq.1, hrep.eq.2, ← hnotify.eq.1, ← hnotify.eq.2]
        exact ⟨hwhite, hblack⟩
      exact (htables order' horder' d g hd).symm.trans (htables order horder d g hd)

end Agreement

/-- A database in which the list of the category that group `1` blocks has just been put into
it. -/
def categorisedDatabase : Database :=
  { emptyDatabase with
    groups := [1], categories := [1], policies := [(1, 1)],
    blocklists := [⟨1, [], [], 0, true, 1⟩], entries := [⟨1, "ads.com".toList⟩],
    blocklistCategories := [(1, 1)] }

/-- With an empty database and one domain in `blocklist.txt`, the endpoints drop the domain
that process start and the callback load; and they do not load the categories, so that the
domain of a list that has been put into a category is allowed. -/
theorem reload_paths_disagree :
    letI := asciiTable
    ¬ ReloadPathsAgree (Engine.new new new) emptyDatabase
        ⟨.text "127.0.0.1 ads.google.com\n".toList, .missing⟩ ∧
      ¬ ReloadPathsAgree ((Engine.new (new.add "ads.com".toList) new).loadPolicies
        categorisedDatabase.loadGroupPolicies) categorisedDatabase ⟨.missing, .missing⟩ := by
  let := asciiTable
  constructor
  · intro h
    obtain ⟨⟨hb, -⟩, -⟩ := h [] [] (by decide) (by decide) _ List.mem_cons_self
    revert hb
    decide
  · intro h
    have horder : Enumerates [⟨1, ["ads.com".toList]⟩] categorisedDatabase.loadCategoryDomains := by
      decide
    obtain ⟨-, hdecisions⟩ := h _ _ horder horder _ List.mem_cons_self
    have hads := hdecisions "ads.com".toList 1
    revert hads
    decide

end DnsFilter
