import DnsFilter.Lib.Cursor
import DnsFilter.Store.Loaders

/-!
# The loaders, row by row

`LoadActiveBlocklistEntries`, `LoadCategoryDomains`, `LoadGroupPolicies` and `ListIPRanges` as
loops over the rows of their queries.  The first asks for the error of the closed result, the
second and the third go on when a row cannot be scanned, and the last returns then.

* `loads_all_rows_iff`: when each of the loops returns an error or something that is built from
  all rows;
* `Arrival`, `Store.answer`: the answers that the database gives for its tables, and what the loops
  return for them.
-/

namespace DnsFilter

open Cursor

/-- The rows of a query and the error that the result reports when it was closed early. -/
structure QueryRows (α : Type*) where
  rows : List (Option α)
  breaks : Option ℕ
  err : String

/-- How the rows of a query come: in which order, and after how many of them the connection
breaks. -/
structure Arrival (α : Type*) where
  sort : List α → List α
  perm : ∀ rows, (sort rows).Perm rows
  breaks : Option ℕ := none
  err : String := ""

/-- All rows, as they are. -/
def Arrival.complete {α : Type*} : Arrival α where
  sort rows := rows
  perm _ := .rfl

/-- The rows that come. -/
def Arrival.rows {α : Type*} (a : Arrival α) (table : List α) : List α :=
  arrived (a.sort table) a.breaks

theorem Arrival.rows_subset {α : Type*} (a : Arrival α) (table : List α) :
    a.rows table ⊆ table := by
  obtain ⟨missing, hmissing⟩ := exists_append_missing (a.sort table) a.breaks
  refine fun row hrow => (a.perm table).mem_iff.1 ?_
  rw [hmissing]
  exact List.mem_append_left missing hrow

namespace Store

/-- A query on a table, which fails or has rows that come in some way.  None of the columns that
the loops read makes a scan fail. -/
def answer {α : Type*} (query : Except String (Arrival α)) (table : List α) :
    Except String (QueryRows α) :=
  query.map fun a => ⟨(a.sort table).map some, a.breaks, a.err⟩

/-! ### The loops -/

/-- `switch listType`: a row of any other type is skipped. -/
def addListEntry (lists : List GoString × List GoString) (row : GoString × ℤ) :
    List GoString × List GoString :=
  if row.2 = 0 then (lists.1 ++ [row.1], lists.2)
  else if row.2 = 1 then (lists.1, lists.2 ++ [row.1])
  else lists

/-- `result[catID] = append(result[catID], domain)`. -/
def addCategoryDomain (result : CatDomains) (row : ℤ × GoString) : CatDomains :=
  result.insert row.1 ((result.lookup row.1).getD [] ++ [row.2])

/-- `result[groupID][catID] = true`, in a map that is made on demand. -/
def addGroupPolicy (result : Policies) (row : ℤ × ℤ) : Policies :=
  result.insert row.1 (insert row.2 ((result.lookup row.1).getD ∅))

def loadActiveBlocklistEntries (query : Except String (QueryRows (GoString × ℤ))) :
    Except String (List GoString × List GoString) :=
  match query with
  | .error err => .error ("store: load blocklist entries: " ++ err)
  | .ok q =>
      let body (lists : List GoString × List GoString) : Option (GoString × ℤ) → Flow _ String
        | some row => .next (addListEntry lists row)
        | none => .return ("store: scan blocklist entry: " ++ q.err)
      match forNext body q.rows q.breaks ([], []) with
      | (.return err, _) => .error err
      | (.next lists, closedEarly) =>
          if closedEarly then .error ("store: iterate blocklist entries: " ++ q.err)
          else .ok lists

def loadCategoryDomains (query : Except String (QueryRows (ℤ × GoString))) :
    Except String CatDomains :=
  match query with
  | .error err => .error ("store: load category domains: " ++ err)
  | .ok q =>
      let body (result : CatDomains) : Option (ℤ × GoString) → Flow _ String
        | some row => .next (addCategoryDomain result row)
        | none => .next result
      match forNext body q.rows q.breaks ∅ with
      | (.return err, _) => .error err
      | (.next result, _) => .ok result

def loadGroupPolicies (query : Except String (QueryRows (ℤ × ℤ))) : Except String Policies :=
  match query with
  | .error err => .error ("store: load policies: " ++ err)
  | .ok q =>
      let body (result : Policies) : Option (ℤ × ℤ) → Flow _ String
        | some row => .next (addGroupPolicy result row)
        | none => .next result
      match forNext body q.rows q.breaks ∅ with
      | (.return err, _) => .error err
      | (.next result, _) => .ok result

def listIPRanges (query : Except String (QueryRows IPRangeRow)) :
    Except String (List IPRangeRow) :=
  match query with
  | .error err => .error ("store: list ranges: " ++ err)
  | .ok q =>
      let body (ranges : List IPRangeRow) : Option IPRangeRow → Flow _ String
        | some r => .next (ranges ++ [r])
        | none => .return ("store: scan range: " ++ q.err)
      match forNext body q.rows q.breaks [] with
      | (.return err, _) => .error err
      | (.next ranges, _) => .ok ranges

/-- The loop of `DownloadLists` and `updateAll` over the lists that have a source. -/
def listExternal (query : Except String (QueryRows ℤ)) : Except String (List ℤ) :=
  match query with
  | .error err => .error err
  | .ok q =>
      let body (lists : List ℤ) : Option ℤ → Flow _ String
        | some l => .next (lists ++ [l])
        | none => .next lists
      match forNext body q.rows q.breaks [] with
      | (.return err, _) => .error err
      | (.next lists, _) => .ok lists

/-! ### What they return -/

section Results

variable {rows breaks} {err : String}

theorem loadActiveBlocklistEntries_ok :
    (loadActiveBlocklistEntries (.ok ⟨rows, breaks, err⟩)).toOption =
      if (arrived rows breaks).all Option.isSome ∧ ¬ breaks.any (· ≤ rows.length) then
        some ((seen rows breaks).foldl addListEntry ([], []))
      else none := by
  simp only [loadActiveBlocklistEntries]
  rw [forNext_eq (f := addListEntry) (fun _ _ => rfl)]
  split_ifs <;> simp_all [Except.toOption]

theorem loadCategoryDomains_ok :
    (loadCategoryDomains (.ok ⟨rows, breaks, err⟩)).toOption =
      some ((seen rows breaks).foldl addCategoryDomain ∅) := by
  simp only [loadCategoryDomains]
  rw [forNext_eq (f := addCategoryDomain) (fun _ _ => rfl)]
  split_ifs <;> rfl

theorem loadGroupPolicies_ok :
    (loadGroupPolicies (.ok ⟨rows, breaks, err⟩)).toOption =
      some ((seen rows breaks).foldl addGroupPolicy ∅) := by
  simp only [loadGroupPolicies]
  rw [forNext_eq (f := addGroupPolicy) (fun _ _ => rfl)]
  split_ifs <;> rfl

theorem listIPRanges_ok :
    (listIPRanges (.ok ⟨rows, breaks, err⟩)).toOption =
      if (arrived rows breaks).all Option.isSome then some (seen rows breaks) else none := by
  simp only [listIPRanges]
  rw [forNext_eq (f := fun ranges r => ranges ++ [r]) (fun _ _ => rfl)]
  split_ifs <;> simp [Except.toOption, ← List.flatMap_def]

/-! ### Complete results -/

theorem foldl_addListEntry (rows : List (GoString × ℤ)) :
    rows.foldl addListEntry ([], []) =
      (rows.filterMap fun r => if r.2 = 0 then some r.1 else none,
        rows.filterMap fun r => if r.2 = 1 then some r.1 else none) := by
  induction rows using List.reverseRecOn with
  | nil => rfl
  | append_singleton rows r ih =>
    rw [List.foldl_append, ih, List.foldl_cons, List.foldl_nil, addListEntry]
    split_ifs with h0 h1
    · simp [h0]
    · simp [h1]
    · simp [h0, h1]

/-- On the complete rows of the database the loaders are those of `Database`. -/
theorem loads_of_complete (db : Database) :
    (loadActiveBlocklistEntries (.ok ⟨(db.activeEntryRows.insertionSort
        Database.entryRowLE).map some, none, err⟩)).toOption =
      some db.loadActiveBlocklistEntries ∧
    (loadCategoryDomains (.ok ⟨db.categoryRows.map some, none, err⟩)).toOption =
      some db.loadCategoryDomains ∧
    (loadGroupPolicies (.ok ⟨db.policies.map some, none, err⟩)).toOption =
      some db.loadGroupPolicies := by
  refine ⟨?_, ?_, ?_⟩
  · rw [loadActiveBlocklistEntries_ok, seen_map_some, foldl_addListEntry]
    simp [Database.loadActiveBlocklistEntries]
  · rw [loadCategoryDomains_ok, seen_map_some]
    rfl
  · rw [loadGroupPolicies_ok, seen_map_some]
    rfl

end Results

/-! ### Rows behind a break -/

/-- The map of the categories is another one when a row is missing. -/
theorem eq_nil_of_addCategoryDomain {values missing : List (ℤ × GoString)}
    (h : values.foldl addCategoryDomain ∅ = (values ++ missing).foldl addCategoryDomain ∅) :
    missing = [] := by
  cases missing with
  | nil => rfl
  | cons row missing =>
    have hlookup (rows : List (ℤ × GoString)) := Database.lookup_foldl_append rows row.1
    have hdomains := (hlookup values).symm.trans
      ((congrArg (Finmap.lookup row.1) h).trans (hlookup (values ++ row :: missing)))
    simp only [List.filterMap_append, List.filterMap_cons, if_true] at hdomains
    split_ifs at hdomains <;> simp_all

/-- A policy that is there already makes no difference. -/
theorem addGroupPolicy_of_mem {values : List (ℤ × ℤ)} {row : ℤ × ℤ} (h : row ∈ values) :
    addGroupPolicy (values.foldl addGroupPolicy ∅) row = values.foldl addGroupPolicy ∅ := by
  have hmem : row.2 ∈ ((values.foldl addGroupPolicy ∅).lookup row.1).getD ∅ :=
    Database.mem_lookup_foldl_insert.2 h
  refine Finmap.ext_lookup fun g => ?_
  rw [addGroupPolicy]
  by_cases hg : g = row.1
  · subst hg
    cases hlookup : (values.foldl addGroupPolicy ∅).lookup row.1 with
    | none => simp [hlookup] at hmem
    | some cats =>
      have hcats : row.2 ∈ cats := by simpa [hlookup] using hmem
      simp [Finset.insert_eq_self.2 hcats]
  · rw [Finmap.lookup_insert_of_ne _ hg]

/-- The policies are the same when the missing rows repeat earlier ones. -/
theorem addGroupPolicy_eq_iff {values missing : List (ℤ × ℤ)} :
    values.foldl addGroupPolicy ∅ = (values ++ missing).foldl addGroupPolicy ∅ ↔
      missing ⊆ values := by
  constructor
  · rintro h ⟨g, c⟩ hrow
    have hmem : c ∈ (((values ++ missing).foldl addGroupPolicy ∅).lookup g).getD ∅ :=
      Database.mem_lookup_foldl_insert.2 (List.mem_append_right _ hrow)
    rw [← h] at hmem
    exact Database.mem_lookup_foldl_insert.1 hmem
  · intro h
    rw [List.foldl_append]
    induction missing with
    | nil => rfl
    | cons row missing ih =>
      obtain ⟨hrow, hmissing⟩ := List.cons_subset.1 h
      rw [List.foldl_cons, addGroupPolicy_of_mem hrow]
      exact ih hmissing

/-! ### Everything or an error -/

section Built

variable {breaks : Option ℕ} {err : String}

theorem builtFromAll_loadActiveBlocklistEntries {rows : List (Option (GoString × ℤ))} :
    BuiltFromAll (List.foldl addListEntry ([], [])) rows
      (loadActiveBlocklistEntries (.ok ⟨rows, breaks, err⟩)).toOption := by
  rw [loadActiveBlocklistEntries_ok]
  split_ifs with h
  · obtain ⟨hscan, hclosed⟩ := h
    have hbreaks : ∀ n ∈ breaks, rows.length ≤ n := by
      cases breaks with
      | none => simp
      | some n => simpa using le_of_lt (by simpa using hclosed)
    rw [arrived_eq_self_iff.2 hbreaks] at hscan
    refine builtFromAll_of_arrived (fun hnone => ?_) hbreaks
    exact absurd (List.all_eq_true.1 hscan none hnone) (by simp)
  · rintro _ ⟨⟩

theorem builtFromAll_loadCategoryDomains {rows : List (Option (ℤ × GoString))} :
    BuiltFromAll (List.foldl addCategoryDomain ∅) rows
        (loadCategoryDomains (.ok ⟨rows, breaks, err⟩)).toOption ↔
      none ∉ rows ∧ ∀ n ∈ breaks, rows.length ≤ n := by
  rw [loadCategoryDomains_ok]
  exact builtFromAll_iff_of_counts eq_nil_of_addCategoryDomain

theorem builtFromAll_loadGroupPolicies {rows : List (Option (ℤ × ℤ))} :
    BuiltFromAll (List.foldl addGroupPolicy ∅) rows
        (loadGroupPolicies (.ok ⟨rows, breaks, err⟩)).toOption ↔
      none ∉ rows ∧ rows ⊆ arrived rows breaks := by
  rw [loadGroupPolicies_ok, builtFromAll_seen_iff, ← exists_eq_map_some, ← exists_and_right]
  refine exists_congr fun values => and_congr_right fun hrows => ?_
  subst hrows
  obtain ⟨missing, hmissing⟩ := exists_append_missing values breaks
  have hsame := @addGroupPolicy_eq_iff (arrived values breaks) missing
  rw [← hmissing] at hsame
  rw [hsame, arrived_map, List.map_subset_iff _ (Option.some_injective _)]
  constructor
  · intro h row hrow
    rw [hmissing] at hrow
    exact (List.mem_append.1 hrow).elim id fun hmiss => h hmiss
  · intro h row hrow
    exact h (by rw [hmissing]; exact List.mem_append_right _ hrow)

theorem builtFromAll_listIPRanges {rows : List (Option IPRangeRow)} :
    BuiltFromAll id rows (listIPRanges (.ok ⟨rows, breaks, err⟩)).toOption ↔
      none ∈ arrived rows breaks ∨ ∀ n ∈ breaks, rows.length ≤ n := by
  rw [listIPRanges_ok]
  split_ifs with hscan
  · have hnone : none ∉ arrived rows breaks := by
      intro hnone
      exact absurd (List.all_eq_true.1 hscan none hnone) (by simp)
    have hall : BuiltFromAll id rows (some (id (seen rows breaks))) ↔ _ :=
      builtFromAll_iff_of_counts (by simp)
    refine hall.trans ?_
    constructor
    · exact fun h => .inr h.2
    · rintro (h | h)
      · exact absurd h hnone
      · exact ⟨by rwa [arrived_eq_self_iff.2 h] at hnone, h⟩
  · have hnone : none ∈ arrived rows breaks := by simpa using hscan
    simp only [hnone, true_or, iff_true]
    rintro _ ⟨⟩

end Built

/-! ### Answers of the database -/

section Answers

theorem toOption_eq_some {ε α : Type*} {x : Except ε α} {a : α} :
    x.toOption = some a ↔ x = .ok a := by
  cases x <;> simp [Except.toOption]

/-- What a loop returns, unless the query fails, comes from the rows that come. -/
theorem exists_arrival {α β : Type*} {load : Except String (QueryRows α) → Except String β}
    {query : Except String (Arrival α)} {table : List α} {x : β}
    (hfails : ∀ err, (load (.error err)).toOption = none) (h : load (answer query table) = .ok x) :
    ∃ a : Arrival α,
      (load (.ok ⟨(a.sort table).map some, a.breaks, a.err⟩)).toOption = some x := by
  rw [← toOption_eq_some] at h
  cases query with
  | error err => exact absurd ((hfails err).symm.trans h) (by simp)
  | ok a => exact ⟨a, h⟩

/-- The lists are those of all rows. -/
theorem loadActiveBlocklistEntries_answer {query : Except String (Arrival (GoString × ℤ))}
    {table : List (GoString × ℤ)} {lists : List GoString × List GoString}
    (h : loadActiveBlocklistEntries (answer query table) = .ok lists) :
    ∃ rows : List (GoString × ℤ), rows.Perm table ∧ lists = rows.foldl addListEntry ([], []) := by
  obtain ⟨a, ha⟩ := exists_arrival (fun _ => rfl) h
  rw [loadActiveBlocklistEntries_ok, seen_map_some] at ha
  split_ifs at ha with hcomplete
  have hall : arrived (a.sort table) a.breaks = a.sort table := by
    refine arrived_eq_self_iff.2 fun n hn => ?_
    have hclosed := hcomplete.2
    rw [Option.mem_def.1 hn] at hclosed
    simpa using le_of_lt (by simpa using hclosed)
  rw [hall] at ha
  exact ⟨a.sort table, a.perm table, (Option.some.inj ha).symm⟩

/-- The categories are those of the rows that come. -/
theorem loadCategoryDomains_answer {query : Except String (Arrival (ℤ × GoString))}
    {table : List (ℤ × GoString)} {m : CatDomains}
    (h : loadCategoryDomains (answer query table) = .ok m) :
    ∃ rows ⊆ table, m = rows.foldl addCategoryDomain ∅ := by
  obtain ⟨a, ha⟩ := exists_arrival (fun _ => rfl) h
  rw [loadCategoryDomains_ok, seen_map_some] at ha
  exact ⟨a.rows table, a.rows_subset table, (Option.some.inj ha).symm⟩

theorem loadGroupPolicies_answer {query : Except String (Arrival (ℤ × ℤ))} {table : List (ℤ × ℤ)}
    {policies : Policies} (h : loadGroupPolicies (answer query table) = .ok policies) :
    ∃ rows ⊆ table, policies = rows.foldl addGroupPolicy ∅ := by
  obtain ⟨a, ha⟩ := exists_arrival (fun _ => rfl) h
  rw [loadGroupPolicies_ok, seen_map_some] at ha
  exact ⟨a.rows table, a.rows_subset table, (Option.some.inj ha).symm⟩

theorem listIPRanges_answer {query : Except String (Arrival IPRangeRow)}
    {table ranges : List IPRangeRow} (h : listIPRanges (answer query table) = .ok ranges) :
    ranges ⊆ table := by
  obtain ⟨a, ha⟩ := exists_arrival (fun _ => rfl) h
  rw [listIPRanges_ok, seen_map_some] at ha
  split_ifs at ha
  rw [← Option.some.inj ha]
  exact a.rows_subset table

end Answers

/-- A loader that gets rows returns an error or is built from all rows: the loader of the lists
always; that of the categories when all rows can be scanned and arrive; that of the policies
when all rows can be scanned and each repeats one that arrives; that of the ranges when a row
that arrives cannot be scanned, or all arrive. -/
theorem loads_all_rows_iff (entries : List (Option (GoString × ℤ)))
    (domains : List (Option (ℤ × GoString))) (policies : List (Option (ℤ × ℤ)))
    (ranges : List (Option IPRangeRow)) (breaks : Option ℕ) (err : String) :
    BuiltFromAll (List.foldl addListEntry ([], [])) entries
        (loadActiveBlocklistEntries (.ok ⟨entries, breaks, err⟩)).toOption ∧
      (BuiltFromAll (List.foldl addCategoryDomain ∅) domains
          (loadCategoryDomains (.ok ⟨domains, breaks, err⟩)).toOption ↔
        none ∉ domains ∧ ∀ n ∈ breaks, domains.length ≤ n) ∧
      (BuiltFromAll (List.foldl addGroupPolicy ∅) policies
          (loadGroupPolicies (.ok ⟨policies, breaks, err⟩)).toOption ↔
        none ∉ policies ∧ policies ⊆ arrived policies breaks) ∧
      (BuiltFromAll id ranges (listIPRanges (.ok ⟨ranges, breaks, err⟩)).toOption ↔
        none ∈ arrived ranges breaks ∨ ∀ n ∈ breaks, ranges.length ≤ n) :=
  ⟨builtFromAll_loadActiveBlocklistEntries, builtFromAll_loadCategoryDomains,
    builtFromAll_loadGroupPolicies, builtFromAll_listIPRanges⟩

/-- The connection breaks after the first of two domains, the first of two policies and in front
of the only range: nobody is told. -/
theorem loads_all_rows_fails :
    let domains : List (Option (ℤ × GoString)) :=
      [some (1, "ads.com".toList), some (1, "casino.com".toList)]
    let policies : List (Option (ℤ × ℤ)) := [some (1, 1), some (1, 2)]
    let range : IPRangeRow := ⟨1, "10.0.0.0/8".toList, 1, 0, []⟩
    ((loadCategoryDomains (.ok ⟨domains, some 1, "conn closed"⟩)).toOption =
        some (addCategoryDomain ∅ (1, "ads.com".toList)) ∧
      ¬ BuiltFromAll (List.foldl addCategoryDomain ∅) domains
        (loadCategoryDomains (.ok ⟨domains, some 1, "conn closed"⟩)).toOption) ∧
    ((loadGroupPolicies (.ok ⟨policies, some 1, "conn closed"⟩)).toOption =
        some (addGroupPolicy ∅ (1, 1)) ∧
      ¬ BuiltFromAll (List.foldl addGroupPolicy ∅) policies
        (loadGroupPolicies (.ok ⟨policies, some 1, "conn closed"⟩)).toOption) ∧
    (listIPRanges (.ok ⟨[some range], some 0, "conn closed"⟩)).toOption = some [] ∧
      ¬ BuiltFromAll id [some range]
        (listIPRanges (.ok ⟨[some range], some 0, "conn closed"⟩)).toOption := by
  intro domains policies range
  refine ⟨⟨by decide +kernel, fun h => ?_⟩, ⟨by decide +kernel, fun h => ?_⟩, by decide +kernel,
    fun h => ?_⟩
  · exact absurd ((builtFromAll_loadCategoryDomains.1 h).2 1 rfl) (by decide)
  · exact absurd (builtFromAll_loadGroupPolicies.1 h).2 (by decide)
  · simpa [arrived] using builtFromAll_listIPRanges.1 h

end Store
end DnsFilter
