import DnsFilter.Store.Tables
import DnsFilter.Filter.Engine
import Mathlib.Data.List.Sort

/-!
# Loading the filter state

The three queries that feed the in-memory filter: `LoadActiveBlocklistEntries`,
`LoadCategoryDomains` and `LoadGroupPolicies`.
-/

namespace DnsFilter
namespace Database

/-- The rows `(domain, list_type)` of the active lists without a category. -/
def activeEntryRows (db : Database) : List (GoString × ℤ) :=
  db.entries.flatMap fun be =>
    (db.blocklists.filter fun bl =>
      bl.id = be.listID ∧ bl.active ∧ bl.id ∉ db.blocklistCategories.map (·.1)).map
      fun bl => (be.domain, bl.listType)

/-- `ORDER BY bl.list_type, be.domain`, in code point order. -/
def entryRowLE (r s : GoString × ℤ) : Prop := r.2 < s.2 ∨ r.2 = s.2 ∧ ¬ s.1 < r.1

instance : DecidableRel entryRowLE := fun _ _ => inferInstanceAs (Decidable (_ ∨ _))

/-- Blacklist and whitelist domains of the active lists that have no category; a list of
any other type is skipped. -/
def loadActiveBlocklistEntries (db : Database) : List GoString × List GoString :=
  let rows := db.activeEntryRows.insertionSort entryRowLE
  (rows.filterMap fun r => if r.2 = 0 then some r.1 else none,
    rows.filterMap fun r => if r.2 = 1 then some r.1 else none)

/-- The rows `(category_id, domain)` of the active lists with categories. -/
def categoryRows (db : Database) : List (ℤ × GoString) :=
  db.blocklistCategories.flatMap fun bc =>
    (db.entries.filter fun be =>
      be.listID = bc.1 ∧ (db.blocklists.any fun bl => bl.id = bc.1 ∧ bl.active)).map
      fun be => (bc.2, be.domain)

/-- `result[catID] = append(result[catID], domain)`, row by row. -/
def loadCategoryDomains (db : Database) : CatDomains :=
  db.categoryRows.foldl (fun m r => m.insert r.1 ((m.lookup r.1).getD [] ++ [r.2])) ∅

/-- `result[groupID][catID] = true`, row by row. -/
def loadGroupPolicies (db : Database) : Policies :=
  db.policies.foldl (fun m r => m.insert r.1 (insert r.2 ((m.lookup r.1).getD ∅))) ∅

theorem mem_loadActive_black {db : Database} {d : GoString} :
    d ∈ db.loadActiveBlocklistEntries.1 ↔ (d, 0) ∈ db.activeEntryRows := by
  simp [loadActiveBlocklistEntries]

theorem mem_loadActive_white {db : Database} {d : GoString} :
    d ∈ db.loadActiveBlocklistEntries.2 ↔ (d, 1) ∈ db.activeEntryRows := by
  simp [loadActiveBlocklistEntries]

/-- The domains that a loop over the rows has appended under a category. -/
theorem lookup_foldl_append (rows : List (ℤ × GoString)) (c : ℤ) :
    Finmap.lookup c (rows.foldl (fun (m : CatDomains) r =>
        m.insert r.1 ((m.lookup r.1).getD [] ++ [r.2])) ∅) =
      let ds := rows.filterMap fun r => if r.1 = c then some r.2 else none
      if ds = [] then none else some ds := by
  induction rows using List.reverseRecOn with
  | nil => simp
  | append_singleton rows r ih =>
    rw [List.foldl_append, List.foldl_cons, List.foldl_nil, List.filterMap_append]
    by_cases hr : r.1 = c
    · subst hr
      rw [Finmap.lookup_insert, ih]
      by_cases hds : (rows.filterMap fun r' => if r'.1 = r.1 then some r'.2 else none) = []
      · simp only [hds, if_pos, Option.getD_none]
        simp
      · simp only [hds, if_false, Option.getD_some]
        simp
    · rw [Finmap.lookup_insert_of_ne _ (Ne.symm hr), ih,
        List.filterMap_cons_none (by simp [hr]), List.filterMap_nil, List.append_nil]

/-- The domains loaded under a category are those of its rows. -/
theorem lookup_loadCategoryDomains (db : Database) (c : ℤ) :
    db.loadCategoryDomains.lookup c =
      let ds := db.categoryRows.filterMap fun r => if r.1 = c then some r.2 else none
      if ds = [] then none else some ds :=
  lookup_foldl_append db.categoryRows c

/-- The categories that a loop over the rows has collected for a group. -/
theorem mem_lookup_foldl_insert {rows : List (ℤ × ℤ)} {g c : ℤ} :
    c ∈ (Finmap.lookup g (rows.foldl (fun (m : Policies) r =>
        m.insert r.1 (insert r.2 ((m.lookup r.1).getD ∅))) ∅)).getD ∅ ↔ (g, c) ∈ rows := by
  induction rows using List.reverseRecOn with
  | nil => simp
  | append_singleton rows r ih =>
    rw [List.foldl_append, List.foldl_cons, List.foldl_nil, List.mem_append, ← ih]
    obtain ⟨g', c'⟩ := r
    by_cases hg : g' = g
    · subst hg
      simp [Finmap.lookup_insert, or_comm]
    · simp [Finmap.lookup_insert_of_ne _ (Ne.symm hg), Ne.symm hg]

end Database
end DnsFilter
