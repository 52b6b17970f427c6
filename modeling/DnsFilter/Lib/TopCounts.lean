import DnsFilter.Lib.Paging

/-!
# The most frequent keys

Rows are grouped by a key, and the groups with the most rows are returned first; which of several
groups of one size come first is the query's own choice.

* `counts`: the keys of the rows with the number of their rows;
* `IsTop`: a list of at most `k` of them that leaves out none with more rows;
* `isTop_take`: every such query gives one; `IsTop.sum_le`: its groups are disjoint.
-/

namespace TopCounts

variable {α κ : Type*} [DecidableEq κ] {key : α → κ} {rows : List α}

/-- The keys of the rows, with the number of rows of each. -/
def counts (key : α → κ) (rows : List α) : List (κ × ℕ) :=
  (rows.map key).dedup.map fun x => (x, (rows.map key).count x)

theorem mem_counts {p : κ × ℕ} :
    p ∈ counts key rows ↔ p.1 ∈ rows.map key ∧ p.2 = (rows.map key).count p.1 := by
  simp only [counts, List.mem_map, List.mem_dedup]
  constructor
  · rintro ⟨x, hx, rfl⟩
    exact ⟨hx, rfl⟩
  · rintro ⟨hx, hn⟩
    exact ⟨p.1, hx, Prod.ext rfl hn.symm⟩

theorem fst_counts : (counts key rows).map Prod.fst = (rows.map key).dedup := by
  simp [counts, List.map_map, Function.comp_def]

/-- Every row is in one group. -/
theorem sum_counts (key : α → κ) (rows : List α) :
    ((counts key rows).map Prod.snd).sum = rows.length := by
  have hsum := List.sum_map_count_dedup_eq_length (rows.map key)
  rw [List.length_map] at hsum
  rw [← hsum, counts, List.map_map]
  rfl

/-- At most `k` keys with the numbers of their rows, the largest first; of the keys that are left
out, which there are only if there are `k` others, none has more rows than one of these. -/
structure IsTop (k : ℕ) (key : α → κ) (rows : List α) (items : List (κ × ℕ)) : Prop where
  exact : ∀ p ∈ items, 0 < p.2 ∧ p.2 = (rows.map key).count p.1
  nodup : (items.map Prod.fst).Nodup
  sorted : items.Pairwise fun p q => q.2 ≤ p.2
  length : items.length = min k (rows.map key).dedup.length
  best : ∀ x, x ∉ items.map Prod.fst → ∀ p ∈ items, (rows.map key).count x ≤ p.2

/-- The first `k` groups, in any order by size. -/
theorem isTop_take {sorted : List (κ × ℕ)}
    (h : Paging.Arrangement Prod.snd (counts key rows) sorted) (k : ℕ) :
    IsTop k key rows (sorted.take k) where
  exact p hp := by
    obtain ⟨hmem, hcount⟩ := mem_counts.1 (h.perm.mem_iff.1 (List.mem_of_mem_take hp))
    exact ⟨hcount ▸ List.count_pos_iff.2 hmem, hcount⟩
  nodup := by
    have hall : (sorted.map Prod.fst).Nodup := by
      rw [(h.perm.map Prod.fst).nodup_iff, fst_counts]
      exact List.nodup_dedup _
    exact hall.sublist ((List.take_sublist k sorted).map Prod.fst)
  sorted := h.sorted.sublist (List.take_sublist k sorted)
  length := by rw [List.length_take, h.perm.length_eq, ← fst_counts, List.length_map]
  best x hx p hp := by
    by_cases hrow : x ∈ rows.map key
    · -- the group of `x` comes after the first `k`
      have hmem : (x, (rows.map key).count x) ∈ sorted :=
        h.perm.mem_iff.2 (mem_counts.2 ⟨hrow, rfl⟩)
      rw [← List.take_append_drop k sorted, List.mem_append] at hmem
      have hsorted := h.sorted
      rw [← List.take_append_drop k sorted, List.pairwise_append] at hsorted
      rcases hmem with hmem | hmem
      · exact absurd (List.mem_map_of_mem hmem) hx
      · exact hsorted.2.2 p hp _ hmem
    · rw [List.count_eq_zero_of_not_mem hrow]
      exact Nat.zero_le _

variable {k : ℕ} {items : List (κ × ℕ)}

/-- All of them together have no more rows than there are. -/
theorem IsTop.sum_le (h : IsTop k key rows items) : (items.map Prod.snd).sum ≤ rows.length := by
  have hsub : items.Subperm (counts key rows) := by
    refine List.subperm_of_subset (List.Nodup.of_map Prod.fst h.nodup) fun p hp => ?_
    obtain ⟨hpos, hcount⟩ := h.exact p hp
    exact mem_counts.2 ⟨List.count_pos_iff.1 (hcount ▸ hpos), hcount⟩
  rw [← sum_counts key rows]
  obtain ⟨l, hperm, hl⟩ := hsub
  rw [← (hperm.map Prod.snd).sum_eq]
  exact (hl.map Prod.snd).sum_le_sum fun n _ => Nat.zero_le n

end TopCounts
