import DnsFilter.Filter.Engine

/-!
# Categories of domains

What `LoadCategories` makes of a map from categories to domains, and how `EvaluateForGroup`
looks a name up in it.

* `lookup_writeCategories`: the loaded map holds listed pairs only, and one for every listed
  domain;
* `policyCheck_eq_some_iff`: the policy step blocks by the category of the first of the
  `categoryKeys` of a name that has one;
* `FirstListed`: that name, whatever the order in which the map was ranged over.
-/

namespace DnsFilter

open Blacklist Engine

instance {β : Type*} [DecidableEq β] (order : List (Σ _ : ℤ, β)) (m : Finmap fun _ : ℤ => β) :
    Decidable (Enumerates order m) := inferInstanceAs (Decidable (_ = _))

section Categories

/-! ### Enumerations -/

theorem exists_enumerates (m : CatDomains) : ∃ order, Enumerates order m :=
  Quotient.exists_rep m.entries

theorem mem_enumeration {order : List (Σ _ : ℤ, List GoString)} {m : CatDomains}
    (h : Enumerates order m) {c : ℤ} {ds : List GoString} :
    ⟨c, ds⟩ ∈ order ↔ m.lookup c = some ds := by
  rw [← Multiset.mem_coe, h]
  exact Finmap.mem_lookup_iff.symm

/-- A map can be enumerated with any of its entries last. -/
theorem exists_enumerates_concat {m : CatDomains} {c : ℤ} {ds : List GoString}
    (h : m.lookup c = some ds) : ∃ order, Enumerates (order ++ [⟨c, ds⟩]) m := by
  obtain ⟨rest, hrest⟩ := Multiset.exists_cons_of_mem (Finmap.mem_lookup_iff.1 h)
  obtain ⟨order, rfl⟩ := Quotient.exists_rep rest
  refine ⟨order, ?_⟩
  rw [Enumerates, hrest, ← Multiset.coe_add, add_comm]
  rfl

/-! ### Writes -/

theorem lookup_writeCategories_concat (ws : List (GoString × ℤ)) (w : GoString × ℤ)
    (d : GoString) : (writeCategories (ws ++ [w])).lookup d =
      if w.1 = d then some w.2 else (writeCategories ws).lookup d := by
  rw [writeCategories, List.foldl_append, List.foldl_cons, List.foldl_nil]
  split_ifs with h
  · rw [← h, Finmap.lookup_insert]
  · rw [Finmap.lookup_insert_of_ne _ (Ne.symm h)]
    rfl

/-- The map holds written pairs only, and one for every domain written. -/
theorem lookup_writeCategories (ws : List (GoString × ℤ)) (d : GoString) :
    (∀ c, (writeCategories ws).lookup d = some c → (d, c) ∈ ws) ∧
      ((writeCategories ws).lookup d = none → ∀ c, (d, c) ∉ ws) := by
  induction ws using List.reverseRecOn with
  | nil => simp [writeCategories]
  | append_singleton ws w ih =>
    rw [lookup_writeCategories_concat]
    split_ifs with h
    · subst h
      simp
    · refine ⟨fun c hc => List.mem_append_left _ (ih.1 c hc), fun hnone c hc => ?_⟩
      rcases List.mem_append.1 hc with hc | hc
      · exact ih.2 hnone c hc
      · exact h (by rw [← List.mem_singleton.1 hc])

theorem writeCategories_congr {ws ws' : List (GoString × ℤ)} (hmem : ∀ w, w ∈ ws ↔ w ∈ ws')
    (hone : ∀ d c c', (d, c) ∈ ws → (d, c') ∈ ws → c = c') :
    writeCategories ws = writeCategories ws' := by
  refine Finmap.ext_lookup fun d => ?_
  obtain ⟨hsome, hnone⟩ := lookup_writeCategories ws d
  obtain ⟨hsome', hnone'⟩ := lookup_writeCategories ws' d
  cases h : (writeCategories ws).lookup d with
  | none =>
    cases h' : (writeCategories ws').lookup d with
    | none => rfl
    | some c => exact absurd ((hmem _).2 (hsome' c h')) (hnone h c)
  | some c =>
    cases h' : (writeCategories ws').lookup d with
    | none => exact absurd ((hmem _).1 (hsome c h)) (hnone' h' c)
    | some c' => rw [hone d c c' (hsome c h) ((hmem _).2 (hsome' c' h'))]

/-- The last writes of a domain decide. -/
theorem lookup_writeCategories_append {ws ws' : List (GoString × ℤ)} {d : GoString} {c : ℤ}
    (hmem : (d, c) ∈ ws') (hcat : ∀ w ∈ ws', w.2 = c) :
    (Engine.writeCategories (ws ++ ws')).lookup d = some c := by
  induction ws' using List.reverseRecOn with
  | nil => simp at hmem
  | append_singleton ws' w ih =>
    rw [← List.append_assoc, lookup_writeCategories_concat]
    split_ifs with hw
    · rw [hcat w (by simp)]
    · refine ih ?_ fun w' hw' => hcat w' (List.mem_append_left _ hw')
      refine (List.mem_append.1 hmem).resolve_right fun hlast => hw ?_
      rw [← List.mem_singleton.1 hlast]

/-! ### Lookups -/

variable [Unicode]

/-- The names under which the category of a domain is looked up, in this order. -/
def categoryKeys (domain : GoString) : List GoString :=
  let parts := splitDomain (normalize domain)
  normalize domain :: (List.range' 1 (parts.length - 2)).map fun i => joinDomain (parts.drop i)

/-- The categories that a group blocks. -/
def Engine.blockedCategories (e : Engine) (groupID : ℤ) : Finset ℤ :=
  (e.groupPolicies.lookup groupID).getD ∅

theorem policyCheck_eq_some_iff {e : Engine} {domain : GoString} {groupID c : ℤ} :
    e.policyCheck domain groupID = some c ↔
      0 < groupID ∧ (categoryKeys domain).findSome? e.domainCategories.lookup = some c ∧
        c ∈ e.blockedCategories groupID := by
  have hparent : e.findParentCategory (normalize domain) =
      (categoryKeys domain).tail.findSome? e.domainCategories.lookup := by
    rw [categoryKeys, List.tail_cons, List.findSome?_map]
    rfl
  rw [← List.cons_head_tail (l := categoryKeys domain) (by simp [categoryKeys]),
    List.findSome?_cons, ← hparent]
  unfold Engine.policyCheck Engine.blockedCategories
  by_cases hg : 0 < groupID
  · simp only [hg, if_true, true_and, categoryKeys, List.head_cons]
    cases e.domainCategories.lookup (normalize domain) <;>
      cases e.groupPolicies.lookup groupID <;> simp [Option.filter_eq_some_iff]
  · simp [hg]

/-- The map lists a domain, given by its normal form, under a category. -/
def Listed (m : CatDomains) (k : GoString) (c : ℤ) : Prop :=
  ∃ ds, m.lookup c = some ds ∧ k ∈ normalized ds

theorem mem_categoryWrites_iff {order : List (Σ _ : ℤ, List GoString)} {m : CatDomains}
    (h : Enumerates order m) {k : GoString} {c : ℤ} :
    (k, c) ∈ categoryWrites order ↔ Listed m k c := by
  simp only [categoryWrites, List.mem_flatMap, List.mem_map, Prod.mk.injEq, Listed,
    mem_normalized]
  constructor
  · rintro ⟨⟨c', ds⟩, hmem, d, hd, hk, rfl⟩
    exact ⟨ds, (mem_enumeration h).1 hmem, d, hd, hk⟩
  · rintro ⟨ds, hlookup, d, hd, hk⟩
    exact ⟨⟨c, ds⟩, (mem_enumeration h).2 hlookup, d, hd, hk, rfl⟩

variable {m : CatDomains} {order : List (Σ _ : ℤ, List GoString)}

/-- A loaded category is one that the domain is listed under. -/
theorem listed_of_lookup (h : Enumerates order m) {k : GoString} {c : ℤ}
    (hk : (writeCategories (categoryWrites order)).lookup k = some c) : Listed m k c :=
  (mem_categoryWrites_iff h).1 ((lookup_writeCategories _ k).1 c hk)

/-- Exactly the domains that are not listed have no category. -/
theorem lookup_eq_none_iff (h : Enumerates order m) {k : GoString} :
    (writeCategories (categoryWrites order)).lookup k = none ↔ ∀ c, ¬ Listed m k c := by
  constructor
  · intro hnone c hc
    exact (lookup_writeCategories _ k).2 hnone c ((mem_categoryWrites_iff h).2 hc)
  · intro hnone
    exact Option.eq_none_iff_forall_ne_some.2 fun c hc => hnone c (listed_of_lookup h hc)

/-- In some order a listed domain gets any of its categories. -/
theorem exists_lookup_eq_some {k : GoString} {c : ℤ} (h : Listed m k c) :
    ∃ order, Enumerates order m ∧ (writeCategories (categoryWrites order)).lookup k = some c := by
  obtain ⟨ds, hlookup, hk⟩ := h
  obtain ⟨order, horder⟩ := exists_enumerates_concat hlookup
  refine ⟨_, horder, ?_⟩
  rw [categoryWrites, List.flatMap_append, List.flatMap_singleton]
  refine lookup_writeCategories_append ?_ fun w hw => ?_
  · obtain ⟨d, hd, rfl⟩ := mem_normalized.1 hk
    exact List.mem_map_of_mem hd
  · obtain ⟨_, -, rfl⟩ := List.mem_map.1 hw
    rfl

/-- The first of the names of a domain that the map lists. -/
def FirstListed (m : CatDomains) (domain k : GoString) : Prop :=
  ∃ ks ks', categoryKeys domain = ks ++ k :: ks' ∧ (∀ k' ∈ ks, ∀ c, ¬ Listed m k' c) ∧
    ∃ c, Listed m k c

theorem FirstListed.listed {domain k : GoString} (h : FirstListed m domain k) :
    ∃ c, Listed m k c := by
  obtain ⟨-, -, -, -, hc⟩ := h
  exact hc

theorem firstListed_normalize {domain : GoString} {c : ℤ} (h : Listed m (normalize domain) c) :
    FirstListed m domain (normalize domain) :=
  ⟨[], _, rfl, by simp, c, h⟩

/-- The category of a domain is that of the first of its names that is listed. -/
theorem findSome?_eq_some_iff (h : Enumerates order m) {domain : GoString} {c : ℤ} :
    (categoryKeys domain).findSome? (writeCategories (categoryWrites order)).lookup = some c ↔
      ∃ k, FirstListed m domain k ∧
        (writeCategories (categoryWrites order)).lookup k = some c := by
  rw [List.findSome?_eq_some_iff]
  constructor
  · rintro ⟨ks, k, ks', hkeys, hk, hbefore⟩
    exact ⟨k, ⟨ks, ks', hkeys, fun k' hk' => (lookup_eq_none_iff h).1 (hbefore k' hk'), c,
      listed_of_lookup h hk⟩, hk⟩
  · rintro ⟨k, ⟨ks, ks', hkeys, hbefore, -⟩, hk⟩
    exact ⟨ks, k, ks', hkeys, hk, fun k' hk' => (lookup_eq_none_iff h).2 (hbefore k' hk')⟩

/-- A domain has one first name. -/
theorem FirstListed.unique {domain k k' : GoString} (h : FirstListed m domain k)
    (h' : FirstListed m domain k') : k = k' := by
  obtain ⟨ks, rest, hkeys, hbefore, c, hc⟩ := h
  obtain ⟨ks', rest', hkeys', hbefore', c', hc'⟩ := h'
  rw [hkeys, List.append_eq_append_iff] at hkeys'
  rcases hkeys' with ⟨mid, rfl, hmid⟩ | ⟨mid, rfl, hmid⟩
  · cases mid with
    | nil => exact (List.cons.inj hmid).1
    | cons x mid =>
      obtain ⟨rfl, -⟩ := List.cons.inj hmid
      exact absurd hc (hbefore' k (by simp) c)
  · cases mid with
    | nil => exact (List.cons.inj hmid).1.symm
    | cons x mid =>
      obtain ⟨rfl, -⟩ := List.cons.inj hmid
      exact absurd hc' (hbefore k' (by simp) c')

/-! ### Decisions of a loaded engine -/

variable {e : Engine} {domain : GoString} {groupID : ℤ}

/-- A name that no list has is decided by its category. -/
theorem evaluateForGroup_of_unlisted (hw : ¬ e.whitelist.contains domain)
    (hb : ¬ e.blacklist.contains domain) (groupID : ℤ) :
    e.evaluateForGroup domain groupID =
      match e.policyCheck domain groupID with
      | some catID => { action := .block, reason := "category", categoryID := catID }
      | none => { action := .allow } := by
  unfold evaluateForGroup
  cases e.policyCheck domain groupID with
  | none => rw [if_neg hw, if_neg hb]
  | some catID => rw [if_neg hw, if_neg hb]

theorem policyCheck_of_not_pos (hg : ¬ 0 < groupID) : e.policyCheck domain groupID = none := by
  rw [policyCheck, if_neg hg]

/-- The policy step of a loaded engine, at a name whose first listed name has the category `c`. -/
theorem policyCheck_loaded (h : Enumerates order m) (hg : 0 < groupID) {k : GoString}
    (hfirst : FirstListed m domain k) {c : ℤ}
    (hk : (writeCategories (categoryWrites order)).lookup k = some c) :
    (e.loadCategories order).policyCheck domain groupID =
      if c ∈ e.blockedCategories groupID then some c else none := by
  have hfind := (findSome?_eq_some_iff h).2 ⟨k, hfirst, hk⟩
  split_ifs with hc
  · exact policyCheck_eq_some_iff.2 ⟨hg, hfind, hc⟩
  · refine Option.eq_none_iff_forall_ne_some.2 fun c' hc' => hc ?_
    obtain ⟨-, hfind', hblocked⟩ := policyCheck_eq_some_iff.1 hc'
    obtain rfl := Option.some.inj (hfind.symm.trans hfind')
    exact hblocked

/-- A loaded engine blocks by a category exactly when the group blocks the one of the first
listed name. -/
theorem policyCheck_loaded_eq_some_iff (h : Enumerates order m) {c : ℤ} :
    (e.loadCategories order).policyCheck domain groupID = some c ↔
      0 < groupID ∧ c ∈ e.blockedCategories groupID ∧ ∃ k, FirstListed m domain k ∧
        (writeCategories (categoryWrites order)).lookup k = some c := by
  rw [policyCheck_eq_some_iff, ← findSome?_eq_some_iff h]
  exact and_congr_right fun _ => and_comm

end Categories
end DnsFilter
