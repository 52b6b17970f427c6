import DnsFilter.Reload.Convergence

/-!
# Whitelists under a full load

What the engine allows after the three load queries, in terms of the database rows.

* `listed_loadCategoryDomains`: the category map lists the entries of the active lists that
  have a category, whatever their type;
* `policyCheck_startup`: when some load of the database blocks a name by its category;
* `whitelisted_allowed_iff`: a name of an active whitelist is allowed by every load exactly
  when a whitelist without a category has it too, or when nothing else blocks it.
-/

namespace DnsFilter

open Blacklist

/-- No list files. -/
def noFiles : ListFiles := ⟨.missing, .missing⟩

/-! ### Rows -/

namespace Database

/-- An entry of an active list. -/
structure ActiveEntry (db : Database) (be : EntryRow) (bl : BlocklistRow) : Prop where
  entry : be ∈ db.entries
  list : bl ∈ db.blocklists
  joined : bl.id = be.listID
  active : bl.active = true

/-- The list has a category. -/
def Categorised (db : Database) (bl : BlocklistRow) : Prop :=
  ∃ bc ∈ db.blocklistCategories, bc.1 = bl.id

theorem mem_activeEntryRows {db : Database} {d : GoString} {t : ℤ} :
    (d, t) ∈ db.activeEntryRows ↔
      ∃ be bl, db.ActiveEntry be bl ∧ ¬ db.Categorised bl ∧ be.domain = d ∧ bl.listType = t := by
  simp only [activeEntryRows, List.mem_flatMap, List.mem_map, List.mem_filter, Prod.mk.injEq,
    decide_eq_true_eq]
  constructor
  · rintro ⟨be, hbe, bl, ⟨hbl, hjoin, hact, hcat⟩, hd, ht⟩
    exact ⟨be, bl, ⟨hbe, hbl, hjoin, hact⟩, hcat, hd, ht⟩
  · rintro ⟨be, bl, ⟨hbe, hbl, hjoin, hact⟩, hcat, hd, ht⟩
    exact ⟨be, hbe, bl, ⟨hbl, hjoin, hact, hcat⟩, hd, ht⟩

theorem mem_categoryRows {db : Database} {c : ℤ} {d : GoString} :
    (c, d) ∈ db.categoryRows ↔
      ∃ be bl, db.ActiveEntry be bl ∧ (bl.id, c) ∈ db.blocklistCategories ∧ be.domain = d := by
  simp only [categoryRows, List.mem_flatMap, List.mem_map, List.mem_filter, Prod.mk.injEq,
    decide_eq_true_eq, List.any_eq_true]
  constructor
  · rintro ⟨⟨l, c'⟩, hbc, be, ⟨hbe, hlist, bl, hbl, hid, hact⟩, rfl, hd⟩
    dsimp only at hlist hid
    subst hid
    exact ⟨be, bl, ⟨hbe, hbl, hlist.symm, hact⟩, hbc, hd⟩
  · rintro ⟨be, bl, ⟨hbe, hbl, hjoin, hact⟩, hbc, hd⟩
    exact ⟨(bl.id, c), hbc, be, ⟨hbe, hjoin.symm, bl, hbl, rfl, hact⟩, rfl, hd⟩

/-- The categories a group blocks are those of its policy rows. -/
theorem mem_lookup_loadGroupPolicies {db : Database} {g c : ℤ} :
    c ∈ (db.loadGroupPolicies.lookup g).getD ∅ ↔ (g, c) ∈ db.policies :=
  mem_lookup_foldl_insert

end Database

section Loads

variable [Unicode]

/-! ### Categories -/

/-- The name is `d` or stands under `d`, an entry of an active list of type `t` without a
category. -/
def GloballyListed (db : Database) (t : ℤ) (domain : GoString) : Prop :=
  ∃ be bl, db.ActiveEntry be bl ∧ ¬ db.Categorised bl ∧ bl.listType = t ∧ Covers be.domain domain

/-- The name is on an active whitelist. -/
def OnWhitelist (db : Database) (domain : GoString) : Prop :=
  ∃ be bl, db.ActiveEntry be bl ∧ bl.listType = 1 ∧ Covers be.domain domain

/-- A list of category `c` has the normalised domain `d`. -/
def InCategory (db : Database) (c : ℤ) (d : GoString) : Prop :=
  ∃ be bl, db.ActiveEntry be bl ∧ (bl.id, c) ∈ db.blocklistCategories ∧ normalize be.domain = d

/-- The first of the names that has a category has one that the group blocks. -/
def CategoryBlocked (db : Database) (groupID : ℤ) (domain : GoString) : Prop :=
  0 < groupID ∧ ∃ ks k ks', categoryKeys domain = ks ++ k :: ks' ∧
    (∀ k' ∈ ks, ∀ c, ¬ InCategory db c k') ∧
      ∃ c, InCategory db c k ∧ (groupID, c) ∈ db.policies

/-- The loaded map lists the rows of the lists with a category. -/
theorem listed_loadCategoryDomains {db : Database} {d : GoString} {c : ℤ} :
    Listed db.loadCategoryDomains d c ↔ InCategory db c d := by
  simp only [Listed, Database.lookup_loadCategoryDomains, InCategory, mem_normalized]
  constructor
  · rintro ⟨ds, hlookup, d', hd', hd⟩
    split_ifs at hlookup
    cases hlookup
    obtain ⟨⟨c', d''⟩, hr, hsome⟩ := List.mem_filterMap.1 hd'
    split_ifs at hsome with hc
    cases hsome
    obtain rfl : c' = c := hc
    obtain ⟨be, bl, hact, hcat, rfl⟩ := Database.mem_categoryRows.1 hr
    exact ⟨be, bl, hact, hcat, hd⟩
  · rintro ⟨be, bl, hact, hcat, hd⟩
    have hmem : be.domain ∈ db.categoryRows.filterMap fun r => if r.1 = c then some r.2 else none :=
      List.mem_filterMap.2 ⟨_, Database.mem_categoryRows.2 ⟨be, bl, hact, hcat, rfl⟩, by simp⟩
    exact ⟨_, if_neg (List.ne_nil_of_mem hmem), be.domain, hmem, hd⟩

/-- **Some load blocks a name by its category exactly when the group blocks a category of the
first of its names that has one.** -/
theorem policyCheck_startup (db : Database) (domain : GoString) (groupID : ℤ) :
    (∃ s : ProcessStart, s.db = db ∧ (s.engine noFiles).policyCheck domain groupID ≠ none) ↔
      CategoryBlocked db groupID domain := by
  constructor
  · rintro ⟨s, rfl, hblock⟩
    obtain ⟨c, hc⟩ := Option.ne_none_iff_exists'.1 hblock
    obtain ⟨hg, hfind, hpolicy⟩ := policyCheck_eq_some_iff.1 hc
    obtain ⟨k, ⟨ks, ks', hkeys, hbefore, -⟩, hk⟩ := (findSome?_eq_some_iff s.enumerates).1 hfind
    exact ⟨hg, ks, k, ks', hkeys,
      fun k' hk' c' hc' => hbefore k' hk' c' (listed_loadCategoryDomains.2 hc'), c,
      listed_loadCategoryDomains.1 (listed_of_lookup s.enumerates hk),
      Database.mem_lookup_loadGroupPolicies.1 hpolicy⟩
  · rintro ⟨hg, ks, k, ks', hkeys, hbefore, c, hk, hpolicy⟩
    have hlisted := listed_loadCategoryDomains.2 hk
    obtain ⟨order, horder, hlookup⟩ := exists_lookup_eq_some hlisted
    have hfirst : FirstListed db.loadCategoryDomains domain k :=
      ⟨ks, ks', hkeys, fun k' hk' c' hc' => hbefore k' hk' c' (listed_loadCategoryDomains.1 hc'), c,
        hlisted⟩
    refine ⟨⟨db, order, horder⟩, rfl, Option.ne_none_iff_exists'.2 ⟨c, ?_⟩⟩
    exact policyCheck_eq_some_iff.2 ⟨hg, (findSome?_eq_some_iff horder).2 ⟨k, hfirst, hlookup⟩,
      Database.mem_lookup_loadGroupPolicies.2 hpolicy⟩

/-! ### Whitelists -/

theorem contains_startup (s : ProcessStart) (domain : GoString) :
    ((s.engine noFiles).blacklist.contains domain ↔ GloballyListed s.db 0 domain) ∧
      ((s.engine noFiles).whitelist.contains domain ↔ GloballyListed s.db 1 domain) := by
  have hlist : ∀ {ds : List GoString} {t : ℤ},
      (∀ d, d ∈ ds ↔ (d, t) ∈ s.db.activeEntryRows) →
        ((new.addAll ds).contains domain ↔ GloballyListed s.db t domain) := by
    intro ds t hds
    simp only [contains_addAll, contains_new, Bool.false_eq_true, or_false, hds,
      Database.mem_activeEntryRows, GloballyListed]
    constructor
    · rintro ⟨_, ⟨be, bl, hact, hcat, rfl, ht⟩, hcov⟩
      exact ⟨be, bl, hact, hcat, ht, hcov⟩
    · rintro ⟨be, bl, hact, hcat, ht, hcov⟩
      exact ⟨_, ⟨be, bl, hact, hcat, rfl, ht⟩, hcov⟩
  exact ⟨hlist fun _ => Database.mem_loadActive_black, hlist fun _ => Database.mem_loadActive_white⟩

/-- A load allows a name exactly when a whitelist without a category has it, or no such blacklist
does and the policy step finds nothing. -/
theorem action_startup (s : ProcessStart) (domain : GoString) (groupID : ℤ) :
    ((s.engine noFiles).evaluateForGroup domain groupID).action = .allow ↔
      GloballyListed s.db 1 domain ∨ ¬ GloballyListed s.db 0 domain ∧
        (s.engine noFiles).policyCheck domain groupID = none := by
  rw [Engine.evaluateForGroup_action, (contains_startup s domain).2, ← Bool.not_eq_true,
    (contains_startup s domain).1]

/-- A name of an active whitelist is allowed by every load of the database. -/
def WhitelistHolds (db : Database) (groupID : ℤ) (domain : GoString) : Prop :=
  ∀ s : ProcessStart, s.db = db → OnWhitelist db domain →
    ((s.engine noFiles).evaluateForGroup domain groupID).action = .allow

/-- **A whitelist holds for a name exactly when the name is on none, or on one that has no
category, or when neither a blacklist without a category nor the category policy of the group
blocks it.** -/
theorem whitelisted_allowed_iff (db : Database) (groupID : ℤ) (domain : GoString) :
    WhitelistHolds db groupID domain ↔
      ¬ OnWhitelist db domain ∨ GloballyListed db 1 domain ∨
        ¬ GloballyListed db 0 domain ∧ ¬ CategoryBlocked db groupID domain := by
  have hallow : ∀ s : ProcessStart, s.db = db →
      (((s.engine noFiles).evaluateForGroup domain groupID).action = .allow ↔
        GloballyListed db 1 domain ∨ ¬ GloballyListed db 0 domain ∧
          (s.engine noFiles).policyCheck domain groupID = none) := by
    rintro s rfl
    exact action_startup s domain groupID
  constructor
  · intro h
    by_cases hw : OnWhitelist db domain
    · refine .inr (or_iff_not_imp_left.2 fun hplain => ?_)
      have hrest : ∀ s : ProcessStart, s.db = db → ¬ GloballyListed db 0 domain ∧
          (s.engine noFiles).policyCheck domain groupID = none :=
        fun s hs => ((hallow s hs).1 (h s hs hw)).resolve_left hplain
      obtain ⟨order, horder⟩ := exists_enumerates db.loadCategoryDomains
      refine ⟨(hrest ⟨db, order, horder⟩ rfl).1, fun hblock => ?_⟩
      obtain ⟨s, hs, hne⟩ := (policyCheck_startup db domain groupID).2 hblock
      exact hne (hrest s hs).2
    · exact .inl hw
  · intro h s hs hw
    refine (hallow s hs).2 ((h.resolve_left (not_not.2 hw)).imp_right fun hrest => ⟨hrest.1, ?_⟩)
    by_contra hne
    exact hrest.2 ((policyCheck_startup db domain groupID).1 ⟨s, hs, hne⟩)

/-- Without categories on its active whitelists, a database never blocks a whitelisted name. -/
theorem whitelistHolds_of_uncategorised {db : Database}
    (h : ∀ be bl, db.ActiveEntry be bl → bl.listType = 1 → ¬ db.Categorised bl) (groupID : ℤ)
    (domain : GoString) : WhitelistHolds db groupID domain := by
  rintro s rfl ⟨be, bl, hact, ht, hcov⟩
  exact (action_startup s domain groupID).2 (.inl ⟨be, bl, hact, h be bl hact ht, ht, hcov⟩)

end Loads

/-- An active whitelist in category 1, which group 1 blocks. -/
def schoolDatabase : Database :=
  { groups := [1], categories := [1], policies := [(1, 1)],
    blocklists := [⟨1, [], [], 1, true, 1⟩], entries := [⟨1, "school.org".toList⟩],
    blocklistCategories := [(1, 1)], ipRanges := [], nextListID := 2 }

/-- The category load takes the entries of the whitelist for domains to block. -/
theorem whitelist_blocks_school :
    ¬ @WhitelistHolds asciiTable schoolDatabase 1 "www.school.org".toList := by
  intro h
  have hcov : @Covers asciiTable "school.org".toList "www.school.org".toList := by
    decide +kernel
  have hallow := h ⟨schoolDatabase, [⟨1, ["school.org".toList]⟩], by decide⟩ rfl
    ⟨_, _, ⟨List.mem_singleton_self _, List.mem_singleton_self _, rfl, rfl⟩, rfl, hcov⟩
  revert hallow
  decide +kernel

end DnsFilter
