import DnsFilter.Filter.Categories

/-!
# Changes of the policy engine

Pairs of engines that differ in one of their tables.

* `category_order_iff`: when the order in which the category map is ranged over does not
  matter;
* `never_unblocks_iff`: when a larger category map still blocks what a smaller one blocks;
* `engine_monotone`: the whitelist comes first, and larger lists and policies only block more.
-/

namespace DnsFilter

open Blacklist Engine

section Changes

variable [Unicode] {e : Engine} {m : CatDomains} {domain : GoString} {groupID : ℤ}

/-! ### The order of the map -/

/-- The result does not depend on the order in which the map is ranged over. -/
def OrderIndependent (e : Engine) (m : CatDomains) (domain : GoString) (groupID : ℤ) : Prop :=
  ∀ order order', Enumerates order m → Enumerates order' m →
    (e.loadCategories order).evaluateForGroup domain groupID =
      (e.loadCategories order').evaluateForGroup domain groupID

/-- A name that is not whitelisted and itself listed under a category that its group blocks is
blocked. -/
def ListedBlocks (e : Engine) (m : CatDomains) (domain : GoString) (groupID : ℤ) : Prop :=
  0 < groupID → ¬ e.whitelist.contains domain →
    (∃ c, Listed m (normalize domain) c ∧ c ∈ e.blockedCategories groupID) →
      ∀ order, Enumerates order m →
        ((e.loadCategories order).evaluateForGroup domain groupID).action = .block

/-- The group or the lists decide before any category is looked at. -/
def Engine.Decided (e : Engine) (domain : GoString) (groupID : ℤ) : Prop :=
  ¬ 0 < groupID ∨ e.whitelist.contains domain ∨ e.blacklist.contains domain

theorem evaluateForGroup_of_decided (h : e.Decided domain groupID)
    (order order' : List (Σ _ : ℤ, List GoString)) :
    (e.loadCategories order).evaluateForGroup domain groupID =
      (e.loadCategories order').evaluateForGroup domain groupID := by
  rcases h with hg | hw | hb
  · rw [evaluateForGroup, evaluateForGroup, policyCheck_of_not_pos hg, policyCheck_of_not_pos hg]
    rfl
  · have hw' : ∀ order, (e.loadCategories order).whitelist.contains domain := fun _ => hw
    rw [evaluateForGroup, evaluateForGroup, if_pos (hw' _), if_pos (hw' _)]
  · have hb' : ∀ order, (e.loadCategories order).blacklist.contains domain := fun _ => hb
    rw [evaluateForGroup, evaluateForGroup, if_pos (hb' _), if_pos (hb' _)]
    rfl

/-- The policy step does not depend on the order if the first listed name has no blocked
category or one category only. -/
theorem policyCheck_congr (h : ∀ k, FirstListed m domain k →
      (∀ c, Listed m k c → c ∉ e.blockedCategories groupID) ∨
        ∀ c c', Listed m k c → Listed m k c' → c = c')
    {order order' : List (Σ _ : ℤ, List GoString)} (horder : Enumerates order m)
    (horder' : Enumerates order' m) :
    (e.loadCategories order).policyCheck domain groupID =
      (e.loadCategories order').policyCheck domain groupID := by
  ext c
  rw [policyCheck_loaded_eq_some_iff horder, policyCheck_loaded_eq_some_iff horder']
  have hswap : ∀ {order order' : List (Σ _ : ℤ, List GoString)}, Enumerates order m →
      Enumerates order' m → ∀ k, FirstListed m domain k → c ∈ e.blockedCategories groupID →
        (writeCategories (categoryWrites order)).lookup k = some c →
          (writeCategories (categoryWrites order')).lookup k = some c := by
    intro order order' horder horder' k hfirst hblocked hk
    have hc := listed_of_lookup horder hk
    have hone := (h k hfirst).resolve_left fun hall => hall c hc hblocked
    cases hk' : (writeCategories (categoryWrites order')).lookup k with
    | none => exact absurd hc ((lookup_eq_none_iff horder').1 hk' c)
    | some c' => rw [hone c c' hc (listed_of_lookup horder' hk')]
  refine and_congr_right fun _ => and_congr_right fun hblocked => ?_
  exact exists_congr fun k => and_congr_right fun hfirst =>
    ⟨hswap horder horder' k hfirst hblocked, hswap horder' horder k hfirst hblocked⟩

/-- **The order of the map does not matter, and a domain listed under a blocked category is
blocked, exactly when the group or the lists decide, or when the first listed name of the
domain has no category that the group blocks, or no other category than one.** -/
theorem category_order_iff (e : Engine) (m : CatDomains) (domain : GoString) (groupID : ℤ) :
    OrderIndependent e m domain groupID ∧ ListedBlocks e m domain groupID ↔
      e.Decided domain groupID ∨ ∀ k, FirstListed m domain k →
        (∀ c, Listed m k c → c ∉ e.blockedCategories groupID) ∨
          ∀ c c', Listed m k c → Listed m k c' → c = c' := by
  by_cases hdec : e.Decided domain groupID
  · refine iff_of_true ⟨fun order order' _ _ => evaluateForGroup_of_decided hdec order order', ?_⟩
      (.inl hdec)
    rintro hg hw - order -
    have hb := (hdec.resolve_left (not_not.2 hg)).resolve_left hw
    have hw' : ¬ (e.loadCategories order).whitelist.contains domain := hw
    have hb' : (e.loadCategories order).blacklist.contains domain := hb
    rw [evaluateForGroup, if_neg hw', if_pos hb']
  · rw [or_iff_right hdec]
    obtain ⟨hg, hw, hb⟩ : 0 < groupID ∧ ¬ e.whitelist.contains domain ∧
        ¬ e.blacklist.contains domain := by
      simpa only [Engine.Decided, not_or, not_not] using hdec
    have heval := fun order : List (Σ _ : ℤ, List GoString) =>
      evaluateForGroup_of_unlisted (e := e.loadCategories order) hw hb groupID
    constructor
    · rintro ⟨hind, -⟩ k hfirst
      by_contra hno
      push Not at hno
      obtain ⟨⟨c, hc, hblocked⟩, c₁, c₂, hc₁, hc₂, hne⟩ := hno
      -- the name has a blocked category and another one, and each comes last in some order
      have hall : ∀ c', Listed m k c' → c' = c := by
        intro c' hc'
        obtain ⟨order, horder, hk⟩ := exists_lookup_eq_some hc
        obtain ⟨order', horder', hk'⟩ := exists_lookup_eq_some hc'
        have heq := hind order order' horder horder'
        rw [heval, heval, policyCheck_loaded horder hg hfirst hk, if_pos hblocked,
          policyCheck_loaded horder' hg hfirst hk'] at heq
        split_ifs at heq
        · exact (congrArg Result.categoryID heq).symm
        · cases congrArg Result.action heq
      exact hne ((hall c₁ hc₁).trans (hall c₂ hc₂).symm)
    · intro h
      refine ⟨fun order order' horder horder' => ?_, ?_⟩
      · rw [heval, heval, policyCheck_congr h horder horder']
      · rintro - - ⟨c, hc, hblocked⟩ order horder
        obtain ⟨order', horder', hk⟩ := exists_lookup_eq_some hc
        rw [heval, policyCheck_congr h horder horder',
          policyCheck_loaded horder' hg (firstListed_normalize hc) hk, if_pos hblocked]

/-! ### Larger maps -/

/-- A category that some load of the map gives to the domain is blocked. -/
def SomeLoadBlocks (e : Engine) (m : CatDomains) (domain : GoString) (groupID : ℤ) : Prop :=
  ∃ k c, FirstListed m domain k ∧ Listed m k c ∧ c ∈ e.blockedCategories groupID

/-- What is blocked after loading `m` is blocked after loading `m'`. -/
def NeverUnblocks (e : Engine) (m m' : CatDomains) (domain : GoString) (groupID : ℤ) : Prop :=
  ∀ order order', Enumerates order m → Enumerates order' m' →
    ((e.loadCategories order).evaluateForGroup domain groupID).action = .block →
      ((e.loadCategories order').evaluateForGroup domain groupID).action = .block

/-- `m'` contains `m`, and lists no domain under two categories. -/
structure Extends (m m' : CatDomains) : Prop where
  sub : ∀ k c, Listed m k c → Listed m' k c
  single : ∀ k c c', Listed m' k c → Listed m' k c' → c = c'

/-- Without a word from the lists, the decision is that of the policy step. -/
theorem action_eq_block_iff (h : ¬ e.Decided domain groupID)
    (order : List (Σ _ : ℤ, List GoString)) :
    ((e.loadCategories order).evaluateForGroup domain groupID).action = .block ↔
      (e.loadCategories order).policyCheck domain groupID ≠ none := by
  obtain ⟨-, hw, hb⟩ : 0 < groupID ∧ ¬ e.whitelist.contains domain ∧
      ¬ e.blacklist.contains domain := by
    simpa only [Engine.Decided, not_or, not_not] using h
  rw [evaluateForGroup_of_unlisted (e := e.loadCategories order) hw hb]
  cases (e.loadCategories order).policyCheck domain groupID <;> simp

theorem neverUnblocks_of_decided (h : e.Decided domain groupID) (m m' : CatDomains) :
    NeverUnblocks e m m' domain groupID := by
  intro order order' _ _ hblock
  rw [← evaluateForGroup_of_decided h order order']
  exact hblock

/-- When neither the group nor the lists decide, the first name that the map lists does. -/
theorem neverUnblocks_iff_of_not_decided (hdec : ¬ e.Decided domain groupID) (m m' : CatDomains) :
    NeverUnblocks e m m' domain groupID ↔
      ¬ SomeLoadBlocks e m domain groupID ∨
        ∃ k, FirstListed m' domain k ∧ ∀ c, Listed m' k c → c ∈ e.blockedCategories groupID := by
  have hg : 0 < groupID := by
    by_contra hg
    exact hdec (.inl hg)
  have hblock := action_eq_block_iff hdec
  constructor
  · intro h
    refine or_iff_not_imp_left.2 fun hcat => ?_
    obtain ⟨k, c, hfirst, hc, hblocked⟩ := not_not.1 hcat
    obtain ⟨order, horder, hk⟩ := exists_lookup_eq_some hc
    have hpolicy : (e.loadCategories order).policyCheck domain groupID ≠ none := by
      rw [policyCheck_loaded horder hg hfirst hk, if_pos hblocked]
      simp
    have hall : ∀ order', Enumerates order' m' →
        (e.loadCategories order').policyCheck domain groupID ≠ none := fun order' horder' =>
      (hblock order').1 (h order order' horder horder' ((hblock order).2 hpolicy))
    obtain ⟨order₀, horder₀⟩ := exists_enumerates m'
    obtain ⟨c₀, hc₀⟩ := Option.ne_none_iff_exists'.1 (hall order₀ horder₀)
    obtain ⟨-, -, k', hfirst', -⟩ := (policyCheck_loaded_eq_some_iff horder₀).1 hc₀
    refine ⟨k', hfirst', fun c' hc' => ?_⟩
    -- the load in which `c'` comes last blocks too
    obtain ⟨order', horder', hk'⟩ := exists_lookup_eq_some hc'
    have hne := hall order' horder'
    rw [policyCheck_loaded horder' hg hfirst' hk'] at hne
    split_ifs at hne with hmem
    · exact hmem
    · exact absurd rfl hne
  · intro h order order' horder horder' hbefore
    obtain ⟨c, hc⟩ := Option.ne_none_iff_exists'.1 ((hblock order).1 hbefore)
    obtain ⟨-, hblocked, k, hfirst, hk⟩ := (policyCheck_loaded_eq_some_iff horder).1 hc
    obtain ⟨k', hfirst', hall⟩ := h.resolve_left
      (not_not.2 ⟨k, c, hfirst, listed_of_lookup horder hk, hblocked⟩)
    obtain ⟨c', hc'⟩ := hfirst'.listed
    cases hk' : (writeCategories (categoryWrites order')).lookup k' with
    | none => exact absurd hc' ((lookup_eq_none_iff horder').1 hk' c')
    | some c'' =>
      rw [hblock, policyCheck_loaded horder' hg hfirst' hk',
        if_pos (hall c'' (listed_of_lookup horder' hk'))]
      simp

/-- **A map still blocks what another one blocks exactly when the group or the lists decide,
when the other one does not block by a category, or when the first name of the domain that the
map lists has blocked categories only.** -/
theorem never_unblocks_iff (e : Engine) (m m' : CatDomains) (domain : GoString) (groupID : ℤ) :
    NeverUnblocks e m m' domain groupID ↔
      e.Decided domain groupID ∨ ¬ SomeLoadBlocks e m domain groupID ∨
        ∃ k, FirstListed m' domain k ∧ ∀ c, Listed m' k c → c ∈ e.blockedCategories groupID := by
  by_cases hdec : e.Decided domain groupID
  · exact iff_of_true (neverUnblocks_of_decided hdec m m') (.inl hdec)
  · rw [neverUnblocks_iff_of_not_decided hdec, or_iff_right hdec]

/-- In a map that extends the other one, only a domain that it adds nearer to the name, in a
category that the group allows, can unblock it. -/
theorem Extends.neverUnblocks_iff_of_added {m' : CatDomains} (h : Extends m m') (e : Engine)
    (domain : GoString) (groupID : ℤ) :
    NeverUnblocks e m m' domain groupID ↔
      e.Decided domain groupID ∨ ¬ SomeLoadBlocks e m domain groupID ∨
        ∀ k c, FirstListed m' domain k → Listed m' k c → (∀ c, ¬ Listed m k c) →
          c ∈ e.blockedCategories groupID := by
  by_cases hdec : e.Decided domain groupID
  · exact iff_of_true (neverUnblocks_of_decided hdec m m') (.inl hdec)
  rw [neverUnblocks_iff_of_not_decided hdec, or_iff_right hdec]
  refine or_congr_right' fun hcat => ?_
  obtain ⟨k₀, c₀, hfirst₀, hc₀, hblocked₀⟩ := not_not.1 hcat
  constructor
  · rintro ⟨k, hfirst, hall⟩ k' c hfirst' hc -
    obtain rfl := hfirst.unique hfirst'
    exact hall c hc
  · intro hadd
    obtain ⟨k, hfirst⟩ : ∃ k, FirstListed m' domain k := by
      obtain ⟨order, horder⟩ := exists_enumerates m'
      obtain ⟨ks, ks', hkeys, -⟩ := hfirst₀
      have hne : (categoryKeys domain).findSome?
          (writeCategories (categoryWrites order)).lookup ≠ none := by
        rw [Ne, List.findSome?_eq_none_iff, not_forall]
        refine ⟨k₀, fun hnone => ?_⟩
        exact (lookup_eq_none_iff horder).1 (hnone (by simp [hkeys])) c₀ (h.sub k₀ c₀ hc₀)
      obtain ⟨c, hc⟩ := Option.ne_none_iff_exists'.1 hne
      obtain ⟨k, hfirst, -⟩ := (findSome?_eq_some_iff horder).1 hc
      exact ⟨k, hfirst⟩
    refine ⟨k, hfirst, fun c hc => ?_⟩
    by_cases hold : ∃ c', Listed m k c'
    · -- the first name is the one that `m` blocks
      obtain ⟨c', hc'⟩ := hold
      obtain ⟨ks, ks', hkeys, hbefore, -⟩ := hfirst
      have hsame : FirstListed m domain k :=
        ⟨ks, ks', hkeys, fun k' hk' c hc => hbefore k' hk' c (h.sub k' c hc), c', hc'⟩
      obtain rfl := hfirst₀.unique hsame
      rw [h.single _ c c₀ hc (h.sub _ c₀ hc₀)]
      exact hblocked₀
    · exact hadd k c hfirst hc (not_exists.1 hold)

/-! ### Larger lists and policies -/

theorem Blacklist.contains_mono {b b' : Blacklist} (h : b.domains ⊆ b'.domains)
    (hb : b.contains domain) : b'.contains domain := by
  obtain ⟨p, hp, hmem⟩ := contains_iff.1 hb
  exact contains_iff.2 ⟨p, hp, h hmem⟩

/-- A name is blocked exactly when the whitelist does not have it and the blacklist or the
policy step blocks it. -/
theorem action_eq_block (e : Engine) (domain : GoString) (groupID : ℤ) :
    (e.evaluateForGroup domain groupID).action = .block ↔
      ¬ e.whitelist.contains domain ∧
        (e.blacklist.contains domain ∨ e.policyCheck domain groupID ≠ none) := by
  have hne : (e.evaluateForGroup domain groupID).action = .block ↔
      ¬ (e.evaluateForGroup domain groupID).action = .allow := by
    cases (e.evaluateForGroup domain groupID).action <;> simp
  rw [hne, evaluateForGroup_action]
  simp only [not_or, not_and, Bool.not_eq_false, imp_iff_not_or, Bool.not_eq_true]

/-- **The whitelist comes first, and the engine is monotone.**  A whitelisted name is allowed;
a larger whitelist blocks nothing new; a larger blacklist, or more blocked categories for the
group, allow nothing new; and the policy of one group is no concern of another, nor of group
`0`. -/
theorem engine_monotone (e : Engine) (domain : GoString) (groupID : ℤ) :
    (e.whitelist.contains domain → (e.evaluateForGroup domain groupID).action = .allow) ∧
    (∀ w : Blacklist, e.whitelist.domains ⊆ w.domains →
      (e.evaluateForGroup domain groupID).action = .allow →
        ({ e with whitelist := w }.evaluateForGroup domain groupID).action = .allow) ∧
    (∀ b : Blacklist, e.blacklist.domains ⊆ b.domains →
      (e.evaluateForGroup domain groupID).action = .block →
        ({ e with blacklist := b }.evaluateForGroup domain groupID).action = .block) ∧
    (∀ policies : Policies,
      e.blockedCategories groupID ⊆ (e.loadPolicies policies).blockedCategories groupID →
        (e.evaluateForGroup domain groupID).action = .block →
          ((e.loadPolicies policies).evaluateForGroup domain groupID).action = .block) ∧
    ∀ (policies : Policies) (g : ℤ),
      (∀ g', g' ≠ g → policies.lookup g' = e.groupPolicies.lookup g') →
        groupID ≠ g ∨ groupID = 0 →
          (e.loadPolicies policies).evaluateForGroup domain groupID =
            e.evaluateForGroup domain groupID := by
  refine ⟨fun hw => (evaluateForGroup_action ..).2 (.inl hw), fun w hw hallow => ?_,
    fun b hb hblock => ?_, fun policies hsub hblock => ?_, fun policies g hsame hg => ?_⟩
  · rw [evaluateForGroup_action] at hallow ⊢
    exact hallow.imp (contains_mono hw) id
  · rw [action_eq_block] at hblock ⊢
    exact ⟨hblock.1, hblock.2.imp (contains_mono hb) id⟩
  · rw [action_eq_block] at hblock ⊢
    refine ⟨hblock.1, hblock.2.imp id fun hne => ?_⟩
    obtain ⟨c, hc⟩ := Option.ne_none_iff_exists'.1 hne
    obtain ⟨hpos, hfind, hmem⟩ := policyCheck_eq_some_iff.1 hc
    exact Option.ne_none_iff_exists'.2 ⟨c, policyCheck_eq_some_iff.2 ⟨hpos, hfind, hsub hmem⟩⟩
  · have hcheck : (e.loadPolicies policies).policyCheck domain groupID =
        e.policyCheck domain groupID := by
      rcases hg with hg | rfl
      · ext c
        rw [policyCheck_eq_some_iff, policyCheck_eq_some_iff, blockedCategories,
          blockedCategories, ← hsame groupID hg]
        rfl
      · rw [policyCheck_of_not_pos (lt_irrefl 0), policyCheck_of_not_pos (lt_irrefl 0)]
    rw [evaluateForGroup, evaluateForGroup, hcheck]
    rfl

end Changes

/-! ### Two categories -/

/-- An engine without lists, whose group 1 blocks category 1. -/
def categoryEngine : Engine := (Engine.new new new).loadPolicies (Finmap.singleton 1 {1})

/-- One domain in category 1. -/
def oneCategory : CatDomains := Finmap.singleton 1 ["a.com".toList]

/-- The domain is in category 2 as well. -/
def bothCategories : CatDomains := Finmap.insert 2 ["a.com".toList] oneCategory

/-- A subdomain is in category 2. -/
def subdomainCategory : CatDomains := Finmap.insert 2 ["x.a.com".toList] oneCategory

/-- A domain of two categories is blocked after one load and allowed after another. -/
theorem category_depends_on_order :
    letI := asciiTable
    ¬ (OrderIndependent categoryEngine bothCategories "a.com".toList 1 ∧
      ListedBlocks categoryEngine bothCategories "a.com".toList 1) := by
  rintro ⟨h, -⟩
  have heq := h [⟨1, ["a.com".toList]⟩, ⟨2, ["a.com".toList]⟩]
    [⟨2, ["a.com".toList]⟩, ⟨1, ["a.com".toList]⟩] (by decide) (by decide)
  revert heq
  decide +kernel

/-- A subdomain that is put into an allowed category is unblocked. -/
theorem added_subdomain_unblocks :
    letI := asciiTable
    Extends oneCategory subdomainCategory ∧
      ¬ NeverUnblocks categoryEngine oneCategory subdomainCategory "x.a.com".toList 1 := by
  let := asciiTable
  have hsmall : Enumerates [⟨1, ["a.com".toList]⟩] oneCategory := by decide
  have hlarge : Enumerates [⟨1, ["a.com".toList]⟩, ⟨2, ["x.a.com".toList]⟩] subdomainCategory := by
    decide
  refine ⟨⟨fun k c hc => ?_, fun k c c' hc hc' => ?_⟩, fun h => ?_⟩
  · rw [← mem_categoryWrites_iff hsmall] at hc
    rw [← mem_categoryWrites_iff hlarge]
    exact List.mem_append_left _ hc
  · rw [← mem_categoryWrites_iff hlarge] at hc hc'
    have hwrites : categoryWrites [⟨1, ["a.com".toList]⟩, ⟨2, ["x.a.com".toList]⟩] =
        [("a.com.".toList, 1), ("x.a.com.".toList, 2)] := by decide +kernel
    simp only [hwrites, List.mem_cons, Prod.mk.injEq, List.not_mem_nil, or_false] at hc hc'
    rcases hc with ⟨rfl, rfl⟩ | ⟨rfl, rfl⟩ <;> rcases hc' with ⟨hk, rfl⟩ | ⟨hk, rfl⟩
    · rfl
    · exact absurd hk (by decide)
    · exact absurd hk (by decide)
    · rfl
  · have hblock := h _ _ hsmall hlarge
    revert hblock
    decide +kernel

end DnsFilter
