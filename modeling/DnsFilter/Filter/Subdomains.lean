import DnsFilter.Filter.Changes
import DnsFilter.Filter.Semantics

/-!
# The two subdomain rules

`Blacklist.Contains` and `findParentCategory` both walk up the labels of a name, the one over
`strings.Split`, which keeps the empty label behind the last dot, the other over `splitDomain`,
which drops every empty label.  Both loops end before the last part.

* `splitDomain_append_dot`: the equation from which everything about `splitDomain` follows;
* `mem_categoryKeys_iff`: the names under which a category is found;
* `category_rule_iff`: for which lists of domains the two rules agree on a name.
-/

namespace DnsFilter

open Blacklist Engine GoString

/-! ### Labels -/

theorem splitDomainLoop_append_dot (x p current : GoString) (result : List GoString) :
    splitDomainLoop (x ++ '.' :: p) current result =
      splitDomainLoop p [] (splitDomainLoop x current result) := by
  induction x generalizing current result with
  | nil => simp [splitDomainLoop]
  | cons c x ih =>
    rw [List.cons_append, splitDomainLoop, splitDomainLoop]
    split_ifs <;> exact ih ..

/-- The labels found so far stay in front. -/
theorem splitDomainLoop_result (x current : GoString) (result : List GoString) :
    splitDomainLoop x current result = result ++ splitDomainLoop x current [] := by
  induction x generalizing current result with
  | nil =>
    rw [splitDomainLoop, splitDomainLoop]
    split_ifs <;> simp
  | cons c x ih =>
    rw [splitDomainLoop, splitDomainLoop]
    split_ifs
    · rw [ih, ih _ ([] ++ _), List.nil_append, List.append_assoc]
    · exact ih ..
    · exact ih ..

/-- The labels around a dot. -/
theorem splitDomain_append_dot (x p : GoString) :
    splitDomain (x ++ '.' :: p) = splitDomain x ++ splitDomain p := by
  rw [splitDomain, splitDomainLoop_append_dot, splitDomainLoop_result]
  rfl

theorem splitDomainLoop_of_noDot {l : GoString} (h : '.' ∉ l) (current : GoString) :
    splitDomainLoop l current [] = if current ++ l ≠ [] then [current ++ l] else [] := by
  induction l generalizing current with
  | nil => simp [splitDomainLoop]
  | cons c l ih =>
    obtain ⟨hc, hl⟩ : c ≠ '.' ∧ '.' ∉ l := by simpa [eq_comm] using h
    rw [splitDomainLoop, if_neg hc, ih hl, List.append_assoc, List.singleton_append]

/-- A non-empty string without a dot is one label. -/
theorem splitDomain_label {l : GoString} (hne : l ≠ []) (h : '.' ∉ l) : splitDomain l = [l] := by
  rw [splitDomain, splitDomainLoop_of_noDot h, List.nil_append, if_pos hne]

/-- A label is a non-empty string without a dot. -/
def IsLabel (l : GoString) : Prop := l ≠ [] ∧ '.' ∉ l

theorem isLabel_of_mem_splitDomain {x l : GoString} (h : l ∈ splitDomain x) : IsLabel l := by
  induction hn : x.length using Nat.strong_induction_on generalizing x with
  | _ n ih =>
    subst hn
    by_cases hdot : '.' ∈ x
    · obtain ⟨y, p, rfl⟩ := List.append_of_mem hdot
      rw [splitDomain_append_dot, List.mem_append] at h
      rcases h with h | h
      · exact ih y.length (by simp) h rfl
      · exact ih p.length (by simp; omega) h rfl
    · by_cases hne : x = []
      · subst hne
        simp [splitDomain, splitDomainLoop] at h
      · rw [splitDomain_label hne hdot, List.mem_singleton] at h
        subst h
        exact ⟨hne, hdot⟩

theorem joinDomain_singleton (l : GoString) : joinDomain [l] = l ++ ['.'] := by
  simp [joinDomain, join]

theorem joinDomain_cons_cons (l l' : GoString) (labels : List GoString) :
    joinDomain (l :: l' :: labels) = l ++ '.' :: joinDomain (l' :: labels) := by
  simp [joinDomain, join, List.intercalate]

/-- Joined labels split into the same labels. -/
theorem splitDomain_joinDomain {labels : List GoString} (h : ∀ l ∈ labels, IsLabel l) :
    splitDomain (joinDomain labels) = labels := by
  induction labels with
  | nil => rfl
  | cons l labels ih =>
    obtain ⟨hne, hdot⟩ := h l (by simp)
    cases labels with
    | nil =>
      rw [joinDomain_singleton, splitDomain_append_dot, splitDomain_label hne hdot]
      rfl
    | cons l' labels =>
      rw [joinDomain_cons_cons, splitDomain_append_dot, splitDomain_label hne hdot,
        ih fun k hk => h k (List.mem_cons_of_mem _ hk)]
      rfl

theorem dot_suffix_append_iff {l r p : GoString} (h : '.' ∉ l) :
    '.' :: p <:+ l ++ '.' :: r ↔ p = r ∨ '.' :: p <:+ r := by
  induction l with
  | nil => simp [List.suffix_cons_iff]
  | cons c l ih =>
    obtain ⟨hc, hl⟩ : c ≠ '.' ∧ '.' ∉ l := by simpa [eq_comm] using h
    have hne : ¬ '.' :: p = c :: (l ++ '.' :: r) := fun heq => hc (List.cons.inj heq).1.symm
    rw [List.cons_append, List.suffix_cons_iff, or_iff_right hne, ih hl]

/-- Behind the dots of a name stand its last labels. -/
theorem dot_suffix_joinDomain_iff {labels : List GoString} (h : ∀ l ∈ labels, IsLabel l)
    {p : GoString} (hp : p ≠ []) :
    '.' :: p <:+ joinDomain labels ↔
      ∃ i, 1 ≤ i ∧ i < labels.length ∧ joinDomain (labels.drop i) = p := by
  induction labels with
  | nil => simp [joinDomain, join, List.suffix_cons_iff, hp]
  | cons l labels ih =>
    have hdot := (h l (by simp)).2
    cases labels with
    | nil =>
      rw [joinDomain_singleton, dot_suffix_append_iff hdot]
      simp [hp]
    | cons l' labels =>
      rw [joinDomain_cons_cons, dot_suffix_append_iff hdot,
        ih fun k hk => h k (List.mem_cons_of_mem _ hk)]
      constructor
      · rintro (rfl | ⟨i, h1, hi, rfl⟩)
        · exact ⟨1, le_rfl, by simp, rfl⟩
        · exact ⟨i + 1, by omega, by simpa using hi, rfl⟩
      · rintro ⟨i, h1, hi, rfl⟩
        obtain ⟨j, rfl⟩ := Nat.exists_eq_add_of_le' h1
        rcases Nat.eq_zero_or_pos j with rfl | hj
        · exact .inl rfl
        · exact .inr ⟨j, hj, by simpa using hi, rfl⟩

/-! ### The names of the two rules -/

/-- Only single dots, one of them at the end. -/
def NoEmptyLabel (p : GoString) : Prop := joinDomain (splitDomain p) = p

instance (p : GoString) : Decidable (NoEmptyLabel p) := inferInstanceAs (Decidable (_ = _))

/-- A name of two or more labels, but fewer than `n` has, and no empty one. -/
def ParentName (p n : GoString) : Prop :=
  NoEmptyLabel p ∧ 2 ≤ (splitDomain p).length ∧ (splitDomain p).length < (splitDomain n).length

instance (p n : GoString) : Decidable (ParentName p n) := inferInstanceAs (Decidable (_ ∧ _))

/-- The name itself, or a parent name behind one of its dots. -/
def SharedName (p n : GoString) : Prop := p = n ∨ ParentName p n ∧ '.' :: p <:+ n

/-- What stands behind a dot of the name and is no parent name: the last label alone, a part
with an empty label, or a part with all the labels. -/
def ListName (p n : GoString) : Prop := ¬ ParentName p n ∧ '.' :: p <:+ n

/-- The last labels of the name, with an empty label between two of them left out. -/
def CategoryName (p n : GoString) : Prop :=
  ParentName p n ∧ splitDomain p <:+ splitDomain n ∧ ¬ '.' :: p <:+ n

theorem splitDomain_suffix {p n : GoString} (h : '.' :: p <:+ n) :
    splitDomain p <:+ splitDomain n := by
  obtain ⟨x, rfl⟩ := h
  rw [splitDomain_append_dot]
  exact List.suffix_append ..

/-- Only the last label alone is a name that just the lists match. -/
theorem listName_iff {p n : GoString} (hp : p ≠ []) (hn : NoEmptyLabel n) :
    ListName p n ↔ 2 ≤ (splitDomain n).length ∧
      joinDomain ((splitDomain n).drop ((splitDomain n).length - 1)) = p := by
  have hlabels : ∀ l ∈ splitDomain n, IsLabel l := fun l => isLabel_of_mem_splitDomain
  have hdrop : ∀ i, splitDomain (joinDomain ((splitDomain n).drop i)) = (splitDomain n).drop i :=
    fun i => splitDomain_joinDomain fun l hl => hlabels l (List.mem_of_mem_drop hl)
  have hdot := dot_suffix_joinDomain_iff hlabels hp
  rw [hn] at hdot
  rw [ListName, hdot]
  constructor
  · rintro ⟨hparent, i, h1, hi, rfl⟩
    have hlast : i = (splitDomain n).length - 1 := by
      by_contra hne
      refine hparent ⟨by rw [NoEmptyLabel, hdrop], ?_, ?_⟩ <;>
        · rw [hdrop, List.length_drop]
          omega
    exact ⟨by omega, by rw [← hlast]⟩
  · rintro ⟨h2, rfl⟩
    refine ⟨fun hparent => ?_, _, ?_, ?_, rfl⟩
    · have hlen := hparent.2.1
      rw [hdrop, List.length_drop] at hlen
      omega
    · omega
    · omega

/-- No name is matched just by the categories. -/
theorem not_categoryName {p n : GoString} (hp : p ≠ []) (hn : NoEmptyLabel n) :
    ¬ CategoryName p n := by
  rintro ⟨⟨hname, h2, hlt⟩, hsuf, hdot⟩
  rw [← hn, dot_suffix_joinDomain_iff (fun l => isLabel_of_mem_splitDomain) hp] at hdot
  rw [List.suffix_iff_eq_drop] at hsuf
  refine hdot ⟨(splitDomain n).length - (splitDomain p).length, by omega, by omega, ?_⟩
  rw [← hsuf, hname]

section Rules

variable [Unicode]

/-- A category is found under the name itself and under the parent names that consist of its
last labels. -/
theorem mem_categoryKeys_iff {p q : GoString} :
    p ∈ categoryKeys q ↔ p = normalize q ∨
      ParentName p (normalize q) ∧ splitDomain p <:+ splitDomain (normalize q) := by
  simp only [categoryKeys, List.mem_cons, List.mem_map, List.mem_range'_1]
  refine or_congr_right ⟨?_, ?_⟩
  · rintro ⟨i, ⟨h1, hi⟩, rfl⟩
    have hlabels : ∀ l ∈ (splitDomain (normalize q)).drop i, IsLabel l := fun l hl =>
      isLabel_of_mem_splitDomain (List.mem_of_mem_drop hl)
    have hsplit := splitDomain_joinDomain hlabels
    refine ⟨⟨?_, ?_, ?_⟩, ?_⟩
    · rw [NoEmptyLabel, hsplit]
    · rw [hsplit, List.length_drop]
      omega
    · rw [hsplit, List.length_drop]
      omega
    · rw [hsplit]
      exact List.drop_suffix ..
  · rintro ⟨⟨hp, h2, hlt⟩, hsuf⟩
    rw [List.suffix_iff_eq_drop] at hsuf
    refine ⟨(splitDomain (normalize q)).length - (splitDomain p).length, by omega, ?_⟩
    rw [← hsuf, hp]

theorem mem_categoryKeys_iff_name {p q : GoString} :
    p ∈ categoryKeys q ↔ SharedName p (normalize q) ∨ CategoryName p (normalize q) := by
  rw [mem_categoryKeys_iff, SharedName, CategoryName]
  by_cases hp : '.' :: p <:+ normalize q
  · simp [hp, splitDomain_suffix hp]
  · simp [hp]

theorem covers_iff_name {d q : GoString} :
    Covers d q ↔
      SharedName (normalize d) (normalize q) ∨ ListName (normalize d) (normalize q) := by
  rw [covers_iff, SharedName, ListName, eq_comm]
  tauto

/-! ### One category -/

theorem lookup_one_category (c : ℤ) (D : List GoString) (k : GoString) :
    (writeCategories (categoryWrites [⟨c, D⟩])).lookup k =
      if k ∈ normalized D then some c else none := by
  have horder : Enumerates [⟨c, D⟩] (Finmap.singleton c D) := rfl
  have hlisted : ∀ c', Listed (Finmap.singleton c D) k c' ↔ c' = c ∧ k ∈ normalized D := by
    intro c'
    by_cases hc : c' = c
    · subst hc
      simp [Listed]
    · have hnone : Finmap.lookup c' (Finmap.singleton c D : CatDomains) = none :=
        Finmap.lookup_eq_none.2 fun h => hc ((Finmap.mem_singleton ..).1 h)
      simp [Listed, hc, hnone]
  cases hk : (writeCategories (categoryWrites [⟨c, D⟩])).lookup k with
  | none =>
    have hno := (lookup_eq_none_iff horder).1 hk c
    rw [if_neg fun hmem => hno ((hlisted c).2 ⟨rfl, hmem⟩)]
  | some c' =>
    obtain ⟨rfl, hmem⟩ := (hlisted c').1 (listed_of_lookup horder hk)
    rw [if_pos hmem]

/-- An engine that has one category only blocks by it what has a key in the list. -/
theorem block_one_category_iff {e : Engine} {c groupID : ℤ} {D : List GoString} {q : GoString}
    (hw : e.whitelist = .new) (hb : e.blacklist = .new) (hg : 0 < groupID)
    (hc : e.blockedCategories groupID = {c}) :
    ((e.loadCategories [⟨c, D⟩]).evaluateForGroup q groupID).action = .block ↔
      ∃ d ∈ D, normalize d ∈ categoryKeys q := by
  have hblocked : (e.loadCategories [⟨c, D⟩]).blockedCategories groupID = {c} := hc
  have hcats : (e.loadCategories [⟨c, D⟩]).domainCategories =
      writeCategories (categoryWrites [⟨c, D⟩]) := rfl
  have hdec : ¬ e.Decided q groupID := by simp [Engine.Decided, hg, hw, hb]
  rw [action_eq_block_iff hdec, Option.ne_none_iff_exists']
  simp only [policyCheck_eq_some_iff, hg, true_and, hblocked, hcats, Finset.mem_singleton]
  constructor
  · rintro ⟨c', hfind, -⟩
    obtain ⟨k, hk, hlookup⟩ := List.exists_of_findSome?_eq_some hfind
    rw [lookup_one_category] at hlookup
    split_ifs at hlookup with hmem
    obtain ⟨d, hd, rfl⟩ := mem_normalized.1 hmem
    exact ⟨d, hd, hk⟩
  · rintro ⟨d, hd, hk⟩
    refine ⟨c, ?_, rfl⟩
    cases hfind : (categoryKeys q).findSome?
        (writeCategories (categoryWrites [⟨c, D⟩])).lookup with
    | none =>
      have hnone := List.findSome?_eq_none_iff.1 hfind _ hk
      rw [lookup_one_category, if_pos (mem_normalized.2 ⟨d, hd, rfl⟩)] at hnone
      cases hnone
    | some c' =>
      obtain ⟨k, -, hlookup⟩ := List.exists_of_findSome?_eq_some hfind
      rw [lookup_one_category] at hlookup
      split_ifs at hlookup
      exact hlookup.symm

/-- The two rules on a list of domains. -/
theorem rules_agree_iff (D : List GoString) (q : GoString) :
    ((∃ d ∈ D, normalize d ∈ categoryKeys q) ↔ ∃ d ∈ D, Covers d q) ↔
      (∃ d ∈ D, SharedName (normalize d) (normalize q)) ∨
        ((∃ d ∈ D, ListName (normalize d) (normalize q)) ↔
          ∃ d ∈ D, CategoryName (normalize d) (normalize q)) := by
  simp only [mem_categoryKeys_iff_name, covers_iff_name, and_or_left, exists_or]
  by_cases hs : ∃ d ∈ D, SharedName (normalize d) (normalize q)
  · simp only [hs, true_or]
  · simp only [hs, false_or, iff_comm]

/-- On a name without empty labels the two rules agree unless the list of domains has the last
label alone, but neither the name nor a parent name of it. -/
theorem rules_agree_of_noEmptyLabel (D : List GoString) {q : GoString}
    (hq : NoEmptyLabel (normalize q)) :
    ((∃ d ∈ D, normalize d ∈ categoryKeys q) ↔ ∃ d ∈ D, Covers d q) ↔
      (∃ d ∈ D, SharedName (normalize d) (normalize q)) ∨
        ∀ d ∈ D, normalize d ≠ joinDomain ((splitDomain (normalize q)).drop
          ((splitDomain (normalize q)).length - 1)) ∨ (splitDomain (normalize q)).length < 2 := by
  rw [rules_agree_iff]
  refine or_congr_right ?_
  have hcat : ¬ ∃ d ∈ D, CategoryName (normalize d) (normalize q) := by
    rintro ⟨d, -, hd⟩
    exact not_categoryName (normalize_ne_nil d) hq hd
  rw [iff_false_right hcat]
  simp only [listName_iff (normalize_ne_nil _) hq, not_exists, not_and_or, not_le, eq_comm,
    imp_iff_not_or, ne_eq, or_comm]

/-- **The categories match the names that the lists match exactly when the list of domains has
the name or a parent name of it behind a dot, or has a domain that only lists match just if it
has one that only categories match.** -/
theorem category_rule_iff (e : Engine) (c groupID : ℤ) (D : List GoString) (q : GoString)
    (hw : e.whitelist = .new) (hb : e.blacklist = .new) (hg : 0 < groupID)
    (hc : e.blockedCategories groupID = {c}) :
    (((e.loadCategories [⟨c, D⟩]).evaluateForGroup q groupID).action = .block ↔
        (Blacklist.new.addAll D).contains q) ↔
      (∃ d ∈ D, SharedName (normalize d) (normalize q)) ∨
        ((∃ d ∈ D, ListName (normalize d) (normalize q)) ↔
          ∃ d ∈ D, CategoryName (normalize d) (normalize q)) := by
  rw [← rules_agree_iff, block_one_category_iff hw hb hg hc, contains_addAll, contains_new]
  simp

end Rules

/-- A subdomain of an entry, in the lists and in a category. -/
theorem category_rule_subdomain :
    letI := asciiTable
    ((categoryEngine.loadCategories [⟨1, ["a.com".toList]⟩]).evaluateForGroup
        "x.a.com".toList 1).action = .block ↔
      (Blacklist.new.addAll ["a.com".toList]).contains "x.a.com".toList := by
  have hshared : letI := asciiTable
      SharedName (normalize "a.com".toList) (normalize "x.a.com".toList) :=
    .inr ⟨by decide +kernel, by decide +kernel⟩
  let := asciiTable
  exact (category_rule_iff categoryEngine 1 1 ["a.com".toList] "x.a.com".toList rfl rfl
    (by decide) (by decide)).2 (.inl ⟨_, by simp, hshared⟩)

/-- A top-level domain that the lists match and a category does not. -/
theorem category_misses_last_label :
    letI := asciiTable
    ¬ (((categoryEngine.loadCategories [⟨1, ["com".toList]⟩]).evaluateForGroup
        "a.com".toList 1).action = .block ↔
      (Blacklist.new.addAll ["com".toList]).contains "a.com".toList) := by
  decide +kernel

end DnsFilter
