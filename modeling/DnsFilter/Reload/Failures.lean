import DnsFilter.Reload.Outage

/-!
# Failing load queries

The callback of the listener makes three queries.  It gives up when the first one fails, and
goes on to install what it has when one of the others does.

* `failingCallback_eq`: the callback performs the loads of the queries that succeed;
* `reload_atomic_iff`: when the memory is then all as before or all newly loaded.
-/

namespace DnsFilter

open Blacklist Engine

theorem Part.forall {p : Part → Prop} : (∀ q, p q) ↔ p .lists ∧ p .categories ∧ p .policies := by
  constructor
  · exact fun h => ⟨h _, h _, h _⟩
  · rintro ⟨hl, hc, hp⟩ q
    cases q
    · exact hl
    · exact hc
    · exact hp

section Failures

variable [Unicode] {files : ListFiles} {db : Database} {order : List (Σ _ : ℤ, List GoString)}

/-- The callback when the queries of the parts `p` with `fails p` fail.  The loaded categories
are ranged over in the given order. -/
def failingCallback (files : ListFiles) (db : Database) (order : List (Σ _ : ℤ, List GoString))
    (fails : Part → Bool) (e : Engine) : Engine :=
  notifyCallback e files
    (if fails .lists then none else some db.loadActiveBlocklistEntries)
    (if fails .categories then none else some order)
    (if fails .policies then none else some db.loadGroupPolicies)

/-- The load of a part, unless its query fails. -/
def Part.tryLoad (files : ListFiles) (db : Database) (order : List (Σ _ : ℤ, List GoString))
    (fails : Part → Bool) (e : Engine) (p : Part) : Engine :=
  if fails p then e else p.load files order db e

/-- A failed load of the lists is the end; the other two loads are independent. -/
theorem failingCallback_eq (fails : Part → Bool) (e : Engine) :
    failingCallback files db order fails e =
      if fails .lists then e
      else [Part.lists, .categories, .policies].foldl (Part.tryLoad files db order fails) e := by
  cases hl : fails .lists <;> cases hc : fails .categories <;> cases hp : fails .policies <;>
    simp [failingCallback, notifyCallback, Part.tryLoad, hl, hc, hp] <;> rfl

/-- A load that succeeds makes its part current; every other part stays as it is. -/
theorem current_tryLoad (horder : Enumerates order db.loadCategoryDomains) (fails : Part → Bool)
    (e : Engine) (p p' : Part) :
    p'.Current files db (Part.tryLoad files db order fails e p) ↔
      p' = p ∧ fails p = false ∨ p'.Current files db e := by
  rw [Part.tryLoad]
  by_cases hp : p' = p
  · subst hp
    cases hfail : fails p' with
    | true => simp
    | false => simpa using current_load (Part.Fits.refl db p') (fun _ => horder) e
  · split_ifs
    · simp [hp]
    · simp [hp, current_load_of_ne hp]

/-- The memory is newly loaded when the parts whose load fails were current before. -/
theorem freshlyLoaded_tryLoads (horder : Enumerates order db.loadCategoryDomains)
    (fails : Part → Bool) (e : Engine) :
    FreshlyLoaded files db
        ([Part.lists, .categories, .policies].foldl (Part.tryLoad files db order fails) e) ↔
      ∀ p, fails p = true → p.Current files db e := by
  rw [freshlyLoaded_iff_current]
  refine forall_congr' fun p => ?_
  simp only [List.foldl_cons, List.foldl_nil, current_tryLoad horder]
  cases p with
  | lists => cases hfail : fails .lists <;> simp
  | categories => cases hfail : fails .categories <;> simp
  | policies => cases hfail : fails .policies <;> simp

/-- The parts are different fields, so that no load undoes another one. -/
theorem tryLoads_eq_self (fails : Part → Bool) (e : Engine) :
    [Part.lists, .categories, .policies].foldl (Part.tryLoad files db order fails) e = e ↔
      ∀ p, fails p = false → p.load files order db e = e := by
  obtain ⟨blacklist, whitelist, domainCategories, groupPolicies⟩ := e
  rw [Part.forall]
  cases hl : fails .lists <;> cases hc : fails .categories <;> cases hp : fails .policies <;>
    simp [Part.tryLoad, Part.load, replaceLists, loadListFiles, loadCategories, loadPolicies, hl,
      hc, hp, and_assoc]

/-- The memory is all as before or all newly loaded exactly when the query of the lists fails,
or every part whose query fails is what the database has, or every part that is loaded is what
the memory had. -/
theorem reload_atomic_iff (e : Engine) (horder : Enumerates order db.loadCategoryDomains)
    (fails : Part → Bool) :
    (failingCallback files db order fails e = e ∨
        FreshlyLoaded files db (failingCallback files db order fails e)) ↔
      fails .lists = true ∨ (∀ p, fails p = true → p.Current files db e) ∨
        ∀ p, fails p = false → p.load files order db e = e := by
  rw [failingCallback_eq]
  cases hl : fails .lists with
  | true => simp
  | false =>
    simp only [Bool.false_eq_true, if_false, false_or]
    rw [freshlyLoaded_tryLoads horder, tryLoads_eq_self, or_comm]

end Failures

/-- The list of `adsDatabase`, moved to the category. -/
def movedDatabase : Database := { adsDatabase with blocklistCategories := [(1, 1)] }

/-- A failing query of the policies changes nothing when there are none. -/
theorem reload_atomic_policies :
    letI := asciiTable
    let files : ListFiles := ⟨.missing, .missing⟩
    let e' := failingCallback files movedDatabase [⟨1, ["ads.com".toList]⟩] (· = .policies)
      (adsStart.engine files)
    e' = adsStart.engine files ∨ FreshlyLoaded files movedDatabase e' := by
  let := asciiTable
  refine (reload_atomic_iff _ (by decide) _).2 (.inr (.inl fun p hp => ?_))
  obtain rfl : p = .policies := by simpa using hp
  rfl

/-- When the query of the categories fails, a list that has moved to a category is gone. -/
theorem reload_atomic_fails :
    letI := asciiTable
    let files : ListFiles := ⟨.missing, .missing⟩
    let e' := failingCallback files movedDatabase [⟨1, ["ads.com".toList]⟩] (· = .categories)
      (adsStart.engine files)
    e'.blacklist = Blacklist.new ∧ e'.domainCategories = ∅ ∧
      ¬ (e' = adsStart.engine files ∨ FreshlyLoaded files movedDatabase e') := by
  let := asciiTable
  refine ⟨by decide +kernel, by decide +kernel, ?_⟩
  rintro (h | h)
  · have hblack := congrArg Engine.blacklist h
    revert hblack
    decide +kernel
  · obtain ⟨order, horder, hcats⟩ := (freshlyLoaded_iff.1 h).2.1
    have hone : movedDatabase.loadCategoryDomains.entries = {⟨1, ["ads.com".toList]⟩} := by
      decide +kernel
    obtain rfl : order = [⟨1, ["ads.com".toList]⟩] := by
      rw [Enumerates, hone] at horder
      exact Multiset.coe_eq_singleton.1 horder
    revert hcats
    decide +kernel

end DnsFilter
