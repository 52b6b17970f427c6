import DnsFilter.Filter.Ingestion
import DnsFilter.Filter.Subdomains

/-!
# Wildcard entries

The requirements ask that an entry `*.B` blocks all subdomains of `B`.  Every source takes the
entry as a name like any other, so that it covers the names at and below the label `*` only;
the walk up the labels of a subdomain of `B` never meets it.

* `wildcard_blocks_iff`: which subdomains of `B` are blocked once `*.B` is loaded, and when
  all of them are.
-/

namespace DnsFilter

open Blacklist GoString

/-! ### Sources -/

/-- The ways by which entries reach a blacklist. -/
inductive ListSource
  /-- `LoadFromFile`. -/
  | file (text : GoString)
  /-- `FetchDomains`; what comes with an error is not used. -/
  | download (result : Download)
  /-- The `domains` of a request to `AddEntries`. -/
  | api (domains : List GoString)

/-- The strings that a source hands to `Blacklist.Add`, whose `strings.ToLower` replaces a byte
that is not UTF-8 by U+FFFD. -/
def ListSource.entries : ListSource → List GoString
  | .file text => (scanDomains text).1
  | .download result =>
      match fetchDomains result with
      | (domains, none) => domains.map runes
      | (_, some _) => []
  | .api domains => domains

/-- A blacklist with the entries of a source added. -/
def ListSource.load [Unicode] (b : Blacklist) : ListSource → Blacklist
  | .file text => (b.loadFromFile (some text)).1
  | .download result =>
      match fetchDomains result with
      | (domains, none) => b.addAll (domains.map runes)
      | (_, some _) => b
  | .api domains => b.addAll domains

theorem ListSource.load_eq [Unicode] (b : Blacklist) (s : ListSource) :
    s.load b = b.addAll s.entries := by
  cases s with
  | file text => rfl
  | download result =>
    rw [load, entries]
    split
    · rfl
    · rfl
  | api domains => rfl

/-- The entry `*.B`. -/
def wildcard (B : GoString) : GoString := "*.".toList ++ B

/-- Alone on a line and behind an address, a wildcard reaches the list as it stands. -/
theorem hostNames_wildcard {B : GoString} (h : ∀ c ∈ B, isSpace c = false ∧ c ≠ '#') :
    hostNames (wildcard B) = [wildcard B] ∧
      hostNames ("0.0.0.0 ".toList ++ wildcard B) = [wildcard B] := by
  have hall : ∀ c ∈ wildcard B, isSpace c = false ∧ c ≠ '#' := by
    have hstar : ∀ c ∈ "*.".toList, isSpace c = false ∧ c ≠ '#' := by simp [isSpace]
    intro c hc
    exact (List.mem_append.1 hc).elim (hstar c) (h c)
  have hzeros : ∀ c ∈ "0.0.0.0 ".toList, decide (c ≠ '#') = true := by simp
  have hfields : fields (wildcard B) = [wildcard B] :=
    fields_of_noSpace (by simp [wildcard]) fun c hc => (hall c hc).1
  have hcut : before (wildcard B) '#' = wildcard B :=
    List.takeWhile_eq_self_iff.2 fun c hc => decide_eq_true (hall c hc).2
  have hcut' : before ("0.0.0.0 ".toList ++ wildcard B) '#' =
      "0.0.0.0".toList ++ ' ' :: wildcard B := by
    rw [before, List.takeWhile_append_of_pos hzeros]
    exact congrArg ("0.0.0.0 ".toList ++ ·) hcut
  constructor
  · rw [hostNames, hcut, hfields]
  · have haddress : fields "0.0.0.0".toList = ["0.0.0.0".toList] := by decide
    rw [hostNames, hcut', fields_append_space (by decide), haddress, hfields]
    rfl

/-! ### Subdomains -/

section Subdomains

variable [Unicode]

/-- A name below `B`, at any depth. -/
def ProperSubdomain (q B : GoString) : Prop :=
  ∃ x, x ≠ [] ∧ normalize q = x ++ '.' :: normalize B

theorem candidates_ne_nil {q p : GoString} (h : p ∈ candidates q) : p ≠ [] := by
  rcases List.mem_cons.1 h with rfl | h
  · exact normalize_ne_nil q
  · obtain ⟨i, hi, rfl⟩ := List.mem_map.1 h
    rw [List.mem_range'_1] at hi
    intro hnil
    -- at least two parts are joined
    have hne : (split (normalize q) '.').drop i ≠ [] := by
      rw [Ne, List.drop_eq_nil_iff]
      omega
    have hlen := congrArg List.length (eq_singleton_of_join_eq_nil hne hnil)
    rw [List.length_drop, List.length_singleton] at hlen
    omega

/-- What covers a name covers its subdomains. -/
theorem ProperSubdomain.candidates {q B p : GoString} (h : ProperSubdomain q B)
    (hp : p ∈ candidates B) : p ∈ candidates q := by
  have hne := candidates_ne_nil hp
  obtain ⟨x, -, hq⟩ := h
  refine (mem_candidates_iff hne).2 (.inr ?_)
  rw [hq]
  rcases (mem_candidates_iff hne).1 hp with rfl | hsuf
  · exact List.suffix_append _ _
  · exact (hsuf.trans (List.suffix_cons _ _)).trans (List.suffix_append _ _)

theorem toLower_normalize (B : GoString) : toLower (normalize B) = normalize B := by
  have hlower : ∀ s : GoString, toLower (toLower s) = toLower s := by
    intro s
    simp [toLower, Unicode.toLower_toLower]
  have hdot : toLower ".".toList = ".".toList := by
    simp [toLower, Unicode.toLower_ascii '.' (by decide)]
  rw [normalize]
  split_ifs
  · exact hlower _
  · rw [toLower, List.map_append, ← toLower, ← toLower, hlower, hdot]

/-- A label in lower case in front of a normal form gives a normal form. -/
theorem normalize_append_normalize {l : GoString} (hne : l ≠ [])
    (hl : ∀ c ∈ l, isSpace c = false ∧ Unicode.toLower c = c) (B : GoString) :
    normalize (l ++ '.' :: normalize B) = l ++ '.' :: normalize B := by
  have hdot : Unicode.toLower '.' = '.' := Unicode.toLower_ascii '.' (by decide)
  have hsuf : ['.'] <:+ l ++ '.' :: normalize B :=
    ((dot_suffix_normalize B).trans (List.suffix_cons _ _)).trans (List.suffix_append _ _)
  have htrim : trimSpace (l ++ '.' :: normalize B) = l ++ '.' :: normalize B := by
    obtain ⟨t, ht⟩ := hsuf
    obtain ⟨c, l, rfl⟩ := List.exists_cons_of_ne_nil hne
    rw [trimSpace_of_getLast? (by rw [← ht]; simp; decide), List.cons_append,
      List.dropWhile_cons_of_neg (by simp [(hl c (by simp)).1])]
  have hlower : toLower (l ++ '.' :: normalize B) = l ++ '.' :: normalize B := by
    have hmap : l.map Unicode.toLower = l := by
      simpa using List.map_congr_left (g := id) fun c hc => (hl c hc).2
    rw [toLower, List.map_append, hmap, List.map_cons, hdot, ← toLower, toLower_normalize]
  rw [normalize, htrim, hlower]
  exact if_pos (List.isSuffixOf_iff_suffix.2 hsuf)

/-- Below every name is one that a finite set covers only by covering the name itself. -/
theorem exists_uncovered (s : Finset GoString) (B : GoString) :
    ∃ q, ProperSubdomain q B ∧ ∀ p ∈ s, p ∈ candidates q → p ∈ candidates B := by
  -- a label that is longer than all of the set
  let l : GoString := List.replicate (s.sup List.length + 1) 'a'
  have hne : l ≠ [] := by simp [l]
  have hletters : ∀ c ∈ l, isSpace c = false ∧ Unicode.toLower c = c := by
    intro c hc
    rw [List.eq_of_mem_replicate hc]
    exact ⟨by decide, Unicode.toLower_ascii 'a' (by decide)⟩
  have hdot : '.' ∉ l := by simp [l]
  have hq := normalize_append_normalize hne hletters B
  refine ⟨_, ⟨l, hne, hq⟩, fun p hp hcand => ?_⟩
  have hpne := candidates_ne_nil hcand
  rw [mem_candidates_iff hpne, hq] at hcand
  rw [mem_candidates_iff hpne]
  rcases hcand with rfl | hsuf
  · have hlen : (l ++ '.' :: normalize B).length ≤ s.sup List.length := Finset.le_sup hp
    simp only [l, List.length_append, List.length_replicate] at hlen
    omega
  · exact ((dot_suffix_append_iff hdot).1 hsuf).imp Eq.symm id

/-- The wildcard itself blocks the names at and below the label `*`; all subdomains of `B` are
blocked exactly when `B` or a parent of it is listed as well. -/
theorem wildcard_blocks_iff (b : Blacklist) (s : ListSource) (B : GoString)
    (h : wildcard B ∈ s.entries) :
    (∀ q, ProperSubdomain q B →
      ((s.load b).contains q ↔ Covers (wildcard B) q ∨
        (∃ d ∈ s.entries, d ≠ wildcard B ∧ Covers d q) ∨ b.contains q)) ∧
    ((∀ q, ProperSubdomain q B → (s.load b).contains q) ↔
      (∃ d ∈ s.entries, Covers d B) ∨ b.contains B) := by
  constructor
  · intro q _
    rw [ListSource.load_eq, contains_addAll, ← or_assoc]
    refine or_congr_left ⟨?_, ?_⟩
    · rintro ⟨d, hd, hcov⟩
      by_cases hdw : d = wildcard B
      · exact .inl (hdw ▸ hcov)
      · exact .inr ⟨d, hd, hdw, hcov⟩
    · rintro (hcov | ⟨d, hd, -, hcov⟩)
      · exact ⟨_, h, hcov⟩
      · exact ⟨d, hd, hcov⟩
  · rw [← contains_addAll, ← ListSource.load_eq]
    constructor
    · intro hall
      obtain ⟨q, hq, hcand⟩ := exists_uncovered (s.load b).domains B
      obtain ⟨p, hpq, hp⟩ := contains_iff.1 (hall q hq)
      exact contains_iff.2 ⟨p, hcand p hp hpq, hp⟩
    · intro hB q hq
      obtain ⟨p, hpB, hp⟩ := contains_iff.1 hB
      exact contains_iff.2 ⟨p, hq.candidates hpB, hp⟩

end Subdomains

theorem wildcard_blocks_listed :
    letI := asciiTable
    ((ListSource.file "*.ads.test\nADS.test\n".toList).load new).contains "x.ads.test".toList =
      true := by
  let := asciiTable
  have hall := (wildcard_blocks_iff new (.file "*.ads.test\nADS.test\n".toList)
    "ads.test".toList (by decide)).2.2 (by decide)
  exact hall _ ⟨"x".toList, by decide, by decide⟩

/-- A list with the wildcard alone blocks no real subdomain. -/
theorem wildcard_blocks_fails :
    letI := asciiTable
    let source := ListSource.file "*.ads.test\n".toList
    wildcard "ads.test".toList ∈ source.entries ∧
      ProperSubdomain "x.ads.test".toList "ads.test".toList ∧
      (source.load new).contains "x.ads.test".toList = false := by
  refine ⟨by decide, ⟨"x".toList, by decide, by decide⟩, by decide⟩

end DnsFilter
