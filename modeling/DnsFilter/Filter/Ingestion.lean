import DnsFilter.Filter.Downloader
import DnsFilter.Filter.Semantics

/-!
# What a list text puts into a blacklist

`hostNames` reads a line by the hosts format: behind one of the addresses stand any number of
names.  Both scanning loops keep the first of them only (`lineDomain_eq`).

* `scanDomains_of_scannable`: a text yields the first name of each line;
* `hosts_complete_iff`: for which texts a file and a download leave all names in the blacklist.
-/

namespace DnsFilter

open Blacklist GoString

namespace GoString

/-! ### Fields -/

/-- A space separates fields; everything about `fields` follows from this equation. -/
theorem fields_append_space {c : Char} (hc : isSpace c) (x y : GoString) :
    fields (x ++ c :: y) = fields x ++ fields y := by
  rw [fields, List.splitOnP_append_cons x y hc, List.filter_append]
  rfl

@[simp] theorem fields_nil : fields [] = [] := by simp [fields]

theorem fields_cons_space {c : Char} (hc : isSpace c) (s : GoString) :
    fields (c :: s) = fields s := by simpa using fields_append_space hc [] s

theorem fields_concat_space {c : Char} (hc : isSpace c) (s : GoString) :
    fields (s ++ [c]) = fields s := by simpa using fields_append_space hc s []

theorem ne_nil_of_mem_fields {s f : GoString} (h : f ∈ fields s) : f ≠ [] := by
  simpa using (List.mem_filter.1 h).2

/-- A string without spaces is one field. -/
theorem fields_of_noSpace {s : GoString} (hne : s ≠ []) (h : ∀ c ∈ s, isSpace c = false) :
    fields s = [s] := by
  rw [fields, List.splitOnP_eq_singleton h]
  simp [hne]

theorem ne_hash_of_isSpace {c : Char} (hc : isSpace c) : c ≠ '#' := by
  rintro rfl
  simp [isSpace] at hc

/-- Two strings with the same fields in front of a comment. -/
theorem fields_before_cons {c : Char} (hc : isSpace c) (s : GoString) :
    fields (before (c :: s) '#') = fields (before s '#') := by
  rw [before, List.takeWhile_cons_of_pos (by simpa using ne_hash_of_isSpace hc),
    fields_cons_space hc]
  rfl

theorem fields_before_concat {c : Char} (hc : isSpace c) (s : GoString) :
    fields (before (s ++ [c]) '#') = fields (before s '#') := by
  by_cases h : ∀ a ∈ s, a ≠ '#'
  · have hs : before s '#' = s := List.takeWhile_eq_self_iff.2 (by simpa using h)
    have hsc : before (s ++ [c]) '#' = s ++ [c] := by
      refine List.takeWhile_eq_self_iff.2 ?_
      simpa [or_imp, forall_and] using ⟨h, ne_hash_of_isSpace hc⟩
    rw [hs, hsc, fields_concat_space hc]
  · rw [before, List.takeWhile_append, if_neg]
    · rfl
    · intro hlen
      apply h
      have hself := (List.takeWhile_prefix (· ≠ '#')).eq_of_length hlen
      simpa using List.takeWhile_eq_self_iff.1 hself

/-- What ignores a space at either end of a string ignores that the string is trimmed. -/
theorem apply_trimSpace {β : Type*} (f : GoString → β)
    (hcons : ∀ c s, isSpace c → f (c :: s) = f s)
    (hconcat : ∀ c s, isSpace c → f (s ++ [c]) = f s) (s : GoString) : f (trimSpace s) = f s := by
  have hleft : f (s.dropWhile isSpace) = f s := by
    induction s with
    | nil => rfl
    | cons c s ih =>
      by_cases hc : isSpace c
      · rw [List.dropWhile_cons_of_pos hc, ih, hcons c s hc]
      · rw [List.dropWhile_cons_of_neg hc]
  have hright : ∀ t : GoString, f (t.rdropWhile isSpace) = f t := by
    intro t
    induction t using List.reverseRecOn with
    | nil => rfl
    | append_singleton t c ih =>
      by_cases hc : isSpace c
      · rw [List.rdropWhile_concat_pos _ _ _ hc, ih, hconcat c t hc]
      · rw [List.rdropWhile_concat_neg _ _ _ hc]
  rw [← hleft]
  exact hright _

theorem fields_trimSpace (s : GoString) : fields (trimSpace s) = fields s :=
  apply_trimSpace fields (fun _ s hc => fields_cons_space hc s)
    (fun _ s hc => fields_concat_space hc s) s

theorem fields_before_trimSpace (s : GoString) :
    fields (before (trimSpace s) '#') = fields (before s '#') :=
  apply_trimSpace (fun t => fields (before t '#')) (fun _ s hc => fields_before_cons hc s)
    (fun _ s hc => fields_before_concat hc s) s

end GoString

/-! ### The hosts format -/

/-- The addresses in front of the names that a hosts file blocks. -/
def IsAddress (field : GoString) : Prop :=
  field = "127.0.0.1".toList ∨ field = "0.0.0.0".toList ∨ field = "::1".toList

instance (field : GoString) : Decidable (IsAddress field) := inferInstanceAs (Decidable (_ ∨ _))

/-- The names on a line in front of its comment: all names behind an address, or the only
field of the line. -/
def hostNames (line : GoString) : List GoString :=
  match fields (before line '#') with
  | [] => []
  | [domain] => [domain]
  | address :: names => if IsAddress address then names else []

/-- The names on the lines of a text. -/
def textNames (text : GoString) : List GoString := (rawLines text).flatMap hostNames

/-- A text whose lines fit into the buffer of the scanner. -/
def Scannable (text : GoString) : Prop := ∀ line ∈ rawLines text, line.byteLen < maxScanTokenSize

instance (text : GoString) : Decidable (Scannable text) :=
  inferInstanceAs (Decidable (∀ _ ∈ _, _))

theorem hostNames_trimSpace (line : GoString) : hostNames (trimSpace line) = hostNames line := by
  rw [hostNames, hostNames, fields_before_trimSpace]

theorem ne_nil_of_mem_hostNames {line name : GoString} (h : name ∈ hostNames line) :
    name ≠ [] := by
  have hfields : ∀ f ∈ fields (before line '#'), f ≠ [] := fun f => ne_nil_of_mem_fields
  rw [hostNames] at h
  split at h
  next => cases h
  next domain heq =>
    rw [heq] at hfields
    exact hfields name h
  next address names _ heq =>
    rw [heq] at hfields
    split_ifs at h
    · exact hfields name (List.mem_cons_of_mem _ h)
    · cases h

/-- `parseLine` cuts off a comment before it divides the line into fields. -/
theorem parseLine_eq (line : GoString) : parseLine line = (hostNames line).head?.getD [] := by
  have hfields : fields (if '#' ∈ line then trimSpace (before line '#') else line) =
      fields (before line '#') := by
    split_ifs with h
    · exact fields_trimSpace _
    · rw [before, List.takeWhile_eq_self_iff.2]
      intro c hc
      simpa using ne_of_mem_of_not_mem hc h
  rw [parseLine, hostNames, ← hfields]
  generalize (if '#' ∈ line then trimSpace (before line '#') else line) = cut
  by_cases hcut : cut = []
  · rw [hcut, fields_nil, if_pos rfl]
    rfl
  · rw [if_neg hcut]
    rcases fields cut with - | ⟨f, - | ⟨g, fs⟩⟩
    · rfl
    · rfl
    · dsimp only
      by_cases hf : IsAddress f
      · rw [if_pos hf]
        exact if_pos hf
      · rw [if_neg hf]
        exact if_neg hf

/-- The scanning loops keep the first name of a line. -/
theorem lineDomain_eq (text : GoString) : lineDomain text = (hostNames text).head? := by
  rw [lineDomain, ← hostNames_trimSpace, parseLine_eq]
  dsimp only
  split_ifs with hskip hnil
  · -- neither an empty line nor a comment line has a field
    have hbefore : before (trimSpace text) '#' = [] := by
      rcases hskip with h | h
      · rw [h]
        rfl
      · obtain ⟨t, ht⟩ := List.isPrefixOf_iff_prefix.1 h
        rw [← ht]
        rfl
    rw [hostNames, hbefore, fields_nil]
    rfl
  · cases hhead : (hostNames (trimSpace text)).head? with
    | none => rfl
    | some name =>
      rw [hhead] at hnil
      exact absurd hnil (ne_nil_of_mem_hostNames (List.mem_of_head? hhead))
  · cases hhead : (hostNames (trimSpace text)).head? with
    | none =>
      rw [hhead] at hnil
      exact absurd rfl hnil
    | some name => rfl

theorem hostNames_dropCR (line : GoString) : hostNames (dropCR line) = hostNames line := by
  rw [dropCR]
  split_ifs with h
  · obtain ⟨t, rfl⟩ := List.getLast?_eq_some_iff.1 h
    rw [List.dropLast_concat, hostNames, hostNames, fields_before_concat (by decide)]
  · rfl

/-- A scannable text yields the first name of each line. -/
theorem scanDomains_of_scannable {text : GoString} (h : Scannable text) :
    scanDomains text = ((rawLines text).filterMap fun line => (hostNames line).head?, false) := by
  have hfits : ∀ l ∈ rawLines text, decide (l.byteLen < maxScanTokenSize) = true :=
    fun l hl => decide_eq_true (h l hl)
  rw [scanDomains_eq, scanLines, List.takeWhile_eq_self_iff.2 hfits, List.all_eq_true.2 hfits]
  simp [List.filterMap_map, lineDomain_eq, hostNames_dropCR]

section Hosts

variable [Unicode]

theorem mem_normalized_flatMap {ls : List GoString} {f : GoString → List GoString} {p : GoString} :
    p ∈ normalized (ls.flatMap f) ↔ ∃ line ∈ ls, ∃ name ∈ f line, normalize name = p := by
  rw [mem_normalized]
  simp only [List.mem_flatMap]
  constructor
  · rintro ⟨d, ⟨line, hline, hd⟩, hp⟩
    exact ⟨line, hline, d, hd, hp⟩
  · rintro ⟨line, hline, d, hd, hp⟩
    exact ⟨d, ⟨line, hline, hd⟩, hp⟩

/-- Only the first name of each line is kept, so that all names are there exactly when every
further name on a line is, once normalised, also the first name of some line. -/
theorem normalized_scanDomains_iff {text : GoString} (h : Scannable text) :
    normalized (scanDomains text).1 = normalized (textNames text) ↔
      ∀ line ∈ rawLines text, ∀ name ∈ (hostNames line).tail, ∃ line' ∈ rawLines text,
        ∃ first ∈ (hostNames line').head?, normalize first = normalize name := by
  have hmem : ∀ p, p ∈ normalized (scanDomains text).1 ↔
      ∃ line ∈ rawLines text, ∃ first ∈ (hostNames line).head?, normalize first = p := by
    intro p
    rw [scanDomains_of_scannable h, List.filterMap_eq_flatMap_toList, mem_normalized_flatMap]
    simp only [Option.mem_toList, Option.mem_def]
  have hall : ∀ p, p ∈ normalized (textNames text) ↔
      ∃ line ∈ rawLines text, ∃ name ∈ hostNames line, normalize name = p := fun p =>
    mem_normalized_flatMap
  constructor
  · intro heq line hline name hname
    have hp : normalize name ∈ normalized (textNames text) :=
      (hall _).2 ⟨line, hline, name, List.mem_of_mem_tail hname, rfl⟩
    rw [← heq] at hp
    exact (hmem _).1 hp
  · intro hfirst
    ext p
    rw [hmem, hall]
    constructor
    · rintro ⟨line, hline, d, hd, hp⟩
      exact ⟨line, hline, d, List.mem_of_head? hd, hp⟩
    · rintro ⟨line, hline, name, hname, rfl⟩
      obtain ⟨first, rest, hnames⟩ := List.exists_cons_of_ne_nil (List.ne_nil_of_mem hname)
      rw [hnames] at hname
      rcases List.mem_cons.1 hname with rfl | hrest
      · exact ⟨line, hline, name, by rw [hnames]; rfl, rfl⟩
      · exact hfirst line hline name (by rwa [hnames])

/-- A text leaves all its names in the blacklist, and yields them when it is downloaded,
exactly when no line has a further name that no line has first.  `Blacklist.Add` sees the runes
of a downloaded domain. -/
theorem hosts_complete_iff (b : Blacklist) {text : GoString} (hlen : text.byteLen ≤ bodyLimit)
    (hlines : Scannable text) :
    ((b.loadFromFile (some text)).1.domains = b.domains ∪ normalized (textNames text) ∧
        normalized ((fetchDomains (.response ⟨200, encode text, none⟩)).1.map runes) =
          normalized (textNames text)) ↔
      ∀ line ∈ rawLines text, ∀ name ∈ (hostNames line).tail, ∃ line' ∈ rawLines text,
        ∃ first ∈ (hostNames line').head?, normalize first = normalize name := by
  have hrunes : ((scanDomains text).1.map encode).map runes = (scanDomains text).1 := by
    rw [List.map_map]
    exact (List.map_congr_left fun d _ => runes_encode d).trans (List.map_id _)
  rw [← normalized_scanDomains_iff hlines, fetchDomains_encode hlen, hrunes]
  have hload : (b.loadFromFile (some text)).1.domains =
      b.domains ∪ normalized (scanDomains text).1 := domains_addAll b _
  rw [hload]
  constructor
  · exact fun h => h.2
  · intro h
    exact ⟨by rw [h], h⟩

end Hosts

theorem hosts_complete_one_name :
    letI := asciiTable
    let text := "# ads\n0.0.0.0 ads.test\nTRACK.test # plain\n".toList
    (new.loadFromFile (some text)).1.domains =
        new.domains ∪ normalized (textNames text) ∧
      normalized ((fetchDomains (.response ⟨200, encode text, none⟩)).1.map runes) =
        normalized (textNames text) := by
  let := asciiTable
  exact (hosts_complete_iff new (by decide) (by decide)).2 (by decide)

/-- The second name behind an address is dropped. -/
theorem hosts_complete_fails :
    letI := asciiTable
    let text := "0.0.0.0 a.test b.test\n".toList
    Scannable text ∧ byteLen text ≤ bodyLimit ∧
      (new.loadFromFile (some text)).1.domains = {"a.test.".toList} ∧
      new.domains ∪ normalized (textNames text) = {"a.test.".toList, "b.test.".toList} := by
  decide +kernel

end DnsFilter
