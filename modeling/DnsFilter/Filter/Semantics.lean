import DnsFilter.Filter.Blacklist
import DnsFilter.Lib.Run

/-!
# Blacklists as sets of domains

What a `Blacklist` contains after any sequence of operations.

* `join_drop_split_iff`: the strings that `Contains` puts together from the labels of a name
  are the parts of the name behind one of its dots;
* `covers_iff`: an entry covers itself and its subdomains, at a label boundary;
* `Variant.normalize_eq`: letter case, surrounding space and a trailing dot do not matter;
* `blacklist_contains_iff`: a lookup succeeds exactly for the names covered by a domain whose
  most recent operation is an insertion.
-/

namespace DnsFilter

open EventRun GoString

namespace GoString

/-! ### Splitting and joining -/

theorem split_cons_self (s : GoString) (sep : Char) :
    split (sep :: s) sep = [] :: split s sep := by
  simp [split, List.splitOn, List.splitOnP_cons_eq_if_modifyHead]

theorem split_cons_of_ne {c sep : Char} (h : c ≠ sep) (s : GoString) :
    split (c :: s) sep = (split s sep).modifyHead (List.cons c) := by
  simp [split, List.splitOn, List.splitOnP_cons_eq_if_modifyHead, h]

theorem split_ne_nil (s : GoString) (sep : Char) : split s sep ≠ [] := List.splitOnP_ne_nil _ _

theorem join_split (s : GoString) (sep : Char) : join (split s sep) sep = s :=
  List.intercalate_splitOn sep

/-- Behind the `i`-th separator stand the joined parts from the `i`-th on. -/
theorem join_drop_split_iff {s p : GoString} {sep : Char} :
    (∃ i, 1 ≤ i ∧ i < (split s sep).length ∧ join ((split s sep).drop i) sep = p) ↔
      sep :: p <:+ s := by
  induction s with
  | nil => simp [split, List.splitOn]
  | cons c s ih =>
    rw [List.suffix_cons_iff, ← ih]
    by_cases hc : c = sep
    · subst hc
      rw [split_cons_self]
      constructor
      · rintro ⟨i, h1, hi, hp⟩
        obtain ⟨j, rfl⟩ := Nat.exists_eq_add_of_le' h1
        rw [List.drop_succ_cons] at hp
        rcases Nat.eq_zero_or_pos j with rfl | hj
        · left
          rw [← hp, List.drop_zero, join_split]
        · exact .inr ⟨j, hj, by simpa using hi, hp⟩
      · rintro (hp | ⟨j, hj, hlt, hp⟩)
        · obtain rfl := (List.cons.inj hp).2
          refine ⟨1, le_rfl, ?_, by rw [List.drop_one, List.tail_cons, join_split]⟩
          simpa using List.length_pos_of_ne_nil (split_ne_nil p c)
        · exact ⟨j + 1, by omega, by simpa using hlt, hp⟩
    · -- the first part only gets longer
      have hne : sep :: p ≠ c :: s := fun h => hc (List.cons.inj h).1.symm
      rw [split_cons_of_ne hc, or_iff_right hne]
      obtain ⟨part, parts, hsplit⟩ := List.exists_cons_of_ne_nil (split_ne_nil s sep)
      rw [hsplit, List.modifyHead_cons]
      refine exists_congr fun i => and_congr_right fun h1 => ?_
      obtain ⟨j, rfl⟩ := Nat.exists_eq_add_of_le' h1
      rw [List.drop_succ_cons, List.drop_succ_cons, List.length_cons, List.length_cons]

theorem eq_singleton_of_join_eq_nil {parts : List GoString} {sep : Char} (hne : parts ≠ [])
    (h : join parts sep = []) : parts = [[]] := by
  match parts, hne with
  | [part], _ => simpa [join] using h
  | part :: next :: rest, _ => simp [join, List.intercalate] at h

theorem getLast?_split_eq_nil {s : GoString} {sep : Char} (h : [sep] <:+ s) :
    (split s sep).getLast? = some [] := by
  obtain ⟨i, -, hi, hjoin⟩ := join_drop_split_iff.2 h
  have hne : (split s sep).drop i ≠ [] := by simpa using hi
  have hdrop := eq_singleton_of_join_eq_nil hne hjoin
  rw [← List.take_append_drop i (split s sep), hdrop, List.getLast?_append]
  rfl

/-! ### Trimming -/

theorem trimSpace_surrounded {l s r : GoString} (hl : ∀ c ∈ l, isSpace c)
    (hr : ∀ c ∈ r, isSpace c) : trimSpace (l ++ s ++ r) = trimSpace s := by
  unfold trimSpace
  rw [List.append_assoc, List.dropWhile_append_of_pos hl, List.dropWhile_append]
  split_ifs with hs
  · rw [List.isEmpty_iff.1 hs, List.dropWhile_eq_nil_iff.2 hr]
  · rw [List.reverse_append,
      List.dropWhile_append_of_pos fun c hc => hr c (List.mem_reverse.1 hc)]

/-- Without a space at its end, a string is trimmed on the left only. -/
theorem trimSpace_of_getLast? {s : GoString} (h : ∀ c ∈ s.getLast?, isSpace c = false) :
    trimSpace s = s.dropWhile isSpace := by
  rcases List.eq_nil_or_concat (s.dropWhile isSpace) with hs | ⟨t, c, hs⟩
  · simp [trimSpace, hs]
  · have hc : isSpace c = false := by
      apply h c
      rw [← List.takeWhile_append_dropWhile (p := isSpace) (l := s), hs]
      simp
    simp [trimSpace, hs, hc]

end GoString

section Lookups

variable [Unicode]

theorem dot_suffix_normalize (d : GoString) : ['.'] <:+ normalize d := by
  unfold normalize
  dsimp only
  split_ifs with h
  · exact List.isSuffixOf_iff_suffix.1 h
  · exact List.suffix_append _ _

theorem normalize_ne_nil (d : GoString) : normalize d ≠ [] := by
  intro h
  simpa [h] using dot_suffix_normalize d

/-- The entries that make a lookup of `q` succeed: the name itself, and what stands behind one
of its dots. -/
theorem mem_candidates_iff {q p : GoString} (hp : p ≠ []) :
    p ∈ Blacklist.candidates q ↔ normalize q = p ∨ '.' :: p <:+ normalize q := by
  have hlast := getLast?_split_eq_nil (dot_suffix_normalize q)
  rw [← join_drop_split_iff]
  simp only [Blacklist.candidates, List.mem_cons, List.mem_map, List.mem_range'_1]
  refine or_congr eq_comm (exists_congr fun i => ?_)
  constructor
  · rintro ⟨⟨h1, hi⟩, hjoin⟩
    exact ⟨h1, by omega, hjoin⟩
  · rintro ⟨h1, hi, hjoin⟩
    refine ⟨⟨h1, ?_⟩, hjoin⟩
    -- the last part, which the loop leaves out, is empty
    by_contra hge
    apply hp
    have hi' : i = (split (normalize q) '.').length - 1 := by omega
    obtain ⟨parts, hparts⟩ := List.getLast?_eq_some_iff.1 hlast
    rw [← hjoin, hi']
    simp [hparts, join]

/-- An entry covers itself and its subdomains, at a label boundary. -/
theorem covers_iff {d q : GoString} :
    Blacklist.Covers d q ↔
      normalize q = normalize d ∨ '.' :: normalize d <:+ normalize q :=
  mem_candidates_iff (normalize_ne_nil d)

/-! ### Spellings of a name -/

/-- Two characters that differ in letter case only; spaces are not letters. -/
def SameLetter (c c' : Char) : Prop :=
  c = c' ∨ isSpace c = false ∧ isSpace c' = false ∧ Unicode.toLower c = Unicode.toLower c'

instance (c c' : Char) : Decidable (SameLetter c c') := inferInstanceAs (Decidable (_ ∨ _))

/-- One difference between two spellings of a domain that is not meant to matter. -/
inductive Respelled : GoString → GoString → Prop
  | letterCase {s t : GoString} (h : List.Forall₂ SameLetter s t) : Respelled s t
  | space (l s r : GoString) (hl : ∀ c ∈ l, isSpace c) (hr : ∀ c ∈ r, isSpace c) :
      Respelled s (l ++ s ++ r)
  | trailingDot (s : GoString) (h : ∀ c ∈ s.getLast?, isSpace c = false ∧ c ≠ '.') :
      Respelled s (s ++ ['.'])

/-- Spellings of one domain, any number of differences apart. -/
abbrev Variant : GoString → GoString → Prop := Relation.EqvGen Respelled

theorem SameLetter.isSpace_eq {c c' : Char} (h : SameLetter c c') : isSpace c = isSpace c' := by
  rcases h with rfl | ⟨hc, hc', -⟩
  · rfl
  · rw [hc, hc']

theorem SameLetter.toLower_eq {c c' : Char} (h : SameLetter c c') :
    Unicode.toLower c = Unicode.toLower c' := by
  rcases h with rfl | ⟨-, -, h⟩
  · rfl
  · exact h

theorem forall₂_dropWhile_isSpace {s t : GoString} (h : List.Forall₂ SameLetter s t) :
    List.Forall₂ SameLetter (s.dropWhile isSpace) (t.dropWhile isSpace) := by
  induction h with
  | nil => exact .nil
  | @cons c c' s t hc hst ih =>
    rw [List.dropWhile_cons, List.dropWhile_cons, hc.isSpace_eq]
    split_ifs
    · exact ih
    · exact .cons hc hst

theorem forall₂_trimSpace {s t : GoString} (h : List.Forall₂ SameLetter s t) :
    List.Forall₂ SameLetter (trimSpace s) (trimSpace t) :=
  List.rel_reverse (forall₂_dropWhile_isSpace (List.rel_reverse (forall₂_dropWhile_isSpace h)))

theorem toLower_eq_of_forall₂ {s t : GoString} (h : List.Forall₂ SameLetter s t) :
    toLower s = toLower t := by
  induction h with
  | nil => rfl
  | cons hc _ ih => exact congrArg₂ List.cons hc.toLower_eq ih

theorem toLower_eq_dot {c : Char} (h : Unicode.toLower c = '.') : c = '.' := by
  rw [← h]
  exact (Unicode.toLower_eq_self c (by rw [h]; decide) (by rw [h]; decide)).symm

theorem normalize_append_dot {s : GoString}
    (h : ∀ c ∈ s.getLast?, isSpace c = false ∧ c ≠ '.') : normalize (s ++ ['.']) = normalize s := by
  have hdot : Unicode.toLower '.' = '.' := Unicode.toLower_ascii '.' (by decide)
  have htrim : trimSpace s = s.dropWhile isSpace := trimSpace_of_getLast? fun c hc => (h c hc).1
  have htrim' : trimSpace (s ++ ['.']) = trimSpace s ++ ['.'] := by
    rw [trimSpace_of_getLast? (by simp; decide), htrim, List.dropWhile_append]
    split_ifs with hs
    · rw [List.isEmpty_iff.1 hs]
      decide
    · rfl
  -- the trimmed name does not end with a dot of its own
  have hlast : ¬ hasSuffix (toLower (trimSpace s)) ".".toList := by
    intro hsuf
    have hmem : '.' ∈ (toLower (trimSpace s)).getLast? := by
      obtain ⟨t, ht⟩ := List.isSuffixOf_iff_suffix.1 hsuf
      rw [← ht]
      simp
    rw [htrim, toLower, List.getLast?_map] at hmem
    obtain ⟨c, hc, hlow⟩ := Option.map_eq_some_iff.1 hmem
    have hcs : c ∈ s.getLast? := by
      obtain ⟨t, ht⟩ := List.getLast?_eq_some_iff.1 hc
      rw [← List.takeWhile_append_dropWhile (p := isSpace) (l := s), ht]
      simp
    exact (h c hcs).2 (toLower_eq_dot hlow)
  unfold normalize
  dsimp only
  rw [htrim', if_neg hlast, if_pos]
  · simp [toLower, hdot]
  · simp [toLower, hdot, hasSuffix]

theorem Respelled.normalize_eq {s t : GoString} (h : Respelled s t) :
    normalize s = normalize t := by
  cases h with
  | letterCase h =>
    unfold normalize
    rw [toLower_eq_of_forall₂ (forall₂_trimSpace h)]
  | space l _ r hl hr =>
    unfold normalize
    rw [trimSpace_surrounded hl hr]
  | trailingDot _ h => exact (normalize_append_dot h).symm

/-- Letter case, surrounding space and a trailing dot do not matter. -/
theorem Variant.normalize_eq {s t : GoString} (h : Variant s t) : normalize s = normalize t := by
  induction h with
  | rel _ _ h => exact h.normalize_eq
  | refl => rfl
  | symm _ _ _ ih => exact ih.symm
  | trans _ _ _ _ _ ih₁ ih₂ => exact ih₁.trans ih₂

/-! ### Runs of operations -/

/-- The operations of a `Blacklist` that change it. -/
inductive BlacklistOp
  | add (domain : GoString)
  | remove (domain : GoString)
  | clear
  | loadFromFile (file : Option GoString)

namespace BlacklistOp

def apply (b : Blacklist) : BlacklistOp → Blacklist
  | add domain => b.add domain
  | remove domain => b.remove domain
  | clear => b.clear
  | loadFromFile file => (b.loadFromFile file).1

/-- What an operation does to the entry `p`: `some true` inserts it, `some false` deletes it,
and `none` leaves it alone. -/
def effect (p : GoString) : BlacklistOp → Option Bool
  | add domain => if normalize domain = p then some true else none
  | remove domain => if normalize domain = p then some false else none
  | clear => some false
  | loadFromFile none => none
  | loadFromFile (some text) =>
      if p ∈ Blacklist.normalized (scanDomains text).1 then some true else none

/-- The most recent effect on the entry `p`. -/
def lastEffect (p : GoString) (ops : List BlacklistOp) : Option Bool :=
  ops.reverse.findSome? (effect p)

/-- One operation. -/
theorem mem_apply {b : Blacklist} {op : BlacklistOp} {p : GoString} :
    p ∈ (apply b op).domains ↔ (effect p op).getD (decide (p ∈ b.domains)) = true := by
  cases op with
  | add domain =>
    by_cases h : normalize domain = p
    · simp [apply, effect, h]
    · simp [apply, effect, h, Ne.symm h]
  | remove domain =>
    by_cases h : normalize domain = p
    · simp [apply, effect, Blacklist.remove, h]
    · simp [apply, effect, Blacklist.remove, h, Ne.symm h]
  | clear => simp [apply, effect]
  | loadFromFile file =>
    cases file with
    | none => simp [apply, effect, Blacklist.loadFromFile]
    | some text =>
      by_cases h : p ∈ Blacklist.normalized (scanDomains text).1
      · simp [apply, effect, Blacklist.loadFromFile, h]
      · simp [apply, effect, Blacklist.loadFromFile, h]

theorem lastEffect_concat (p : GoString) (ops : List BlacklistOp) (op : BlacklistOp) :
    lastEffect p (ops ++ [op]) = (effect p op).or (lastEffect p ops) := by
  rw [lastEffect, List.reverse_concat, List.findSome?_cons]
  cases effect p op with
  | none => rfl
  | some mark => rfl

/-- A blacklist holds the entries whose most recent effect was an insertion. -/
theorem mem_run (ops : List BlacklistOp) (p : GoString) :
    p ∈ (run apply .new ops).domains ↔ lastEffect p ops = some true := by
  refine trace_invariant
    (fun ops (b : Blacklist) => p ∈ b.domains ↔ lastEffect p ops = some true) ?_ ?_ ops
  · simp [lastEffect]
  · intro ops op ih
    rw [mem_apply, lastEffect_concat]
    cases effect p op with
    | none => simpa using ih
    | some mark => simp

/-- One operation on two spellings of its domains. -/
inductive Variant : BlacklistOp → BlacklistOp → Prop
  | add {d d' : GoString} (h : DnsFilter.Variant d d') : Variant (add d) (add d')
  | remove {d d' : GoString} (h : DnsFilter.Variant d d') : Variant (remove d) (remove d')
  | clear : Variant clear clear
  | unreadable : Variant (loadFromFile none) (loadFromFile none)
  | loadFromFile {text text' : GoString}
      (h : List.Forall₂ DnsFilter.Variant (scanDomains text).1 (scanDomains text').1) :
      Variant (loadFromFile (some text)) (loadFromFile (some text'))

theorem normalized_eq_of_forall₂ {ds ds' : List GoString}
    (h : List.Forall₂ DnsFilter.Variant ds ds') :
    Blacklist.normalized ds = Blacklist.normalized ds' := by
  unfold Blacklist.normalized
  congr 1
  induction h with
  | nil => rfl
  | cons hd _ ih => exact congrArg₂ List.cons hd.normalize_eq ih

theorem Variant.effect_eq {op op' : BlacklistOp} (h : Variant op op') (p : GoString) :
    effect p op = effect p op' := by
  cases h with
  | add h => rw [effect, effect, h.normalize_eq]
  | remove h => rw [effect, effect, h.normalize_eq]
  | clear => rfl
  | unreadable => rfl
  | loadFromFile h => rw [effect, effect, normalized_eq_of_forall₂ h]

theorem lastEffect_eq_of_forall₂ {ops ops' : List BlacklistOp} (h : List.Forall₂ Variant ops ops')
    (p : GoString) : lastEffect p ops = lastEffect p ops' := by
  unfold lastEffect
  have hrev : List.Forall₂ Variant ops.reverse ops'.reverse := List.rel_reverse h
  generalize ops.reverse = rops, ops'.reverse = rops' at hrev
  induction hrev with
  | nil => rfl
  | cons hop _ ih => rw [List.findSome?_cons, List.findSome?_cons, hop.effect_eq, ih]

/-- Only normalised domains are inserted. -/
theorem exists_normalize_of_lastEffect {ops : List BlacklistOp} {p : GoString}
    (h : lastEffect p ops = some true) : ∃ d, normalize d = p := by
  obtain ⟨op, -, hop⟩ := List.exists_of_findSome?_eq_some h
  cases op with
  | add d => exact ⟨d, by simpa [effect] using hop⟩
  | remove d => simp [effect] at hop
  | clear => simp [effect] at hop
  | loadFromFile file =>
    cases file with
    | none => simp [effect] at hop
    | some text =>
      have hmem : p ∈ Blacklist.normalized (scanDomains text).1 := by simpa [effect] using hop
      obtain ⟨d, -, hd⟩ := Blacklist.mem_normalized.1 hmem
      exact ⟨d, hd⟩

end BlacklistOp

open BlacklistOp in
/-- **Blacklists are sets of domains.**  After any operations a lookup of `q` succeeds exactly
when some normalised domain, whose most recent effect was an insertion, is `q` or stands
behind a dot of `q`; respelling what was inserted, removed or asked changes nothing. -/
theorem blacklist_contains_iff (ops : List BlacklistOp) (q : GoString) :
    ((run apply .new ops).contains q ↔
      ∃ p, (∃ d, normalize d = p) ∧ lastEffect p ops = some true ∧
        (normalize q = p ∨ '.' :: p <:+ normalize q)) ∧
    ∀ ops' q', List.Forall₂ BlacklistOp.Variant ops ops' → Variant q q' →
      (run apply .new ops').contains q' = (run apply .new ops).contains q := by
  constructor
  · rw [Blacklist.contains_iff]
    refine exists_congr fun p => ?_
    rw [mem_run]
    constructor
    · rintro ⟨hp, hlast⟩
      obtain ⟨d, rfl⟩ := exists_normalize_of_lastEffect hlast
      exact ⟨⟨d, rfl⟩, hlast, covers_iff.1 hp⟩
    · rintro ⟨⟨d, rfl⟩, hlast, hq⟩
      exact ⟨covers_iff.2 hq, hlast⟩
  · intro ops' q' hops hq
    rw [Bool.eq_iff_iff, Blacklist.contains_iff, Blacklist.contains_iff]
    simp only [mem_run, lastEffect_eq_of_forall₂ hops, Blacklist.candidates, hq.normalize_eq]

end Lookups

open BlacklistOp in
/-- An entry in capitals matches a subdomain written as an FQDN. -/
theorem blacklist_contains_respelled :
    letI := asciiTable
    (run apply .new [.add "ADS.com".toList]).contains "x.ads.com.".toList = true := by
  have hcase : List.Forall₂ (@SameLetter asciiTable) "ads.com".toList "ADS.com".toList := by
    decide +kernel
  have hlast : @lastEffect asciiTable "ads.com.".toList [.add "ads.com".toList] = some true := by
    decide +kernel
  have hsub : '.' :: "ads.com.".toList <:+ @normalize asciiTable "x.ads.com".toList := by
    decide +kernel
  let := asciiTable
  have hops : List.Forall₂ BlacklistOp.Variant [.add "ads.com".toList] [.add "ADS.com".toList] :=
    .cons (.add (.rel _ _ (.letterCase hcase))) .nil
  have hend : ∀ c ∈ "x.ads.com".toList.getLast?, isSpace c = false ∧ c ≠ '.' := by
    simp
    decide
  have hq : Variant "x.ads.com".toList "x.ads.com.".toList := .rel _ _ (.trailingDot _ hend)
  rw [(blacklist_contains_iff _ _).2 _ _ hops hq, (blacklist_contains_iff _ _).1]
  exact ⟨_, exists_normalize_of_lastEffect hlast, hlast, .inr hsub⟩

end DnsFilter
