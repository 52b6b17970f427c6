import Mathlib.Tactic

/-!
# First match in a ranked list

A first-match lookup `l.find? p` answers with the label of its match.  The answer is *best*
when some match of greatest rank carries the same label.  A list sorted by descending rank
answers best, and appending one element keeps this exactly when the new element carries
the label of the first match or does not outrank every match.

When equal ranks may be sorted in either order, `Answers` are the labels that a first match can
carry, and `answer_mem_answers_concat` tells when an append keeps a list in line with them.
-/

namespace FirstMatch

variable {α γ : Type*} (p : α → Bool) (rank : α → ℕ) (label : α → γ)

/-- The first match of `l` carries the label of a match of greatest rank. -/
def FindsBest (l : List α) : Prop :=
  ∀ a, l.find? p = some a → ∃ b ∈ l, p b ∧ label b = label a ∧ ∀ c ∈ l, p c → rank c ≤ rank b

variable {p rank label}

theorem rank_le_of_sorted {l : List α} (h : l.Pairwise fun a b => rank b ≤ rank a) {a : α}
    (ha : l.find? p = some a) {b : α} (hb : b ∈ l) (hpb : p b) : rank b ≤ rank a := by
  induction l with
  | nil => simp at hb
  | cons c l ih =>
    rw [List.pairwise_cons] at h
    by_cases hc : p c
    · obtain rfl : c = a := by simpa [hc] using ha
      rcases List.mem_cons.1 hb with rfl | hb
      · exact le_rfl
      · exact h.1 b hb
    · have ha' : l.find? p = some a := by simpa [hc] using ha
      rcases List.mem_cons.1 hb with rfl | hb
      · exact absurd hpb hc
      · exact ih h.2 ha' hb

theorem findsBest_of_sorted {l : List α} (h : l.Pairwise fun a b => rank b ≤ rank a) :
    FindsBest p rank label l := fun a ha =>
  ⟨a, List.mem_of_find?_eq_some ha, List.find?_some ha, rfl, fun _ hb hpb =>
    rank_le_of_sorted h ha hb hpb⟩

/-- Appending `c` keeps the answers best exactly when `c` agrees with the first match or is
matched in rank. -/
theorem findsBest_concat {l : List α} (hl : FindsBest p rank label l) {c : α} :
    FindsBest p rank label (l ++ [c]) ↔
      (p c → ∀ a, l.find? p = some a →
        label c = label a ∨ ∃ b ∈ l, p b ∧ rank c ≤ rank b) := by
  constructor
  · intro h hpc a ha
    obtain ⟨b, hb, hpb, hlabel, hmax⟩ := h a (by simp [List.find?_append, ha])
    rcases List.mem_append.1 hb with hb | hb
    · exact .inr ⟨b, hb, hpb, hmax c (by simp) hpc⟩
    · obtain rfl : b = c := by simpa using hb
      exact .inl hlabel
  · intro h a ha
    cases hf : l.find? p with
    | some a' =>
      obtain rfl : a' = a := by simpa [List.find?_append, hf] using ha
      obtain ⟨b, hb, hpb, hlabel, hmax⟩ := hl a' hf
      by_cases hcb : p c ∧ rank b < rank c
      · -- the new element outranks every earlier match
        refine ⟨c, by simp, hcb.1, ?_, ?_⟩
        · refine (h hcb.1 a' hf).resolve_right ?_
          rintro ⟨d, hd, hpd, hcd⟩
          exact absurd (hmax d hd hpd) (by omega)
        · intro d hd hpd
          rcases List.mem_append.1 hd with hd | hd
          · exact (hmax d hd hpd).trans hcb.2.le
          · obtain rfl : d = c := by simpa using hd
            exact le_rfl
      · refine ⟨b, by simp [hb], hpb, hlabel, ?_⟩
        intro d hd hpd
        rcases List.mem_append.1 hd with hd | hd
        · exact hmax d hd hpd
        · obtain rfl : d = c := by simpa using hd
          exact not_lt.1 fun hlt => hcb ⟨hpd, hlt⟩
    | none =>
      -- no earlier match: the new element is the only one
      obtain ⟨rfl, hpa⟩ : c = a ∧ p a := by
        simp only [List.find?_append, hf, Option.none_or, List.find?_singleton] at ha
        split_ifs at ha with hpc
        cases ha
        exact ⟨rfl, hpc⟩
      refine ⟨c, by simp, hpa, rfl, fun d hd hpd => ?_⟩
      rcases List.mem_append.1 hd with hd | hd
      · exact absurd hpd (List.find?_eq_none.1 hf d hd)
      · obtain rfl : d = c := by simpa using hd
        exact le_rfl

/-! ### Lists sorted anew -/

variable (p rank label) in
/-- The labels of the matches of greatest rank, or `d` if nothing matches. -/
def Answers (d : γ) (l : List α) : Set γ :=
  {g | (∃ a ∈ l, p a ∧ (∀ b ∈ l, p b → rank b ≤ rank a) ∧ label a = g) ∨
    (∀ a ∈ l, ¬ p a) ∧ d = g}

variable (p label) in
/-- The label of the first match, or `d` if nothing matches. -/
def answer (d : γ) (l : List α) : γ := ((l.find? p).map label).getD d

variable {d : γ}

theorem answer_mem_answers_of_sorted {l : List α} (h : l.Pairwise fun a b => rank b ≤ rank a) :
    answer p label d l ∈ Answers p rank label d l := by
  cases hf : l.find? p with
  | some a =>
    exact .inl ⟨a, List.mem_of_find?_eq_some hf, List.find?_some hf,
      fun b hb hpb => rank_le_of_sorted h hf hb hpb, by simp [answer, hf]⟩
  | none => exact .inr ⟨List.find?_eq_none.1 hf, by simp [answer, hf]⟩

theorem answers_perm {l l' : List α} (h : l.Perm l') :
    Answers p rank label d l = Answers p rank label d l' := by
  simp only [Answers, h.mem_iff]

/-- Every list has a sorted arrangement. -/
theorem exists_sorted (rank : α → ℕ) (l : List α) :
    ∃ l' : List α, l'.Perm l ∧ l'.Pairwise fun a b => rank b ≤ rank a := by
  let r : α → α → Prop := fun a b => rank b ≤ rank a
  have : IsTrans α r := ⟨fun _ _ _ hab hbc => le_trans hbc hab⟩
  have : Std.Total r := ⟨fun a b => le_total (rank b) (rank a)⟩
  exact ⟨l.insertionSort r, List.perm_insertionSort r l, List.pairwise_insertionSort r l⟩

/-- Elements that match only where another one with the same label does make no difference. -/
theorem answers_of_covered {l : List α} {a : α} (ha : a ∈ l)
    (hl : ∀ b ∈ l, label b = label a ∧ (p b → p a)) :
    Answers p rank label d l = {if p a then label a else d} := by
  have hsub : ∀ g ∈ Answers p rank label d l, g = if p a then label a else d := by
    rintro g (⟨b, hb, hpb, -, rfl⟩ | ⟨hnone, rfl⟩)
    · rw [if_pos ((hl b hb).2 hpb), (hl b hb).1]
    · rw [if_neg (hnone a ha)]
  obtain ⟨l', hperm, hsorted⟩ := exists_sorted rank l
  have hmem : answer p label d l' ∈ Answers p rank label d l :=
    answers_perm hperm ▸ answer_mem_answers_of_sorted hsorted
  ext g
  refine ⟨hsub g, fun hg => ?_⟩
  rw [Set.mem_singleton_iff.1 hg, ← hsub _ hmem]
  exact hmem

/-- Any match of greatest rank comes first in some sorted arrangement. -/
theorem exists_sorted_find? {l : List α} {a : α} (ha : a ∈ l) (hpa : p a)
    (hmax : ∀ b ∈ l, p b → rank b ≤ rank a) :
    ∃ l' : List α, l'.Perm l ∧ (l'.Pairwise fun a b => rank b ≤ rank a) ∧ l'.find? p = some a := by
  obtain ⟨s, t, rfl⟩ := List.append_of_mem ha
  obtain ⟨l, hperm, hsorted⟩ := exists_sorted rank (s ++ t)
  let r : α → α → Prop := fun a b => rank b ≤ rank a
  have : IsTrans α r := ⟨fun _ _ _ hab hbc => le_trans hbc hab⟩
  have : Std.Total r := ⟨fun a b => le_total (rank b) (rank a)⟩
  have hmax' : ∀ b ∈ l, p b → rank b ≤ rank a := fun b hb => hmax b <| by
    rw [hperm.mem_iff] at hb
    rcases List.mem_append.1 hb with hb | hb <;> simp [hb]
  refine ⟨l.orderedInsert r a, (List.perm_orderedInsert r a l).trans
    ((hperm.cons a).trans List.perm_middle.symm), hsorted.orderedInsert a l, ?_⟩
  -- `a` is inserted behind longer elements only, which do not match
  clear hperm hsorted
  induction l with
  | nil => simp [hpa]
  | cons b l ih =>
    obtain ⟨hb, hl⟩ := List.forall_mem_cons.1 hmax'
    rw [List.orderedInsert_cons]
    split_ifs with hab
    · simp [hpa]
    · have hpb : ¬ p b := fun hpb => hab (hb hpb)
      rw [List.find?_cons_of_neg hpb, ih hl]

theorem answers_concat_of_not {l : List α} {c : α} (hpc : ¬ p c) :
    Answers p rank label d (l ++ [c]) = Answers p rank label d l := by
  ext g
  simp only [Answers, Set.mem_ofPred_eq, List.mem_append, List.mem_singleton, or_and_right,
    exists_or, exists_eq_left, hpc, false_and, or_false, or_imp, forall_and, forall_eq,
    false_imp_iff, and_true, not_false_eq_true, Bool.false_eq_true]

/-- A matching element takes over where it is not outranked, and changes nothing where it is
matched in rank. -/
theorem mem_answers_concat {l : List α} {c : α} (hpc : p c) {g : γ} :
    g ∈ Answers p rank label d (l ++ [c]) ↔
      (∃ b ∈ l, p b ∧ rank c ≤ rank b) ∧ g ∈ Answers p rank label d l ∨
        label c = g ∧ ∀ b ∈ l, p b → rank b ≤ rank c := by
  have hlast : c ∈ l ++ [c] := by simp
  constructor
  · rintro (⟨a, ha, hpa, hmax, rfl⟩ | ⟨hnone, -⟩)
    · have hmax' : ∀ b ∈ l, p b → rank b ≤ rank a :=
        fun b hb => hmax b (List.mem_append_left _ hb)
      rcases List.mem_append.1 ha with ha | ha
      · exact .inl ⟨⟨a, ha, hpa, hmax c hlast hpc⟩, .inl ⟨a, ha, hpa, hmax', rfl⟩⟩
      · obtain rfl := List.mem_singleton.1 ha
        exact .inr ⟨rfl, hmax'⟩
    · exact absurd hpc (hnone c hlast)
  · rintro (⟨⟨b, hb, hpb, hcb⟩, ⟨a, ha, hpa, hmax, rfl⟩ | ⟨hnone, -⟩⟩ | ⟨rfl, hmax⟩)
    · refine .inl ⟨a, List.mem_append_left _ ha, hpa, fun b' hb' hpb' => ?_, rfl⟩
      rcases List.mem_append.1 hb' with hb' | hb'
      · exact hmax b' hb' hpb'
      · obtain rfl := List.mem_singleton.1 hb'
        exact hcb.trans (hmax b hb hpb)
    · exact absurd hpb (hnone b hb)
    · refine .inl ⟨c, hlast, hpc, fun b hb hpb => ?_, rfl⟩
      rcases List.mem_append.1 hb with hb | hb
      · exact hmax b hb hpb
      · rw [List.mem_singleton.1 hb]

/-- Appending one element to a list `m` that answers in line with `l`, and to `l`, keeps `m` in
line exactly when the new element agrees with the first match or is matched in rank in `l`,
or, if nothing matches in `m`, when it is not outranked in `l` by another answer. -/
theorem answer_mem_answers_concat {l m : List α}
    (h : answer p label d m ∈ Answers p rank label d l) {c : α} :
    answer p label d (m ++ [c]) ∈ Answers p rank label d (l ++ [c]) ↔
      (p c → (∀ a, m.find? p = some a → label c = label a ∨ ∃ b ∈ l, p b ∧ rank c ≤ rank b) ∧
        (m.find? p = none →
          label c ∈ Answers p rank label d l ∨ ∀ b ∈ l, p b → rank b ≤ rank c)) := by
  by_cases hpc : p c
  · have hmax : ¬ (∃ b ∈ l, p b ∧ rank c ≤ rank b) → ∀ b ∈ l, p b → rank b ≤ rank c :=
      fun hno b hb hpb => le_of_not_ge fun hcb => hno ⟨b, hb, hpb, hcb⟩
    rw [mem_answers_concat hpc]
    cases hf : m.find? p with
    | some a =>
      have ha : answer p label d m = label a := by simp [answer, hf]
      have hconcat : answer p label d (m ++ [c]) = label a := by
        simp [answer, List.find?_append, hf]
      rw [ha] at h
      simp only [hconcat, hpc, h, and_true, true_imp_iff, Option.some.injEq, forall_eq',
        reduceCtorEq, false_imp_iff]
      by_cases hmatched : ∃ b ∈ l, p b ∧ rank c ≤ rank b
      · simp only [hmatched, true_or, or_true]
      · simp only [hmatched, false_or, or_false, and_iff_left (hmax hmatched)]
    | none =>
      have hconcat : answer p label d (m ++ [c]) = label c := by
        simp [answer, List.find?_append, hf, hpc]
      simp only [hconcat, hpc, true_imp_iff, reduceCtorEq, false_imp_iff, implies_true, true_and]
      by_cases hmatched : ∃ b ∈ l, p b ∧ rank c ≤ rank b
      · simp only [hmatched, true_and]
      · exact iff_of_true (.inr (hmax hmatched)) (.inr (hmax hmatched))
  · rw [answers_concat_of_not hpc]
    simp only [hpc, false_imp_iff, iff_true, Bool.false_eq_true]
    rwa [show answer p label d (m ++ [c]) = answer p label d m by
      simp [answer, List.find?_append, hpc]]

end FirstMatch
