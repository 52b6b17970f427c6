import DnsFilter.Lib.Lines

/-!
# Clean paths

Rooted slash-separated paths, and the shortest path that leads to the same place.

* `clean`: no empty parts and no `.`, and a `..` takes the part before it back;
* `cleanKeepingSlash`: the same, but a slash at the end stays;
* `cleanKeepingSlash_eq_self_iff`: the paths that stay as they are;
* `cleanKeepingSlash_sublist`: cleaning only removes characters.
-/

namespace CleanPath

/-- The path of some parts. -/
def rooted (parts : List (List Char)) : List Char :=
  if parts = [] then ['/'] else parts.flatMap ('/' :: ·)

/-- One more part of a path. -/
def step (out : List (List Char)) (part : List Char) : List (List Char) :=
  if part = [] ∨ part = ['.'] then out
  else if part = ['.', '.'] then out.dropLast
  else out ++ [part]

/-- The parts that remain. -/
def remaining (path : List Char) : List (List Char) := (path.splitOn '/').foldl step []

/-- A path without detours. -/
def clean (path : List Char) : List Char := rooted (remaining path)

/-- A slash at the end is preserved. -/
def cleanKeepingSlash (path : List Char) : List Char :=
  if path.getLast? = some '/' ∧ (clean path).getLast? ≠ some '/' then clean path ++ ['/']
  else clean path

/-- A part that stands for itself. -/
def Ordinary (part : List Char) : Prop := part ≠ [] ∧ part ≠ ['.'] ∧ part ≠ ['.', '.'] ∧ '/' ∉ part

instance (part : List Char) : Decidable (Ordinary part) := inferInstanceAs (Decidable (_ ∧ _))

/-- All parts behind the first slash stand for themselves; the last may be empty. -/
def IsClean (path : List Char) : Prop :=
  (∀ part ∈ (path.splitOn '/').tail.dropLast, Ordinary part) ∧
    ∀ part ∈ (path.splitOn '/').getLast?, part = [] ∨ Ordinary part

instance (path : List Char) : Decidable (IsClean path) := inferInstanceAs (Decidable (_ ∧ _))

/-! ### Parts -/

theorem flatMap_splitOn (s : List Char) : (s.splitOn '/').flatMap ('/' :: ·) = '/' :: s := by
  induction s with
  | nil => rfl
  | cons c s ih =>
    obtain ⟨l, ls, h⟩ := List.exists_cons_of_ne_nil (List.splitOn_ne_nil '/' s)
    rw [h, List.flatMap_cons] at ih
    rw [List.splitOn_cons_eq_if_modifyHead, h]
    split_ifs with hc
    · rw [List.flatMap_cons, List.flatMap_cons, ih, beq_iff_eq.1 hc]
      rfl
    · rw [List.modifyHead_cons, List.flatMap_cons]
      rw [List.cons_append, List.cons_inj_right] at ih
      rw [List.cons_append, List.cons_append, ih]

theorem splitOn_flatMap {parts : List (List Char)} (hne : parts ≠ [])
    (h : ∀ part ∈ parts, '/' ∉ part) :
    (parts.flatMap ('/' :: ·)).splitOn '/' = [] :: parts := by
  have hjoin : parts.flatMap ('/' :: ·) = '/' :: ['/'].intercalate parts := by
    have hsplit := flatMap_splitOn (['/'].intercalate parts)
    rwa [List.splitOn_intercalate '/' h hne] at hsplit
  rw [hjoin, ← List.nil_append ('/' :: _), List.splitOn_append_cons_self,
    List.splitOn_intercalate '/' h hne]
  rfl

theorem slash_notMem {s part : List Char} (h : part ∈ s.splitOn '/') : '/' ∉ part :=
  (Lines.sublist_of_mem_splitOn h).2

theorem foldl_step_of_ordinary {parts : List (List Char)} (h : ∀ part ∈ parts, Ordinary part)
    (out : List (List Char)) : parts.foldl step out = out ++ parts := by
  induction parts generalizing out with
  | nil => exact (List.append_nil out).symm
  | cons part parts ih =>
    obtain ⟨⟨hnil, hdot, hdots, -⟩, hparts⟩ := List.forall_mem_cons.1 h
    have hstep : step out part = out ++ [part] := by
      rw [step, if_neg (by simp [hnil, hdot]), if_neg hdots]
    rw [List.foldl_cons, hstep, ih hparts, List.append_assoc]
    rfl

theorem ordinary_foldl_step {parts out : List (List Char)} (hparts : ∀ part ∈ parts, '/' ∉ part)
    (hout : ∀ part ∈ out, Ordinary part) : ∀ part ∈ parts.foldl step out, Ordinary part := by
  induction parts generalizing out with
  | nil => exact hout
  | cons part parts ih =>
    obtain ⟨hpart, hparts⟩ := List.forall_mem_cons.1 hparts
    refine ih hparts ?_
    rw [step]
    split_ifs with hskip hdots
    · exact hout
    · exact fun part hpart => hout part (List.mem_of_mem_dropLast hpart)
    · intro part' hpart'
      rcases List.mem_append.1 hpart' with hpart' | hnew
      · exact hout part' hpart'
      · rw [List.mem_singleton.1 hnew]
        exact ⟨fun h => hskip (.inl h), fun h => hskip (.inr h), hdots, hpart⟩

theorem ordinary_remaining (path : List Char) : ∀ part ∈ remaining path, Ordinary part :=
  ordinary_foldl_step (fun _ => slash_notMem) (List.forall_mem_nil _)

/-- A path of ordinary parts ends with the last of them. -/
theorem getLast?_flatMap {parts : List (List Char)} (hne : parts ≠ [])
    (h : ∀ part ∈ parts, Ordinary part) :
    (parts.flatMap ('/' :: ·)).getLast? ≠ some '/' := by
  obtain ⟨init, last, rfl⟩ := List.eq_nil_or_concat' parts |>.resolve_left hne
  obtain ⟨hnil, -, -, hslash⟩ := h last (List.mem_append_right _ (List.mem_singleton_self _))
  rw [List.flatMap_append, List.flatMap_singleton, List.getLast?_append_of_ne_nil _
    (List.cons_ne_nil _ _), List.getLast?_cons_of_ne_nil hnil]
  intro hlast
  exact hslash (List.mem_of_getLast? hlast)

/-! ### Paths that stay -/

/-- The path has the parts that remain, and an empty one for the slash at its end. -/
theorem cleanKeepingSlash_eq (s : List Char) :
    cleanKeepingSlash ('/' :: s) =
      if ('/' :: s).getLast? = some '/' then (remaining ('/' :: s) ++ [[]]).flatMap ('/' :: ·)
      else rooted (remaining ('/' :: s)) := by
  have hordinary := ordinary_remaining ('/' :: s)
  rw [cleanKeepingSlash, clean]
  generalize remaining ('/' :: s) = out at hordinary ⊢
  by_cases hnil : out = []
  · subst hnil
    simp [rooted]
  · have hrooted : rooted out = out.flatMap ('/' :: ·) := if_neg hnil
    have hlast := getLast?_flatMap hnil hordinary
    rw [hrooted, List.flatMap_append, List.flatMap_singleton]
    simp only [ne_eq, hlast, not_false_eq_true, and_true]

theorem remaining_cons (s : List Char) :
    remaining ('/' :: s) = (s.splitOn '/').foldl step [] := by
  rw [remaining, ← List.nil_append ('/' :: s), List.splitOn_append_cons_self]
  rfl

theorem isClean_cons {s : List Char} :
    IsClean ('/' :: s) ↔ (∀ part ∈ (s.splitOn '/').dropLast, Ordinary part) ∧
      ∀ part ∈ (s.splitOn '/').getLast?, part = [] ∨ Ordinary part := by
  have hsplit : ('/' :: s).splitOn '/' = [] :: s.splitOn '/' := by
    rw [← List.nil_append ('/' :: s), List.splitOn_append_cons_self]
    rfl
  rw [IsClean, hsplit, List.tail_cons, List.getLast?_cons_of_ne_nil (List.splitOn_ne_nil '/' s)]

theorem splitOn_eq {s : List Char} {parts : List (List Char)} (hne : parts ≠ [])
    (hno : ∀ part ∈ parts, '/' ∉ part) (h : parts.flatMap ('/' :: ·) = '/' :: s) :
    s.splitOn '/' = parts := by
  have hsplit := congrArg (List.splitOn '/') h
  rw [splitOn_flatMap hne hno, ← List.nil_append ('/' :: s),
    List.splitOn_append_cons_self] at hsplit
  exact (List.cons.inj hsplit).2.symm

theorem isClean_of_eq {s : List Char} (h : cleanKeepingSlash ('/' :: s) = '/' :: s) :
    IsClean ('/' :: s) := by
  rw [cleanKeepingSlash_eq] at h
  rw [isClean_cons]
  have hordinary := ordinary_remaining ('/' :: s)
  generalize remaining ('/' :: s) = out at h hordinary
  split_ifs at h with hslash
  · have hout : ∀ part ∈ out ++ [[]], '/' ∉ part := by
      intro part hpart
      rcases List.mem_append.1 hpart with hpart | hnew
      · exact (hordinary part hpart).2.2.2
      · rw [List.mem_singleton.1 hnew]
        exact List.not_mem_nil
    rw [splitOn_eq (by simp) hout h, List.dropLast_concat, List.getLast?_concat]
    exact ⟨hordinary, by simp⟩
  · by_cases hnil : out = []
    · subst hnil
      rw [rooted, if_pos rfl, List.cons_inj_right] at h
      subst h
      exact absurd rfl hslash
    · rw [rooted, if_neg hnil] at h
      rw [splitOn_eq hnil (fun part hpart => (hordinary part hpart).2.2.2) h]
      exact ⟨fun part hpart => hordinary part (List.mem_of_mem_dropLast hpart),
        fun part hpart => .inr (hordinary part (List.mem_of_getLast? hpart))⟩

theorem eq_of_isClean {s : List Char} (h : IsClean ('/' :: s)) :
    cleanKeepingSlash ('/' :: s) = '/' :: s := by
  obtain ⟨hinit, hlast⟩ := isClean_cons.1 h
  rw [cleanKeepingSlash_eq]
  have hflat := flatMap_splitOn s
  rw [remaining_cons]
  obtain ⟨init, last, hsplit⟩ :=
    (List.eq_nil_or_concat' (s.splitOn '/')).resolve_left (List.splitOn_ne_nil '/' s)
  rw [hsplit, List.dropLast_concat] at hinit
  rw [hsplit, List.getLast?_concat] at hlast
  rw [hsplit] at hflat ⊢
  rw [List.foldl_append, foldl_step_of_ordinary hinit, List.nil_append, List.foldl_cons,
    List.foldl_nil]
  rcases hlast last rfl with rfl | hordinary
  · -- the path ends with a slash
    have hslash : ('/' :: s).getLast? = some '/' := by
      rw [← hflat, List.flatMap_append, List.flatMap_singleton, List.getLast?_concat]
    have hstep : step init [] = init := if_pos (.inl rfl)
    rw [if_pos hslash, hstep, hflat]
  · have hall : ∀ part ∈ init ++ [last], Ordinary part := by
      intro part hpart
      rcases List.mem_append.1 hpart with hpart | hnew
      · exact hinit part hpart
      · exact List.mem_singleton.1 hnew ▸ hordinary
    have hstep : step init last = init ++ [last] :=
      foldl_step_of_ordinary (List.forall_mem_singleton.2 hordinary) init
    have hslash : ('/' :: s).getLast? ≠ some '/' := hflat ▸ getLast?_flatMap (by simp) hall
    rw [if_neg hslash, hstep, rooted, if_neg (by simp), hflat]

/-- Exactly the clean paths stay as they are. -/
theorem cleanKeepingSlash_eq_self_iff {s : List Char} :
    cleanKeepingSlash ('/' :: s) = '/' :: s ↔ IsClean ('/' :: s) := ⟨isClean_of_eq, eq_of_isClean⟩

/-! ### What is removed -/

theorem step_sublist (out : List (List Char)) (part : List Char) :
    (step out part).Sublist (out ++ [part]) := by
  rw [step]
  split_ifs
  · exact List.sublist_append_left ..
  · exact (List.dropLast_sublist _).trans (List.sublist_append_left ..)
  · exact List.Sublist.refl _

theorem foldl_step_sublist (parts out : List (List Char)) :
    (parts.foldl step out).Sublist (out ++ parts) := by
  induction parts generalizing out with
  | nil => exact (List.append_nil out).symm ▸ List.Sublist.refl _
  | cons part parts ih =>
    have hstep := (step_sublist out part).append_right parts
    rw [List.append_assoc, List.singleton_append] at hstep
    exact (ih (step out part)).trans hstep

theorem cleanKeepingSlash_sublist (s : List Char) :
    (cleanKeepingSlash ('/' :: s)).Sublist ('/' :: s) := by
  rw [cleanKeepingSlash_eq, remaining_cons, ← flatMap_splitOn s]
  split_ifs with hslash
  · refine List.Sublist.flatMap ?_ _
    obtain ⟨init, last, hsplit⟩ :=
      (List.eq_nil_or_concat' (s.splitOn '/')).resolve_left (List.splitOn_ne_nil '/' s)
    -- the part behind the last slash is empty
    have hlast : last = [] := by
      by_contra hne
      rw [hsplit, List.flatMap_append, List.flatMap_singleton, List.getLast?_append_of_ne_nil _
        (List.cons_ne_nil _ _), List.getLast?_cons_of_ne_nil hne] at hslash
      exact slash_notMem (hsplit ▸ List.mem_append_right _ (List.mem_singleton_self _))
        (List.mem_of_getLast? hslash)
    subst hlast
    have hskip : step (init.foldl step []) [] = init.foldl step [] := if_pos (.inl rfl)
    rw [hsplit, List.foldl_append, List.foldl_cons, List.foldl_nil, hskip]
    exact (foldl_step_sublist init []).append_right _
  · rw [rooted]
    split_ifs
    · rw [flatMap_splitOn]
      exact List.singleton_sublist.2 List.mem_cons_self
    · exact (foldl_step_sublist _ []).flatMap _

end CleanPath
