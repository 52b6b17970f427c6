import Mathlib.Data.List.DropRight
import Mathlib.Tactic

/-!
# Texts as sequences of lines

A text over any alphabet is divided by a separator into lines; what stands behind the last
separator is a line of its own unless it is empty.

* `lines_append_sep`: text behind a separator adds its own lines and changes none before it;
* `lines_append`: a text that continues another one changes at most its unterminated last
  line, the `fragment`;
* `lines_flatMap`: an encoding in which the separator is recognisable has the encoded lines.
-/

namespace Lines

variable {α β : Type*} [DecidableEq α]

/-- The lines of a text; the separator behind the last line may be missing. -/
def lines (sep : α) (s : List α) : List (List α) :=
  let ls := s.splitOn sep
  if ls.getLast? = some [] then ls.dropLast else ls

/-- The part of a text up to its last separator. -/
def complete (sep : α) (s : List α) : List α := s.rdropWhile (· ≠ sep)

/-- The part of a text behind its last separator. -/
def fragment (sep : α) (s : List α) : List α := s.rtakeWhile (· ≠ sep)

variable {sep : α}

/-! ### The first separator -/

theorem ne_of_not_mem {s : List α} (h : sep ∉ s) : ∀ a ∈ s, decide (a ≠ sep) = true := by
  intro a ha
  rw [decide_eq_true_eq]
  rintro rfl
  exact h ha

theorem takeWhile_append_sep {s : List α} (h : sep ∉ s) (t : List α) :
    (s ++ sep :: t).takeWhile (· ≠ sep) = s := by
  rw [List.takeWhile_append_of_pos (ne_of_not_mem h), List.takeWhile_cons_of_neg (by simp),
    List.append_nil]

theorem dropWhile_append_sep {s : List α} (h : sep ∉ s) (t : List α) :
    (s ++ sep :: t).dropWhile (· ≠ sep) = sep :: t := by
  rw [List.dropWhile_append_of_pos (ne_of_not_mem h), List.dropWhile_cons_of_neg (by simp)]

/-! ### The last separator -/

theorem complete_append_fragment (s : List α) : complete sep s ++ fragment sep s = s :=
  List.rdropWhile_append_rtakeWhile

/-- The complete part is empty or ends with a separator. -/
theorem complete_eq (sep : α) (s : List α) :
    complete sep s = [] ∨ ∃ x, complete sep s = x ++ [sep] := by
  rcases List.eq_nil_or_concat (complete sep s) with h | ⟨x, c, h⟩
  · exact .inl h
  · refine .inr ⟨x, ?_⟩
    have hne : complete sep s ≠ [] := by simp [h]
    have hc := List.rdropWhile_last_not (p := (· ≠ sep)) s hne
    have hlast : (complete sep s).getLast hne = c := by simp [h]
    have hsep : c = sep := by
      rw [← hlast]
      simpa [complete] using hc
    rw [h, hsep, List.concat_eq_append]

/-! ### Lines of a text that goes on -/

@[simp] theorem lines_nil : lines sep [] = [] := by simp [lines]

theorem lines_append_sep (x u : List α) :
    lines sep (x ++ sep :: u) = lines sep (x ++ [sep]) ++ lines sep u := by
  have hx : lines sep (x ++ [sep]) = x.splitOn sep := by
    simp [lines, List.splitOn_append_cons_self]
  rw [hx, lines, List.splitOn_append_cons_self, lines]
  have hlast : (x.splitOn sep ++ u.splitOn sep).getLast? = (u.splitOn sep).getLast? := by
    rw [List.getLast?_append_of_ne_nil _ (List.splitOn_ne_nil sep u)]
  rw [hlast]
  split_ifs with h
  · rw [List.dropLast_append_of_ne_nil (List.splitOn_ne_nil sep u)]
  · rfl

theorem lines_replicate_append (n : ℕ) (u : List α) :
    lines sep (List.replicate n sep ++ u) = List.replicate n [] ++ lines sep u := by
  induction n with
  | zero => rfl
  | succ n ih =>
    have hsep : lines sep ([] ++ [sep]) = [[]] := by
      simp [lines, List.splitOn_cons_eq_if_modifyHead]
    rw [List.replicate_succ, List.cons_append, ← List.nil_append (sep :: _), lines_append_sep, hsep,
      ih]
    rfl

theorem lines_append (sep : α) (t u : List α) :
    lines sep (t ++ u) = lines sep (complete sep t) ++ lines sep (fragment sep t ++ u) := by
  have ht : t ++ u = complete sep t ++ (fragment sep t ++ u) := by
    rw [← List.append_assoc, complete_append_fragment]
  rw [ht]
  rcases complete_eq sep t with h | ⟨x, h⟩
  · rw [h]
    simp
  · rw [h, List.append_assoc, List.singleton_append, lines_append_sep]

theorem lines_eq (t : List α) :
    lines sep t = lines sep (complete sep t) ++ lines sep (fragment sep t) := by
  simpa using lines_append sep t []

/-- Reading a prefix line by line gives what the whole text gives exactly when the cut line
alone gives what the lines from it on give. -/
theorem filterMap_lines_take_iff (sep : α) (p : List α → Option β) (t u : List α) :
    (lines sep t).filterMap p = (lines sep (t ++ u)).filterMap p ↔
      (lines sep (fragment sep t)).filterMap p =
        (lines sep (fragment sep t ++ u)).filterMap p := by
  rw [lines_append, lines_eq t, List.filterMap_append, List.filterMap_append,
    List.append_cancel_left_eq]

/-! ### Encoded texts -/

theorem splitOn_append_of_not_mem {x : List α} (hx : sep ∉ x) (s : List α) :
    (x ++ s).splitOn sep = (s.splitOn sep).modifyHead (x ++ ·) := by
  induction x with
  | nil =>
    obtain ⟨l, ls, h⟩ := List.exists_cons_of_ne_nil (List.splitOn_ne_nil sep s)
    rw [List.nil_append, h]
    rfl
  | cons a x ih =>
    obtain ⟨ha, hx'⟩ : a ≠ sep ∧ sep ∉ x := by simpa [eq_comm] using hx
    obtain ⟨l, ls, h⟩ := List.exists_cons_of_ne_nil (List.splitOn_ne_nil sep s)
    rw [List.cons_append, List.splitOn_cons_eq_if_modifyHead, if_neg (by simpa using ha), ih hx', h]
    rfl

/-- A part of a split text has no separator, and its elements stand in the text in order. -/
theorem sublist_of_mem_splitOn {x s : List α} (h : x ∈ s.splitOn sep) :
    x.Sublist s ∧ sep ∉ x := by
  induction s generalizing x with
  | nil =>
    obtain rfl : x = [] := by simpa using h
    exact ⟨List.Sublist.refl _, List.not_mem_nil⟩
  | cons a s ih =>
    obtain ⟨l, ls, hs⟩ := List.exists_cons_of_ne_nil (List.splitOn_ne_nil sep s)
    rw [List.splitOn_cons_eq_if_modifyHead] at h
    split_ifs at h with ha
    · rcases List.mem_cons.1 h with rfl | h
      · exact ⟨List.nil_sublist _, List.not_mem_nil⟩
      · exact ⟨(ih h).1.cons a, (ih h).2⟩
    · rw [hs, List.modifyHead_cons] at h
      rcases List.mem_cons.1 h with rfl | h
      · obtain ⟨hsub, hmem⟩ := ih (hs ▸ List.mem_cons_self)
        refine ⟨hsub.cons_cons a, fun hcons => ?_⟩
        rcases List.mem_cons.1 hcons with heq | hl
        · exact ha (by simp [heq])
        · exact hmem hl
      · have hmem := ih (hs ▸ List.mem_cons_of_mem l h)
        exact ⟨hmem.1.cons a, hmem.2⟩

variable [DecidableEq β] {sep' : β} {f : α → List β}

theorem splitOn_flatMap (hsep : f sep = [sep']) (hf : ∀ a, a ≠ sep → sep' ∉ f a)
    (s : List α) : (s.flatMap f).splitOn sep' = (s.splitOn sep).map (·.flatMap f) := by
  induction s with
  | nil => simp
  | cons a s ih =>
    obtain ⟨l, ls, h⟩ := List.exists_cons_of_ne_nil (List.splitOn_ne_nil sep s)
    rw [List.flatMap_cons, List.splitOn_cons_eq_if_modifyHead]
    by_cases ha : a = sep
    · subst ha
      rw [hsep, if_pos (by simp), List.singleton_append, ← List.nil_append (sep' :: _),
        List.splitOn_append_cons_self, ih]
      simp
    · rw [splitOn_append_of_not_mem (hf a ha), ih, if_neg (by simpa using ha), h]
      simp

theorem lines_flatMap (hsep : f sep = [sep']) (hf : ∀ a, a ≠ sep → sep' ∉ f a)
    (hne : ∀ a, f a ≠ []) (s : List α) :
    lines sep' (s.flatMap f) = (lines sep s).map (·.flatMap f) := by
  have hnil : ∀ l : List α, l.flatMap f = [] ↔ l = [] := by
    intro l
    cases l <;> simp [hne]
  rw [lines, lines, splitOn_flatMap hsep hf]
  have hlast : ((s.splitOn sep).map (·.flatMap f)).getLast? = some [] ↔
      (s.splitOn sep).getLast? = some [] := by
    simp [hnil]
  split_ifs with h1 h2 h2
  · rw [List.map_dropLast]
  · exact absurd (hlast.1 h1) h2
  · exact absurd (hlast.2 h2) h1
  · rfl

end Lines
