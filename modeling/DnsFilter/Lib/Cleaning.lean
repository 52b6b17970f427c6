import Mathlib.Data.List.DropRight
import DnsFilter.Lib.PercentCoding
import DnsFilter.Lib.Shrinking

/-!
# Cleaning texts

A header is trimmed, a URL loses some characters and is cut at others.  Such steps look at
characters that a coder neither escapes nor writes.

* `escape_strip`, `escape_filter`, `escape_takeWhile`, `escape_map`: it does not matter whether
  the text is escaped before or after;
* `shrinks_rdropWhile`, `shrinks_filter`, `shrinks_takeWhile`, `shrinks_map`: what a step changes
  makes the text cheaper.
-/

namespace Percent

/-- A text without the chosen characters at its ends. -/
def strip (q : Char → Bool) (s : List Char) : List Char := (s.dropWhile q).rdropWhile q

variable {s t : List Char} {c x : Char} {ds : Digits} {p q : Char → Bool} {f : Char → Char}

/-! ### Escaped texts -/

/-- The coder `p` neither escapes nor writes the characters of `q`. -/
structure Spares (p q : Char → Bool) : Prop where
  kept : ∀ c, q c = true → p c = false
  percent : q '%' = false
  digit : ∀ c, unhex c ≠ none → q c = false

section Spares

variable (h : Spares p q)

include h

theorem escapeChar_of_spared (hc : q c = true) : escapeChar ds p c = [c] :=
  escapeChar_of_kept (h.kept c hc)

theorem forall_escapeChar (hc : q c = false) : ∀ x ∈ escapeChar ds p c, q x = false := by
  intro x hx
  rcases of_mem_escapeChar hx with ⟨-, rfl⟩ | rfl | hdigit
  · exact hc
  · exact h.percent
  · exact h.digit x hdigit

theorem forall_escapeChar_not (hc : q c = false) :
    ∀ x ∈ escapeChar ds p c, (!q x) = true := by
  intro x hx
  rw [forall_escapeChar h hc x hx]
  rfl

theorem escape_filter (s : List Char) :
    (escape ds p s).filter (!q ·) = escape ds p (s.filter (!q ·)) := by
  induction s with
  | nil => rfl
  | cons c s ih =>
    rw [escape_cons, List.filter_append, ih]
    cases hc : q c with
    | true => simp [escapeChar_of_spared h hc, hc]
    | false =>
      rw [List.filter_eq_self.2 (forall_escapeChar_not h hc),
        List.filter_cons_of_pos (by rw [hc]; rfl), escape_cons]

theorem escape_takeWhile (s : List Char) :
    (escape ds p s).takeWhile (!q ·) = escape ds p (s.takeWhile (!q ·)) := by
  induction s with
  | nil => rfl
  | cons c s ih =>
    rw [escape_cons]
    cases hc : q c with
    | true => simp [escapeChar_of_spared h hc, hc]
    | false =>
      rw [List.takeWhile_append_of_pos (forall_escapeChar_not h hc), ih,
        List.takeWhile_cons_of_pos (by rw [hc]; rfl), escape_cons]

theorem escape_dropWhile (s : List Char) :
    (escape ds p s).dropWhile q = escape ds p (s.dropWhile q) := by
  induction s with
  | nil => rfl
  | cons c s ih =>
    cases hc : q c with
    | true =>
      rw [escape_cons, escapeChar_of_spared h hc, List.singleton_append,
        List.dropWhile_cons_of_pos hc, ih, List.dropWhile_cons_of_pos hc]
    | false =>
      obtain ⟨x, t, hx⟩ := List.exists_cons_of_ne_nil (escapeChar_ne_nil ds p c)
      have hqx : ¬ q x = true := by
        rw [forall_escapeChar h hc x (hx ▸ List.mem_cons_self)]
        exact Bool.false_ne_true
      rw [List.dropWhile_cons_of_neg (by simp [hc]), escape_cons, hx, List.cons_append,
        List.dropWhile_cons_of_neg hqx]

theorem escape_rdropWhile (s : List Char) :
    (escape ds p s).rdropWhile q = escape ds p (s.rdropWhile q) := by
  induction s using List.reverseRecOn with
  | nil => rfl
  | append_singleton s c ih =>
    rw [escape_append, escape_singleton]
    cases hc : q c with
    | true =>
      rw [escapeChar_of_spared h hc, List.rdropWhile_concat_pos _ _ _ hc, ih,
        List.rdropWhile_concat_pos _ _ _ hc]
    | false =>
      obtain ⟨t, x, hx⟩ : ∃ t x, escapeChar ds p c = t ++ [x] :=
        (List.eq_nil_or_concat' _).resolve_left (escapeChar_ne_nil ds p c)
      have hqx : ¬ q x = true := by
        rw [forall_escapeChar h hc x (by rw [hx]; simp)]
        exact Bool.false_ne_true
      rw [List.rdropWhile_concat_neg _ _ _ (by simp [hc]), escape_append, escape_singleton, hx,
        ← List.append_assoc, List.rdropWhile_concat_neg _ _ _ hqx]

theorem escape_strip (s : List Char) : strip q (escape ds p s) = escape ds p (strip q s) := by
  rw [strip, escape_dropWhile h, escape_rdropWhile h, strip]

theorem escape_map (hf : ∀ c, q c = false → f c = c) (hkept : ∀ c, p c = false → p (f c) = false)
    (s : List Char) : (escape ds p s).map f = escape ds p (s.map f) := by
  induction s with
  | nil => rfl
  | cons c s ih =>
    rw [escape_cons, List.map_append, ih, List.map_cons, escape_cons]
    cases hc : q c with
    | true =>
      have hpc := h.kept c hc
      rw [escapeChar_of_kept hpc, escapeChar_of_kept (hkept c hpc), List.map_singleton]
    | false =>
      rw [hf c hc, List.map_congr_left fun x hx => hf x (forall_escapeChar h hc x hx), List.map_id']

end Spares

/-! ### Texts with a fixed beginning -/

theorem rdropWhile_append (hlast : s.getLast?.any q = false) (t : List Char) :
    (s ++ t).rdropWhile q = s ++ t.rdropWhile q := by
  have hself : s.rdropWhile q = s := by
    rw [List.rdropWhile_eq_self_iff]
    intro hne
    rw [List.getLast?_eq_some_getLast hne, Option.any_some] at hlast
    rw [hlast]
    exact Bool.false_ne_true
  induction t using List.reverseRecOn with
  | nil => simpa using hself
  | append_singleton t c ih =>
    rw [← List.append_assoc]
    by_cases hc : q c = true
    · rw [List.rdropWhile_concat_pos _ _ _ hc, ih, List.rdropWhile_concat_pos _ _ _ hc]
    · rw [List.rdropWhile_concat_neg _ _ _ hc, List.rdropWhile_concat_neg _ _ _ hc,
        List.append_assoc]

theorem strip_append (hne : s ≠ []) (hfirst : s.head?.any q = false)
    (hlast : s.getLast?.any q = false) (t : List Char) :
    strip q (s ++ t) = s ++ t.rdropWhile q := by
  obtain ⟨c, s, rfl⟩ := List.exists_cons_of_ne_nil hne
  have hc : q c = false := by simpa using hfirst
  rw [strip, List.cons_append, List.dropWhile_cons_of_neg (by simp [hc]), ← List.cons_append,
    rdropWhile_append hlast]

/-! ### What a step changes -/

theorem cost_append (s t : List Char) : cost (s ++ t) = cost s + cost t := by simp [cost]

section Ascii

variable (hascii : ∀ c, q c = true → c.toNat < 128)

include hascii

/-- A step that removes all the chosen characters, and nothing from a text without them. -/
theorem shrinks_of_removes {f : List Char → List Char} (hsub : ∀ s, (f s).Sublist s)
    (hself : ∀ s, (∀ c ∈ s, (!q c) = true) → f s = s) (hfree : ∀ s, ∀ c ∈ f s, (!q c) = true) :
    Shrinks cost f := by
  intro s
  by_cases h : ∀ c ∈ s, (!q c) = true
  · exact .inl (hself s h)
  · simp only [not_forall] at h
    obtain ⟨c, hc, hq⟩ := h
    have hqc : q c = true := by simpa using hq
    exact .inr (cost_lt_of_sublist (hsub s) hc (fun hmem => hq (hfree s c hmem)) (hascii c hqc))

theorem shrinks_filter : Shrinks cost fun s => s.filter (!q ·) :=
  shrinks_of_removes hascii (fun _ => List.filter_sublist) (fun _ h => List.filter_eq_self.2 h)
    fun _ _ hc => (List.mem_filter.1 hc).2

theorem shrinks_takeWhile : Shrinks cost fun s => s.takeWhile (!q ·) :=
  shrinks_of_removes hascii (fun _ => List.takeWhile_sublist _)
    (fun _ h => List.takeWhile_eq_self_iff.2 h)
    fun _ _ hc => List.mem_takeWhile_imp (p := (!q ·)) hc

theorem shrinks_rdropWhile : Shrinks cost fun s => s.rdropWhile q := by
  intro s
  induction s using List.reverseRecOn with
  | nil => exact .inl (List.rdropWhile_nil _)
  | append_singleton s c ih =>
    by_cases hc : q c = true
    · right
      have hpos := le_charCost (hascii c hc)
      have hle : cost (s.rdropWhile q) ≤ cost s :=
        cost_le_of_sublist (List.rdropWhile_prefix q s).sublist
      have hdrop : (s ++ [c]).rdropWhile q = s.rdropWhile q := List.rdropWhile_concat_pos _ _ _ hc
      have hcost : cost (s ++ [c]) = cost s + charCost c := by simp [cost_append]
      simp only [hdrop, hcost]
      omega
    · exact .inl (List.rdropWhile_concat_neg _ _ _ hc)

end Ascii

/-- Every character is kept or replaced by a cheaper one. -/
theorem shrinks_map (hf : ∀ c, f c = c ∨ charCost (f c) < charCost c) :
    Shrinks cost (List.map f) := by
  intro s
  induction s with
  | nil => exact .inl rfl
  | cons c s ih =>
    rw [List.map_cons, cost_cons, cost_cons]
    rcases hf c with hc | hc <;> rcases ih with hs | hs
    · exact .inl (by rw [hc, hs])
    · rw [hc]
      exact .inr (by omega)
    · rw [hs]
      exact .inr (by omega)
    · exact .inr (by omega)

end Percent
