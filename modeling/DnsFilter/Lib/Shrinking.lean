import Mathlib.Tactic

/-!
# Maps that change a value only to make it smaller

A map `f` *shrinks* under a weight when every value is a fixed point of `f` or is sent to a
lighter one.  What such maps change they never restore.

* `Shrinks.comp`, `Shrinks.comp_eq_self_iff`: one after another, and the common fixed points;
* `Shrinks.foldl_eq_self_iff`: over a run, only the fixed points come back to themselves.
-/

variable {α ι : Type*} {w : α → ℕ} {f g : α → α} {a : α}

/-- Every value is kept or becomes lighter. -/
def Shrinks (w : α → ℕ) (f : α → α) : Prop := ∀ a, f a = a ∨ w (f a) < w a

namespace Shrinks

theorem weight_le (h : Shrinks w f) (a : α) : w (f a) ≤ w a := by
  rcases h a with heq | hlt
  · rw [heq]
  · exact hlt.le

theorem eq_self_of_le (h : Shrinks w f) (hle : w a ≤ w (f a)) : f a = a := by
  rcases h a with heq | hlt
  · exact heq
  · omega

theorem comp_eq_self_iff (hf : Shrinks w f) (hg : Shrinks w g) :
    g (f a) = a ↔ f a = a ∧ g a = a := by
  constructor
  · intro h
    have hgf := hg.weight_le (f a)
    have hfa : f a = a := hf.eq_self_of_le (by rwa [h] at hgf)
    exact ⟨hfa, by rwa [hfa] at h⟩
  · rintro ⟨hfa, hga⟩
    rw [hfa, hga]

protected theorem comp (hf : Shrinks w f) (hg : Shrinks w g) : Shrinks w fun a => g (f a) := by
  intro a
  rcases hf a with hfa | hlt
  · simpa only [hfa] using hg a
  · exact .inr ((hg.weight_le (f a)).trans_lt hlt)

/-- A run of the map ends where it started only if it stands still. -/
theorem foldl_eq_self_iff (h : Shrinks w f) (is : List ι) (a : α) :
    is.foldl (fun a _ => f a) a = a ↔ is = [] ∨ f a = a := by
  have hle : ∀ (is : List ι) (a : α), w (is.foldl (fun a _ => f a) a) ≤ w a := by
    intro is
    induction is with
    | nil => exact fun _ => le_rfl
    | cons i is ih => exact fun a => (ih (f a)).trans (h.weight_le a)
  cases is with
  | nil => simp
  | cons i is =>
    simp only [List.foldl_cons, reduceCtorEq, false_or]
    constructor
    · intro hrun
      have hrest := hle is (f a)
      rw [hrun] at hrest
      exact h.eq_self_of_le hrest
    · intro hfa
      rw [hfa]
      induction is with
      | nil => rfl
      | cons i is ih => rw [List.foldl_cons, hfa, ih]

end Shrinks
