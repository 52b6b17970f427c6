import DnsFilter.Lib.Run
import Mathlib.Data.Finmap

/-!
# Finite maps whose entries expire

Entries carry their own expiry time, read off by `exp : β → τ`, for times in any linear order.
`live exp m t k` is the value stored under `k` when it has not expired at time `t`;
`sweep exp m t` drops the entries whose time is over.  A sweep changes no later lookup.

* `SameFrom exp t m m'`: the maps agree on every lookup from the time `t` on;
* `live_run_iff`: a map that starts empty and is swept at will holds what was last written.
-/

namespace Finmap

variable {κ β : Type*} [DecidableEq κ]

/-- Keep the entries that satisfy `q`. -/
def retain (q : κ → β → Bool) (m : Finmap fun _ : κ => β) : Finmap fun _ : κ => β where
  entries := m.entries.filter fun e => q e.1 e.2
  nodupKeys := by
    have h : (m.entries.filter fun e => q e.1 e.2).keys ≤ m.entries.keys :=
      Multiset.map_le_map (Multiset.filter_le _ _)
    exact Multiset.nodup_keys.1 (Multiset.nodup_of_le h (Multiset.nodup_keys.2 m.nodupKeys))

@[simp] theorem lookup_retain (q : κ → β → Bool) (m : Finmap fun _ : κ => β) (k : κ) :
    (m.retain q).lookup k = (m.lookup k).filter (q k) := by
  ext b
  rw [← Option.mem_def, mem_lookup_iff, ← Option.mem_def, Option.mem_filter_iff, mem_lookup_iff]
  simp [retain]

end Finmap

namespace Expiring

variable {κ β τ : Type*} [DecidableEq κ] [LinearOrder τ] (exp : β → τ)

/-- The value stored under `k`, if it has not expired at time `t`. -/
def live (m : Finmap fun _ : κ => β) (t : τ) (k : κ) : Option β :=
  (m.lookup k).filter fun b => t < exp b

/-- Drop the entries that expired before `t`. -/
def sweep (m : Finmap fun _ : κ => β) (t : τ) : Finmap fun _ : κ => β :=
  m.retain fun _ b => !decide (exp b < t)

variable {exp}

theorem live_eq_some {m : Finmap fun _ : κ => β} {t : τ} {k : κ} {b : β} :
    live exp m t k = some b ↔ m.lookup k = some b ∧ t < exp b := by
  simp [live, Option.filter_eq_some_iff]

@[simp] theorem live_insert_self (m : Finmap fun _ : κ => β) (t : τ) (k : κ) (b : β) :
    live exp (m.insert k b) t k = if t < exp b then some b else none := by
  simp [live, Option.filter]

theorem live_insert_of_ne (m : Finmap fun _ : κ => β) (t : τ) {k k' : κ} (b : β)
    (h : k' ≠ k) : live exp (m.insert k b) t k' = live exp m t k' := by
  simp [live, Finmap.lookup_insert_of_ne _ h]

/-- An entry is not seen once it has expired. -/
theorem live_eq_none_of_le {m : Finmap fun _ : κ => β} {t : τ} {k : κ} {b : β}
    (h : m.lookup k = some b) (ht : exp b ≤ t) : live exp m t k = none := by
  simp [live, h, Option.filter, not_lt.2 ht]

/-- What is not seen at some time is not seen later. -/
theorem live_eq_none_mono {m : Finmap fun _ : κ => β} {t t' : τ} {k : κ}
    (h : live exp m t k = none) (ht : t ≤ t') : live exp m t' k = none := by
  refine Option.eq_none_iff_forall_ne_some.2 fun b hb => ?_
  obtain ⟨hlookup, hlt⟩ := live_eq_some.1 hb
  exact Option.eq_none_iff_forall_ne_some.1 h b (live_eq_some.2 ⟨hlookup, ht.trans_lt hlt⟩)

theorem live_congr {m m' : Finmap fun _ : κ => β} {t : τ} {k : κ} (h : m.lookup k = m'.lookup k) :
    live exp m t k = live exp m' t k := by
  rw [live, live, h]

theorem lookup_of_lookup_sweep {m : Finmap fun _ : κ => β} {t : τ} {k : κ} {b : β}
    (h : (sweep exp m t).lookup k = some b) : m.lookup k = some b := by
  simp only [sweep, Finmap.lookup_retain, Option.filter_eq_some_iff] at h
  exact h.1

/-- A sweep is invisible to every lookup made from then on. -/
theorem live_sweep (m : Finmap fun _ : κ => β) {t t' : τ} (h : t ≤ t') (k : κ) :
    live exp (sweep exp m t) t' k = live exp m t' k := by
  unfold live sweep
  rw [Finmap.lookup_retain, Option.filter_filter]
  congr 1
  funext b
  by_cases hb : t' < exp b
  · simp [hb, (h.trans_lt hb).not_gt]
  · simp [hb]

theorem live_retain (q : κ → β → Bool) (m : Finmap fun _ : κ => β) (t : τ) (k : κ) :
    live exp (m.retain q) t k = (live exp m t k).filter (q k) := by
  unfold live
  rw [Finmap.lookup_retain, Option.filter_filter, Option.filter_filter]
  simp only [Bool.and_comm]

theorem live_erase (m : Finmap fun _ : κ => β) (t : τ) (k k' : κ) :
    live exp (m.erase k) t k' = if k' = k then none else live exp m t k' := by
  unfold live
  split_ifs with h
  · rw [h, Finmap.lookup_erase, Option.filter_none]
  · rw [Finmap.lookup_erase_ne h]

/-! ### Maps that agree from some time on -/

variable (exp) in
/-- The maps agree on every lookup from the time `t` on. -/
def SameFrom (t : τ) (m m' : Finmap fun _ : κ => β) : Prop :=
  ∀ t', t ≤ t' → ∀ k, live exp m t' k = live exp m' t' k

variable {m m' : Finmap fun _ : κ => β} {t : τ}

theorem SameFrom.refl (t : τ) (m : Finmap fun _ : κ => β) : SameFrom exp t m m := fun _ _ _ => rfl

theorem SameFrom.mono (h : SameFrom exp t m m') {t' : τ} (ht : t ≤ t') : SameFrom exp t' m m' :=
  fun t'' ht'' => h t'' (ht.trans ht'')

theorem SameFrom.insert (h : SameFrom exp t m m') (k : κ) (b : β) :
    SameFrom exp t (m.insert k b) (m'.insert k b) := by
  intro t' ht' k'
  by_cases hk : k' = k
  · rw [hk, live_insert_self, live_insert_self]
  · rw [live_insert_of_ne _ _ _ hk, live_insert_of_ne _ _ _ hk, h t' ht' k']

theorem SameFrom.retain (h : SameFrom exp t m m') (q : κ → β → Bool) :
    SameFrom exp t (m.retain q) (m'.retain q) := by
  intro t' ht' k
  rw [live_retain, live_retain, h t' ht' k]

theorem SameFrom.erase (h : SameFrom exp t m m') (k : κ) :
    SameFrom exp t (m.erase k) (m'.erase k) := by
  intro t' ht' k'
  rw [live_erase, live_erase, h t' ht' k']

theorem SameFrom.sweep_left (h : SameFrom exp t m m') {t₀ : τ} (h₀ : t₀ ≤ t) :
    SameFrom exp t (sweep exp m t₀) m' := by
  intro t' ht' k
  rw [live_sweep m (h₀.trans ht') k, h t' ht' k]

/-! ### Runs -/

section Runs

open EventRun

variable {σ ε : Type*} {step : σ → ε → σ} {now : σ → τ} (Inv : σ → Prop)
  (map : σ → Finmap fun _ : κ => β) (write : κ → σ → ε → Option (Option β))

/-- If every event writes, clears or leaves alone what is seen under a key from then on, then
what is seen is the last value written, while it has not expired. -/
theorem live_run_iff (hinv : ∀ s e, Inv s → Inv (step s e)) (hnow : ∀ s e, now s ≤ now (step s e))
    (hstep : ∀ s e k t, Inv s → now (step s e) ≤ t → live exp (map (step s e)) t k =
      ((write k s e).map (Option.filter fun b => t < exp b)).getD (live exp (map s) t k))
    {s : σ} (hs : Inv s) (h0 : map s = ∅) (es : List ε) (k : κ) (b : β) {t : τ}
    (ht : now (run step s es) ≤ t) :
    live exp (map (run step s es)) t k = some b ↔
      LastWrite step (write k) s es (some b) ∧ t < exp b := by
  induction es using List.reverseRecOn with
  | nil => simp [live, h0, lastWrite_nil]
  | append_singleton es e ih =>
    rw [run_concat] at ht ⊢
    have ih := ih ((hnow _ e).trans ht)
    rw [hstep _ e k t (run_invariant Inv hinv hs es) ht, lastWrite_concat]
    cases hw : write k (run step s es) e with
    | none => simpa [hw] using ih
    | some o => simp [Option.filter_eq_some_iff]

end Runs

end Expiring
