import Mathlib.Tactic

/-!
# Token buckets

A bucket holds at most `burst` tokens and gains `rate` tokens per unit of time.  A request is
granted, and costs one token, when there is one.

* `level`, `allow`: the tokens at some time, and one request;
* `level_eq_burst`: a bucket that was idle for long is full;
* `AgreeFrom`: two buckets that cannot be told apart any more, such as an idle one and a new one;
* `Within`: in every window of length `d`, also in one that is still open, at most
  `burst + rate * d` requests are granted.  Waiting and granting keep it.
-/

/-- The tokens at the time of the last update. -/
structure TokenBucket (K : Type*) where
  tokens : K
  last : K

namespace TokenBucket

variable {K : Type*} [CommRing K] [LinearOrder K] [IsStrictOrderedRing K]

/-- A new bucket. -/
def full (burst now : K) : TokenBucket K := ⟨burst, now⟩

/-- The tokens at the time `now`. -/
def level (rate burst : K) (b : TokenBucket K) (now : K) : K :=
  min burst (b.tokens + rate * (now - b.last))

/-- A request at the time `now`; one that is refused changes nothing. -/
def allow (rate burst : K) (b : TokenBucket K) (now : K) : Bool × TokenBucket K :=
  let tokens := b.level rate burst now
  if 1 ≤ tokens then (true, ⟨tokens - 1, now⟩) else (false, b)

variable {rate burst : K} {b : TokenBucket K} {now now' : K}

omit [IsStrictOrderedRing K] in
theorem level_le_burst : b.level rate burst now ≤ burst := min_le_left ..

omit [IsStrictOrderedRing K] in
@[simp] theorem level_full (rate burst now : K) :
    (full burst now).level rate burst now = burst := by
  simp [level, full]

theorem level_allow (rate burst : K) (b : TokenBucket K) (now : K) :
    (b.allow rate burst now).2.level rate burst now =
      b.level rate burst now - if 1 ≤ b.level rate burst now then 1 else 0 := by
  have hle : b.level rate burst now ≤ burst := level_le_burst
  rw [allow]
  split_ifs
  · rw [level, sub_self, mul_zero, add_zero, min_eq_right]
    exact (sub_le_self _ zero_le_one).trans hle
  · exact (sub_zero _).symm

omit [IsStrictOrderedRing K] in
theorem last_allow_le (h : b.last ≤ now) : (b.allow rate burst now).2.last ≤ now := by
  rw [allow]
  split_ifs
  · exact le_rfl
  · exact h

/-- Waiting brings no more than `rate` tokens per unit of time. -/
theorem level_wait (h : 0 ≤ rate * (now' - now)) :
    b.level rate burst now' ≤ b.level rate burst now + rate * (now' - now) := by
  rw [level, level, ← min_add_add_right]
  refine min_le_min ?_ ?_
  · exact le_add_of_nonneg_right h
  · rw [add_assoc, ← mul_add, add_comm (now - b.last), sub_add_sub_cancel]

/-- A bucket that was idle for long enough is full. -/
theorem level_eq_burst (htokens : 0 ≤ b.tokens) (hidle : burst ≤ rate * (now - b.last)) :
    b.level rate burst now = burst :=
  min_eq_left (hidle.trans (le_add_of_nonneg_left htokens))

theorem tokens_allow_nonneg (htokens : 0 ≤ b.tokens) :
    0 ≤ (b.allow rate burst now).2.tokens := by
  rw [allow]
  split_ifs with h
  · exact sub_nonneg.2 h
  · exact htokens

/-! ### Buckets that hold the same -/

/-- From `now` on, the two buckets hold the same. -/
def AgreeFrom (rate burst now : K) (b b' : TokenBucket K) : Prop :=
  ∀ t, now ≤ t → b.level rate burst t = b'.level rate burst t

variable {b' b'' : TokenBucket K}

omit [IsStrictOrderedRing K] in
theorem agreeFrom_refl (b : TokenBucket K) : AgreeFrom rate burst now b b := fun _ _ => rfl

omit [IsStrictOrderedRing K] in
theorem AgreeFrom.mono (h : AgreeFrom rate burst now b b') (hnow : now ≤ now') :
    AgreeFrom rate burst now' b b' :=
  fun t ht => h t (hnow.trans ht)

omit [IsStrictOrderedRing K] in
theorem AgreeFrom.symm (h : AgreeFrom rate burst now b b') : AgreeFrom rate burst now b' b :=
  fun t ht => (h t ht).symm

omit [IsStrictOrderedRing K] in
theorem AgreeFrom.trans (h : AgreeFrom rate burst now b b') (h' : AgreeFrom rate burst now b' b'') :
    AgreeFrom rate burst now b b'' :=
  fun t ht => (h t ht).trans (h' t ht)

/-- A bucket that was idle for long enough is as good as a new one. -/
theorem agreeFrom_full (hrate : 0 ≤ rate) (htokens : 0 ≤ b.tokens)
    (hidle : burst ≤ rate * (now - b.last)) : AgreeFrom rate burst now b (full burst now) := by
  intro t ht
  have hlonger : rate * (now - b.last) ≤ rate * (t - b.last) :=
    mul_le_mul_of_nonneg_left (sub_le_sub_right ht _) hrate
  have hnew : burst ≤ burst + rate * (t - now) :=
    le_add_of_nonneg_right (mul_nonneg hrate (sub_nonneg.2 ht))
  rw [level_eq_burst htokens (hidle.trans hlonger)]
  exact (min_eq_left hnew).symm

/-- A new bucket does not age. -/
theorem agreeFrom_full_full (hrate : 0 ≤ rate) (hnow : now ≤ now') :
    AgreeFrom rate burst now' (full burst now) (full burst now') := by
  intro t ht
  have hsince : ∀ {u : K}, u ≤ t → (full burst u).level rate burst t = burst := fun hu =>
    min_eq_left (le_add_of_nonneg_right (mul_nonneg hrate (sub_nonneg.2 hu)))
  rw [hsince (hnow.trans ht), hsince ht]

omit [IsStrictOrderedRing K] in
/-- Two buckets that hold the same grant a request alike, and hold the same afterwards. -/
theorem AgreeFrom.allow (h : AgreeFrom rate burst now b b') :
    (b.allow rate burst now).1 = (b'.allow rate burst now).1 ∧
      AgreeFrom rate burst now (b.allow rate burst now).2 (b'.allow rate burst now).2 := by
  have hlevel := h now le_rfl
  rw [TokenBucket.allow, TokenBucket.allow, hlevel]
  split_ifs
  · exact ⟨rfl, agreeFrom_refl _⟩
  · exact ⟨rfl, h⟩

/-! ### Windows -/

/-- The requests that were granted in a window. -/
def granted (grants : List K) (a b : K) : ℕ := grants.countP fun t => a ≤ t ∧ t ≤ b

omit [CommRing K] [IsStrictOrderedRing K] in
theorem granted_concat (grants : List K) (t a b : K) :
    granted (grants ++ [t]) a b = granted grants a b + if a ≤ t ∧ t ≤ b then 1 else 0 := by
  simp [granted, List.countP_singleton]

/-- The requests granted until `now`, of a bucket that has `level` tokens then, in all windows
that are over and in those that are still open. -/
structure Within (rate burst : K) (grants : List K) (level now : K) : Prop where
  past : ∀ t ∈ grants, t ≤ now
  window : ∀ a b, a ≤ b → granted grants a b ≤ burst + rate * (b - a)
  credit : ∀ a, a ≤ now → granted grants a now + level ≤ burst + rate * (now - a)

variable {grants : List K} {level level' : K}

theorem within_nil (hrate : 0 ≤ rate) (hburst : 0 ≤ burst) (now : K) :
    Within rate burst [] burst now := by
  refine ⟨by simp, fun a b hab => ?_, fun a ha => ?_⟩
  · have hpos := mul_nonneg hrate (sub_nonneg.2 hab)
    simpa [granted] using add_nonneg hburst hpos
  · simpa [granted] using mul_nonneg hrate (sub_nonneg.2 ha)

/-- A later time, to which the bucket gained no more than it may hold and no more than the rate
gives. -/
theorem Within.wait (h : Within rate burst grants level now) (hrate : 0 ≤ rate)
    (hnow : now ≤ now') (hgain : level' ≤ level + rate * (now' - now)) (hburst : level' ≤ burst) :
    Within rate burst grants level' now' := by
  refine ⟨fun t ht => (h.past t ht).trans hnow, h.window, fun a ha => ?_⟩
  rcases le_or_gt a now with hle | hlt
  · have hsame : granted grants a now' = granted grants a now := by
      refine List.countP_congr fun t ht => ?_
      simp [h.past t ht, (h.past t ht).trans hnow]
    have hcredit := h.credit a hle
    have hsplit : rate * (now' - a) = rate * (now - a) + rate * (now' - now) := by ring
    rw [hsame, hsplit]
    linarith
  · have hnone : granted grants a now' = 0 := by
      rw [granted, List.countP_eq_zero]
      intro t ht
      simp [(h.past t ht).trans_lt hlt]
    rw [hnone, Nat.cast_zero, zero_add]
    exact hburst.trans (le_add_of_nonneg_right (mul_nonneg hrate (sub_nonneg.2 ha)))

/-- A request that is granted. -/
theorem Within.grant (h : Within rate burst grants level now) (hrate : 0 ≤ rate)
    (hlevel : 1 ≤ level) :
    Within rate burst (grants ++ [now]) (level - 1) now := by
  refine ⟨fun t ht => ?_, fun a b hab => ?_, fun a ha => ?_⟩
  · rcases List.mem_append.1 ht with ht | ht
    · exact h.past t ht
    · exact (List.mem_singleton.1 ht).le
  · rw [granted_concat]
    split_ifs with hin
    · -- up to the end of the window there were no requests after this one
      have hsame : granted grants a b = granted grants a now := by
        refine List.countP_congr fun t ht => ?_
        simp [h.past t ht, (h.past t ht).trans hin.2]
      have hcredit := h.credit a hin.1
      have hlater : rate * (now - a) ≤ rate * (b - a) :=
        mul_le_mul_of_nonneg_left (sub_le_sub_right hin.2 a) hrate
      rw [hsame]
      push_cast
      linarith
    · exact h.window a b hab
  · rw [granted_concat, if_pos ⟨ha, le_rfl⟩]
    have hcredit := h.credit a ha
    push_cast
    linarith

end TokenBucket
