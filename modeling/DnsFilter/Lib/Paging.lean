import Mathlib.Tactic

/-!
# Reading a sorted result page by page

A query sorts its rows by a key, the newest first, and returns one page of them.  Every page is
a query of its own, which may order rows with the same key in another way.

* `Arrangement`: an order of the rows that the query may use;
* `SplitsTie`: a place in the order, between two rows with the same key;
* `take_perm`: what stands before any other place does not depend on the arrangement;
* `readPages`: page after page, until the end of the rows;
* `readPages_perm_drop`, `exists_readPages_not_perm`: every arrangement of every page gives all rows
  once, exactly if no page ends between two rows with the same key.
-/

namespace Paging

variable {α κ : Type*} [LinearOrder κ] {key : α → κ} {rows l l' : List α}

/-- An order of the rows, by falling keys. -/
structure Arrangement (key : α → κ) (rows l : List α) : Prop where
  perm : l.Perm rows
  sorted : l.Pairwise fun a b => key b ≤ key a

/-- The place after `n` rows is between two rows with one key. -/
def SplitsTie (key : α → κ) (rows : List α) (n : ℕ) : Prop :=
  ∃ t, (rows.countP fun a => t < key a) < n ∧ n < rows.countP fun a => t ≤ key a

/-- The rows above a bound come first. -/
theorem filter_eq_take (h : l.Pairwise fun a b => key b ≤ key a) (t : κ) :
    l.filter (fun a => t < key a) = l.take (l.countP fun a => t < key a) := by
  induction l with
  | nil => rfl
  | cons a l ih =>
    obtain ⟨hhead, htail⟩ := List.pairwise_cons.1 h
    by_cases ha : t < key a
    · rw [List.filter_cons_of_pos (by simpa using ha), List.countP_cons_of_pos (by simpa using ha),
        List.take_succ_cons, ih htail]
    · have hnone : ∀ b ∈ l, ¬ t < key b := fun b hb hlt => ha (hlt.trans_le (hhead b hb))
      have hcount : (l.countP fun b => t < key b) = 0 :=
        List.countP_eq_zero.2 fun b hb => by simpa using hnone b hb
      rw [List.filter_cons_of_neg (by simpa using ha), List.countP_cons_of_neg (by simpa using ha),
        hcount, List.take_zero]
      exact List.filter_eq_nil_iff.2 fun b hb => by simpa using hnone b hb

/-- A place that splits no tie is the end of the rows above some bound. -/
theorem exists_bound (h : Arrangement key rows l) {n : ℕ} (hn : n < rows.length)
    (hclean : ¬ SplitsTie key rows n) : ∃ t, (rows.countP fun a => t < key a) = n := by
  have hlen : n < l.length := h.perm.length_eq ▸ hn
  obtain ⟨before, a, after, hl, hbefore⟩ :
      ∃ before a after, l = before ++ a :: after ∧ before.length = n :=
    ⟨l.take n, l[n], l.drop (n + 1), by rw [List.getElem_cons_drop hlen, List.take_append_drop],
      List.length_take_of_le hlen.le⟩
  have hsorted := h.sorted
  rw [hl, List.pairwise_append, List.pairwise_cons] at hsorted
  obtain ⟨-, ⟨hafter, -⟩, hfirst⟩ := hsorted
  refine ⟨key a, le_antisymm ?_ ?_⟩
  · -- from `a` on nothing is above it
    have hnone : (after.countP fun b => key a < key b) = 0 :=
      List.countP_eq_zero.2 fun b hb => by simpa using hafter b hb
    rw [← h.perm.countP_eq, hl, List.countP_append, List.countP_cons_of_neg (by simp), hnone,
      add_zero, ← hbefore]
    exact List.countP_le_length
  · -- up to `a` nothing is below it
    have hall : (before.countP fun b => key a ≤ key b) = n := by
      rw [← hbefore]
      exact List.countP_eq_length.2 fun b hb => by simpa using hfirst b hb a List.mem_cons_self
    have hat : n < rows.countP fun b => key a ≤ key b := by
      rw [← h.perm.countP_eq, hl, List.countP_append, hall, List.countP_cons_of_pos (by simp)]
      omega
    by_contra hlt
    exact hclean ⟨key a, not_le.1 hlt, hat⟩

/-- What stands before a place that splits no tie does not depend on the arrangement. -/
theorem take_perm (h : Arrangement key rows l) (h' : Arrangement key rows l') {n : ℕ}
    (hclean : ¬ SplitsTie key rows n) : (l.take n).Perm (l'.take n) := by
  rcases le_or_gt rows.length n with hall | hn
  · rw [List.take_of_length_le (h.perm.length_eq.trans_le hall),
      List.take_of_length_le (h'.perm.length_eq.trans_le hall)]
    exact h.perm.trans h'.perm.symm
  · obtain ⟨t, rfl⟩ := exists_bound h hn hclean
    have hcount := h.perm.countP_eq fun a => decide (t < key a)
    have hcount' := h'.perm.countP_eq fun a => decide (t < key a)
    have hfilter := (h.perm.trans h'.perm.symm).filter fun a => decide (t < key a)
    rw [filter_eq_take h.sorted, filter_eq_take h'.sorted, hcount, hcount'] at hfilter
    exact hfilter

/-- A page between two such places does not either. -/
theorem page_perm (h : Arrangement key rows l) (h' : Arrangement key rows l') {n limit : ℕ}
    (hstart : ¬ SplitsTie key rows n) (hend : ¬ SplitsTie key rows (n + limit)) :
    ((l.drop n).take limit).Perm ((l'.drop n).take limit) := by
  have hpages := take_perm h h' hend
  rw [List.take_add, List.take_add] at hpages
  have hpage := ((take_perm h h' hstart).symm.append_right _).trans hpages
  exact (List.perm_append_left_iff _).1 hpage

/-! ### Page after page -/

/-- Read pages, beginning with the page `k`, until the next one would begin at or after the total
number of rows. -/
def readPages (page : ℕ → List α) (limit total : ℕ) : ℕ → ℕ → List α
  | 0, _ => []
  | fuel + 1, k =>
      page k ++ if k * limit + limit < total then readPages page limit total fuel (k + 1) else []

variable {page : ℕ → List α} {limit : ℕ}

/-- If no page splits a tie, all rows from the page `k` on are read. -/
theorem readPages_perm_drop {choice : ℕ → List α} (h : ∀ k, Arrangement key rows (choice k))
    (hclean : ∀ k, ¬ SplitsTie key rows (k * limit)) (hl : Arrangement key rows l) (fuel k : ℕ)
    (hfuel : rows.length ≤ (k + fuel) * limit) :
    (readPages (fun k => ((choice k).drop (k * limit)).take limit) limit rows.length fuel k).Perm
      (l.drop (k * limit)) := by
  induction fuel generalizing k with
  | zero =>
    rw [Nat.add_zero] at hfuel
    rw [readPages, List.drop_of_length_le (hl.perm.length_eq.trans_le hfuel)]
  | succ fuel ih =>
    have hend : ¬ SplitsTie key rows (k * limit + limit) := by
      rw [← Nat.succ_mul]
      exact hclean (k + 1)
    have hpage := page_perm (h k) hl (hclean k) hend
    rw [readPages]
    split_ifs with hmore
    · have hrest := ih (k + 1) (by rw [Nat.add_right_comm]; exact hfuel)
      rw [Nat.succ_mul, ← List.drop_drop] at hrest
      refine (hpage.append hrest).trans ?_
      rw [List.take_append_drop]
    · rw [List.append_nil]
      refine hpage.trans ?_
      rw [List.take_of_length_le]
      rw [List.length_drop, hl.perm.length_eq]
      omega

/-- Pages of one order from the page `k` on. -/
theorem readPages_eq_drop (hl : Arrangement key rows l) {k₀ : ℕ}
    (hpage : ∀ k ≥ k₀, page k = (l.drop (k * limit)).take limit) (fuel k : ℕ) (hk : k₀ ≤ k)
    (hfuel : rows.length ≤ (k + fuel) * limit) :
    readPages page limit rows.length fuel k = l.drop (k * limit) := by
  induction fuel generalizing k with
  | zero => exact (List.drop_of_length_le (hl.perm.length_eq.trans_le hfuel)).symm
  | succ fuel ih =>
    rw [readPages, hpage k hk]
    split_ifs with hmore
    · rw [ih (k + 1) (by omega) (by rw [Nat.add_right_comm]; exact hfuel), Nat.succ_mul,
        ← List.drop_drop, List.take_append_drop]
    · rw [List.append_nil, List.take_of_length_le]
      rw [List.length_drop, hl.perm.length_eq]
      omega

/-- Two orders, of which the second one begins with the page `k₀`. -/
theorem readPages_eq_append (hl' : Arrangement key rows l') {k₀ : ℕ}
    (hbefore : ∀ k < k₀, page k = (l.drop (k * limit)).take limit)
    (hpage : ∀ k ≥ k₀, page k = (l'.drop (k * limit)).take limit)
    (hk₀ : k₀ * limit < rows.length) (fuel k : ℕ) (hk : k ≤ k₀)
    (hfuel : rows.length ≤ (k + fuel) * limit) :
    readPages page limit rows.length fuel k =
      (l.drop (k * limit)).take ((k₀ - k) * limit) ++ l'.drop (k₀ * limit) := by
  induction fuel generalizing k with
  | zero => exact absurd (hfuel.trans (Nat.mul_le_mul_right limit hk)) (by omega)
  | succ fuel ih =>
    rcases hk.eq_or_lt with rfl | hlt
    · rw [Nat.sub_self, Nat.zero_mul, List.take_zero, List.nil_append]
      exact readPages_eq_drop hl' hpage _ k le_rfl hfuel
    · have hmore : k * limit + limit < rows.length := by
        rw [← Nat.succ_mul]
        exact (Nat.mul_le_mul_right limit hlt).trans_lt hk₀
      obtain ⟨d, rfl⟩ := Nat.exists_eq_add_of_lt hlt
      rw [readPages, if_pos hmore, hbefore k hlt,
        ih (k + 1) hlt (by rw [Nat.add_right_comm]; exact hfuel)]
      have hsub : k + d + 1 - k = d + 1 := by omega
      have hsub' : k + d + 1 - (k + 1) = d := by omega
      rw [hsub, hsub', Nat.succ_mul d, Nat.add_comm (d * limit), List.take_add, List.drop_drop,
        Nat.succ_mul k, List.append_assoc]

/-! ### Exactness -/

/-- At a place that splits a tie, the rows on both sides have one key. -/
theorem SplitsTie.exists_swap (h : Arrangement key rows l) {n : ℕ} (hn : SplitsTie key rows n) :
    ∃ before a b after, l = before ++ a :: b :: after ∧ before.length + 1 = n ∧ key a = key b := by
  obtain ⟨t, hbelow, habove⟩ := hn
  have hlt : n < l.length := by
    rw [h.perm.length_eq]
    exact habove.trans_le List.countP_le_length
  obtain ⟨m, rfl⟩ : ∃ m, n = m + 1 := Nat.exists_eq_add_one.2 (by omega)
  have hm : m < l.length := by omega
  obtain ⟨before, a, b, after, hl, hlen⟩ :
      ∃ before a b after, l = before ++ a :: b :: after ∧ before.length = m :=
    ⟨l.take m, l[m], l[m + 1], l.drop (m + 2),
      by rw [List.getElem_cons_drop hlt, List.getElem_cons_drop hm, List.take_append_drop],
      List.length_take_of_le hm.le⟩
  refine ⟨before, a, b, after, hl, by rw [hlen], ?_⟩
  have hsorted := h.sorted
  rw [hl, List.pairwise_append, List.pairwise_cons, List.pairwise_cons] at hsorted
  obtain ⟨-, ⟨hab, hafter, -⟩, hfirst⟩ := hsorted
  rw [← h.perm.countP_eq, hl, List.countP_append] at hbelow habove
  have hle : key a ≤ t := by
    by_contra hgt
    rw [not_le] at hgt
    have hall : (before.countP fun c => t < key c) = m := by
      rw [← hlen]
      refine List.countP_eq_length.2 fun c hc => ?_
      simpa using hgt.trans_le (hfirst c hc a List.mem_cons_self)
    rw [hall, List.countP_cons_of_pos (by simpa using hgt)] at hbelow
    omega
  have hge : t ≤ key b := by
    by_contra hgt
    rw [not_le] at hgt
    have hnone : (after.countP fun c => t ≤ key c) = 0 :=
      List.countP_eq_zero.2 fun c hc => by simpa using (hafter c hc).trans_lt hgt
    have hcount : (before.countP fun c => t ≤ key c) ≤ m := hlen ▸ List.countP_le_length
    rw [List.countP_cons, List.countP_cons_of_neg (by simpa using hgt), hnone] at habove
    split_ifs at habove <;> omega
  exact le_antisymm (hle.trans hge) (hab b List.mem_cons_self)

/-- If a page ends within a tie, two orders of the rows give one row twice. -/
theorem exists_readPages_not_perm (hnodup : rows.Nodup) (hl : Arrangement key rows l) {k₀ : ℕ}
    (hsplit : SplitsTie key rows (k₀ * limit)) :
    ∃ choice : ℕ → List α, (∀ k, Arrangement key rows (choice k)) ∧
      ∀ fuel, rows.length ≤ fuel * limit →
        ¬ (readPages (fun k => ((choice k).drop (k * limit)).take limit) limit rows.length
          fuel 0).Perm rows := by
  have hlt : k₀ * limit < rows.length := by
    obtain ⟨t, -, habove⟩ := hsplit
    exact habove.trans_le List.countP_le_length
  obtain ⟨before, a, b, after, rfl, hlen, hkey⟩ := hsplit.exists_swap hl
  have hswap : Arrangement key rows (before ++ b :: a :: after) := by
    refine ⟨((List.Perm.swap a b after).append_left before).trans hl.perm, ?_⟩
    have hsorted := hl.sorted
    simp only [List.pairwise_append, List.pairwise_cons, List.mem_cons, forall_eq_or_imp]
      at hsorted ⊢
    obtain ⟨hbefore, ⟨⟨hab, ha⟩, hb, hafter⟩, hcross⟩ := hsorted
    exact ⟨hbefore, ⟨⟨hkey.le, hb⟩, ha, hafter⟩,
      fun c hc => ⟨(hcross c hc).2.1, (hcross c hc).1, (hcross c hc).2.2⟩⟩
  refine ⟨fun k => if k < k₀ then before ++ a :: b :: after else before ++ b :: a :: after,
    fun k => ?_, fun fuel hfuel hperm => ?_⟩
  · dsimp only
    split_ifs
    · exact hl
    · exact hswap
  · have hread : readPages (fun k => ((if k < k₀ then before ++ a :: b :: after
          else before ++ b :: a :: after).drop (k * limit)).take limit) limit rows.length fuel 0 =
        ((before ++ a :: b :: after).drop (0 * limit)).take ((k₀ - 0) * limit) ++
          (before ++ b :: a :: after).drop (k₀ * limit) :=
      readPages_eq_append hswap (fun k hk => by rw [if_pos hk])
        (fun k hk => by rw [if_neg (not_lt.2 hk)]) hlt fuel 0 (Nat.zero_le _)
        (by rw [Nat.zero_add]; exact hfuel)
    rw [hread, Nat.zero_mul, List.drop_zero, Nat.sub_zero, ← hlen, List.take_length_add_append,
      List.drop_length_add_append] at hperm
    -- the last row of the earlier pages is the first one of the later pages
    have htwice := hperm.nodup_iff.2 hnodup
    simp [List.nodup_append] at htwice

end Paging
