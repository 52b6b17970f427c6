import DnsFilter.Store.Logs

/-!
# The pages of the log

The page `Logs.tsx` asks `GetLogs` for one page of rows after the other.  Each of them is a query
of its own, sorted by the time alone.

* `getLogs_logsQuery`: the page that the parameters of the client ask for;
* `readLogs_eq`: the client reads page after page;
* `pages_partition_iff`: it reads every matching row once, whatever the database does with equal
  times, exactly if no page ends between two rows with one time.
-/

namespace DnsFilter

open GoString Paging

/-- The value of `strconv.Atoi`; the error is ignored. -/
def atoi (s : GoString) : ℤ :=
  let digits := if s.head? = some '-' ∨ s.head? = some '+' then s.tail else s
  let value : ℤ := if s.head? = some '-' then -number 10 digits else number 10 digits
  if digits = [] ∨ allDigits 10 digits = false then 0
  else max (-2 ^ 63) (min (2 ^ 63 - 1) value)

/-- What `GetLogs` answers. -/
structure LogsPage where
  data : List LogRow
  total : ℕ
  limit : ℤ
  offset : ℤ

/-- The parameters of a request; one that is absent is empty. -/
abbrev LogsQuery := GoString → GoString

/-- The parameters that the client sends for a page. -/
def logsQuery (f : LogFilter) (limit offset : ℕ) : LogsQuery := fun key =>
  if key = "limit".toList then Nat.toDigits 10 limit
  else if key = "offset".toList then Nat.toDigits 10 offset
  else if key = "domain".toList then f.domain
  else if key = "action".toList then f.action
  else if key = "client_ip".toList then f.clientIP
  else if key = "date_from".toList then f.dateFrom
  else if key = "date_to".toList then f.dateTo
  else []

theorem atoi_toDigits {n : ℕ} (hn : n < 2 ^ 63) : atoi (Nat.toDigits 10 n) = n := by
  have hdigits : allDigits 10 (Nat.toDigits 10 n) = true :=
    allDigits_toDigits (by norm_num) (by norm_num) n
  have hsign : ∀ c, digitValue 16 c = none → (Nat.toDigits 10 n).head? ≠ some c := fun c hc hhead =>
    not_mem_toDigits (by norm_num) (by norm_num) n hc (List.mem_of_mem_head? hhead)
  have hminus := hsign '-' (by decide)
  have hplus := hsign '+' (by decide)
  simp only [atoi, hminus, hplus, or_self, if_false, hdigits, Nat.toDigits_ne_nil,
    Bool.true_eq_false, number_toDigits (show 1 < 10 by norm_num) (show 10 ≤ 16 by norm_num) n]
  omega

/-- The parameters that `GetLogs` reads. -/
theorem logsQuery_eq (f : LogFilter) (limit offset : ℕ) :
    logsQuery f limit offset "limit".toList = Nat.toDigits 10 limit ∧
      logsQuery f limit offset "offset".toList = Nat.toDigits 10 offset ∧
      logsQuery f limit offset "domain".toList = f.domain ∧
      logsQuery f limit offset "action".toList = f.action ∧
      logsQuery f limit offset "client_ip".toList = f.clientIP ∧
      logsQuery f limit offset "date_from".toList = f.dateFrom ∧
      logsQuery f limit offset "date_to".toList = f.dateTo := by
  simp [logsQuery]

/-- A database that sorts some rows in a given order. -/
def RowOrder.on {rows l : List LogRow} (h : Arrangement LogRow.queriedAt rows l) : RowOrder where
  sort rows' := if rows' = rows then l else RowOrder.stable.sort rows'
  arranges rows' := by
    split_ifs with hrows
    · rw [hrows]
      exact h
    · exact RowOrder.stable.arranges rows'

section Pages

variable [Unicode] [LogCasts]

/-- `GetLogs`, or an error. -/
def getLogs (order : RowOrder) (table : LogTable) (q : LogsQuery) : Option LogsPage :=
  let n := atoi (q "limit".toList)
  let limit := if n ≤ 0 ∨ 100 < n then 50 else n
  let offset := atoi (q "offset".toList)
  (queryLogs order table
    { clientIP := q "client_ip".toList
      domain := q "domain".toList
      action := q "action".toList
      dateFrom := q "date_from".toList
      dateTo := q "date_to".toList
      limit := limit
      offset := offset }).map fun (logs, total) => ⟨logs, total, limit, offset⟩

/-- The client reads pages, from the page `k` on, until `offset + limit >= total`; every query has
its own order. -/
def readLogs (order : ℕ → RowOrder) (table : LogTable) (f : LogFilter) (limit : ℕ) :
    ℕ → ℕ → List LogRow
  | 0, _ => []
  | fuel + 1, k =>
      match getLogs (order k) table (logsQuery f limit (k * limit)) with
      | none => []
      | some page =>
          page.data ++
            if page.offset + limit < page.total then readLogs order table f limit fuel (k + 1)
            else []

/-- The page that the parameters of the client ask for. -/
theorem getLogs_logsQuery (order : RowOrder) {table : LogTable} {f : LogFilter} {rows : List LogRow}
    (h : table.matching f = some rows) {limit offset : ℕ} (hlimit : 1 ≤ limit)
    (hlimit' : limit ≤ 100) (hoffset : offset < 2 ^ 63) :
    getLogs order table (logsQuery f limit offset) =
      some ⟨((order.sort rows).drop offset).take limit, rows.length, limit, offset⟩ := by
  obtain ⟨hqlimit, hqoffset, hdomain, haction, hclientIP, hdateFrom, hdateTo⟩ :=
    logsQuery_eq f limit offset
  have hkept : ¬ ((limit : ℤ) ≤ 0 ∨ 100 < (limit : ℤ)) := by omega
  have hmatching : table.matching { f with limit := limit, offset := offset } = some rows := h
  simp only [getLogs, hqlimit, hqoffset, hdomain, haction, hclientIP, hdateFrom, hdateTo,
    atoi_toDigits hoffset, atoi_toDigits (show limit < 2 ^ 63 by omega), if_neg hkept, queryLogs,
    hmatching]
  simp

variable {table : LogTable} {f : LogFilter} {rows : List LogRow} {limit : ℕ}

/-- The client reads page after page of the rows. -/
theorem readLogs_eq (order : ℕ → RowOrder) (h : table.matching f = some rows) (hlimit : 1 ≤ limit)
    (hlimit' : limit ≤ 100) (fuel k : ℕ) (hk : k * limit ≤ rows.length) :
    readLogs order table f limit fuel k =
      readPages (fun k => (((order k).sort rows).drop (k * limit)).take limit) limit rows.length
        fuel k := by
  have hsize : rows.length < 2 ^ 63 := by
    obtain ⟨conditions, -, rfl⟩ := Option.map_eq_some_iff.1 h
    exact (List.length_filter_le _ _).trans_lt table.length_lt
  induction fuel generalizing k with
  | zero => rfl
  | succ fuel ih =>
    rw [readLogs, readPages, getLogs_logsQuery (order k) h hlimit hlimit' (hk.trans_lt hsize)]
    have hmore : ((k * limit : ℕ) : ℤ) + limit < rows.length ↔ k * limit + limit < rows.length := by
      norm_cast
    dsimp only
    rw [if_congr hmore rfl rfl]
    split_ifs with hnext
    · rw [ih (k + 1) (by rw [Nat.succ_mul]; exact hnext.le)]
    · rfl

omit [Unicode] [LogCasts] in
theorem length_le_fuel (hle : rows.length ≤ table.rows.length) (hlimit : 1 ≤ limit) :
    rows.length ≤ (table.rows.length + 1) * limit :=
  calc rows.length ≤ table.rows.length + 1 := hle.trans (Nat.le_succ _)
    _ ≤ (table.rows.length + 1) * limit := Nat.le_mul_of_pos_right _ hlimit

theorem nodup_of_matching (h : table.matching f = some rows) :
    rows.Nodup ∧ rows.length ≤ table.rows.length := by
  obtain ⟨conditions, -, rfl⟩ := Option.map_eq_some_iff.1 h
  exact ⟨table.nodup.filter _, List.length_filter_le _ _⟩

/-- A page that ends between two rows with one time. -/
theorem exists_readLogs_not_perm (h : table.matching f = some rows) (hlimit : 1 ≤ limit)
    (hlimit' : limit ≤ 100) {k : ℕ} (hsplit : SplitsTie LogRow.queriedAt rows (k * limit)) :
    ∃ order : ℕ → RowOrder,
      ¬ (readLogs order table f limit (table.rows.length + 1) 0).Perm rows := by
  obtain ⟨hnodup, hle⟩ := nodup_of_matching h
  obtain ⟨choice, harranges, hnot⟩ :=
    exists_readPages_not_perm hnodup (RowOrder.stable.arranges rows) hsplit
  refine ⟨fun k => .on (harranges k), fun hread => ?_⟩
  rw [readLogs_eq _ h hlimit hlimit' _ 0 (by simp)] at hread
  have hsort : ∀ k, (RowOrder.on (harranges k)).sort rows = choice k := fun k => if_pos rfl
  simp only [hsort] at hread
  exact hnot _ (length_le_fuel hle hlimit) hread

/-- **Every matching row is read once, whatever the database does with equal times, exactly if no
page ends between two rows with one time.** -/
theorem pages_partition_iff (h : table.matching f = some rows) (hlimit : 1 ≤ limit)
    (hlimit' : limit ≤ 100) :
    (∀ order : ℕ → RowOrder,
        (readLogs order table f limit (table.rows.length + 1) 0).Perm rows) ↔
      ∀ k, ¬ SplitsTie LogRow.queriedAt rows (k * limit) := by
  constructor
  · intro hperm k hsplit
    obtain ⟨order, hnot⟩ := exists_readLogs_not_perm h hlimit hlimit' hsplit
    exact hnot (hperm order)
  · intro hclean order
    have hfuel := length_le_fuel (nodup_of_matching h).2 hlimit
    rw [readLogs_eq order h hlimit hlimit' _ 0 (by simp)]
    have hread := readPages_perm_drop (fun k => (order k).arranges rows) hclean
      (RowOrder.stable.arranges rows) (table.rows.length + 1) 0 (by rw [Nat.zero_add]; exact hfuel)
    rw [Nat.zero_mul, List.drop_zero] at hread
    exact hread.trans (RowOrder.stable.arranges rows).perm

end Pages

/-! ### Two rows -/

/-- Two rows, and their times. -/
def twoRows (t t' : ℤ) : LogTable where
  rows :=
    [⟨0, ⟨t, .nil, none, 1, "a.example".toList, 1, .allowed, .none, none, .nil, []⟩⟩,
      ⟨1, ⟨t', .nil, none, 1, "b.example".toList, 1, .allowed, .none, none, .nil, []⟩⟩]
  nodup := by simp
  length_lt := by norm_num

/-- With one time, pages of one row may give one of them twice. -/
theorem tied_rows_lost :
    letI := asciiTable
    letI := noCasts
    ¬ ∀ order : ℕ → RowOrder,
      (readLogs order (twoRows 5 5) { limit := 1, offset := 0 } 1 3 0).Perm (twoRows 5 5).rows := by
  let := asciiTable
  let := noCasts
  intro hread
  have hmatching : (twoRows 5 5).matching { limit := 1, offset := 0 } =
      some (twoRows 5 5).rows := rfl
  have hsplit : SplitsTie LogRow.queriedAt (twoRows 5 5).rows (1 * 1) := ⟨5, by decide, by decide⟩
  obtain ⟨order, hnot⟩ := exists_readLogs_not_perm hmatching le_rfl (by norm_num) hsplit
  exact hnot (hread order)

/-- With two times they do not. -/
theorem rows_read_once :
    letI := asciiTable
    letI := noCasts
    (readLogs (fun _ => .stable) (twoRows 6 5) { limit := 1, offset := 0 } 1 3 0).Perm
      (twoRows 6 5).rows := by
  let := asciiTable
  let := noCasts
  refine (pages_partition_iff rfl le_rfl (by norm_num)).2 ?_ fun _ => .stable
  rintro k ⟨t, hbelow, habove⟩
  simp only [twoRows, LogRow.queriedAt, List.countP_cons, List.countP_nil] at hbelow habove
  grind

end DnsFilter
