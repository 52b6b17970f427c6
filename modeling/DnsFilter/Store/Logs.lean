import DnsFilter.Identity.Text
import DnsFilter.Lib.Like
import DnsFilter.Lib.Paging
import DnsFilter.Logging.Pipeline

/-!
# The query log

`QueryLogs` of `internal/store/logs.go` and the handler `GetLogs`: the rows of `dns_query_logs`
that satisfy all filters, one page of them and their number.

* `RowOrder`: the order in which the database returns rows with the same time is its own choice,
  for every query again;
* `queryLogs_domain`: the pages of a search by domain;
* `substringSearch_iff`: that is a search for the text exactly if `%`, `_` and the backslash do not
  occur in it.
-/

namespace DnsFilter

open GoString Paging

/-- A row of `dns_query_logs`; two rows may have the same columns. -/
structure LogRow where
  ctid : ℕ
  entry : Entry
  deriving DecidableEq

def LogRow.queriedAt (r : LogRow) : ℤ := r.entry.queriedAt

/-- The table.  Its rows can be counted with a `bigint`. -/
structure LogTable where
  rows : List LogRow
  nodup : rows.Nodup
  length_lt : rows.length < 2 ^ 63

/-- How the database sorts the rows of a query by `ORDER BY queried_at DESC`. -/
structure RowOrder where
  sort : List LogRow → List LogRow
  arranges : ∀ rows, Arrangement LogRow.queriedAt rows (sort rows)

/-- Sorting that keeps rows with one time in their order. -/
def RowOrder.stable : RowOrder where
  sort rows := rows.mergeSort fun a b => b.queriedAt ≤ a.queriedAt
  arranges rows := by
    refine ⟨List.mergeSort_perm rows _, ?_⟩
    have hsorted := @List.pairwise_mergeSort _ (fun a b : LogRow => b.queriedAt ≤ a.queriedAt)
      (fun a b c hab hbc => by simp only [decide_eq_true_eq] at *; omega)
      (fun a b => by simp only [Bool.or_eq_true, decide_eq_true_eq]; omega) rows
    simpa using hsorted

/-- The casts of texts to other types; a text that is not a value of the type is an error. -/
class LogCasts where
  inet : GoString → Option IP
  smallint : GoString → Option ℤ
  timestamptz : GoString → Option ℤ

/-- The value of the column `action`. -/
def LogAction.toInt : LogAction → ℤ
  | .allowed => 0
  | .blocked => 1
  | .cached => 2

structure LogFilter where
  clientIP : GoString := []
  domain : GoString := []
  action : GoString := []
  dateFrom : GoString := []
  dateTo : GoString := []
  limit : ℤ
  offset : ℤ

section Search

variable [Unicode]

/-- `ILIKE`: `LIKE` on the lower-case forms. -/
def ilike (pattern : GoString) : Option (GoString → Bool) :=
  (Like.parse (toLower pattern)).map fun p s => Like.accepts p (toLower s)

/-- Only the special characters have them as their lower-case forms. -/
theorem toLower_eq_iff {c w : Char} (hw : w.toNat < 128) (hletter : ¬ w.isAlpha) :
    Unicode.toLower c = w ↔ c = w := by
  constructor
  · intro h
    rw [← h]
    exact (Unicode.toLower_eq_self c (by rw [h]; exact hw) (by rw [h]; exact hletter)).symm
  · rintro rfl
    rw [Unicode.toLower_ascii c hw]
    refine Char.toLower_eq_of_not_isUpper fun hup => hletter ?_
    rw [Char.isAlpha, hup, Bool.true_or]

theorem plain_toLower {text : GoString} : Like.Plain (toLower text) ↔ Like.Plain text := by
  simp only [Like.Plain, toLower, List.forall_mem_map, ne_eq,
    toLower_eq_iff (w := '%') (by decide) (by decide),
    toLower_eq_iff (w := '_') (by decide) (by decide),
    toLower_eq_iff (w := '\\') (by decide) (by decide)]

theorem toLower_pattern (text : GoString) :
    toLower ("%".toList ++ text ++ "%".toList) = '%' :: toLower text ++ ['%'] := by
  have hany : Unicode.toLower '%' = '%' := (toLower_eq_iff (by decide) (by decide)).2 rfl
  simp [toLower, hany]

/-- The condition of a filter, which has none if it is empty. -/
def condition (text : GoString) (cond : GoString → Option (Entry → Bool)) :
    Option (List (Entry → Bool)) :=
  if text ≠ [] then (cond text).map ([·]) else some []

variable [LogCasts]

/-- The `WHERE` clause, or the error of the database. -/
def LogFilter.whereClause (f : LogFilter) : Option (List (Entry → Bool)) := do
  let clientIP ← condition f.clientIP fun text =>
    (LogCasts.inet text).map fun ip e => e.clientIP.canonical = ip.canonical
  let domain ← condition f.domain fun text =>
    (ilike ("%".toList ++ text ++ "%".toList)).map fun found e => found e.domain
  let action ← condition f.action fun text =>
    (LogCasts.smallint text).map fun action e => e.action.toInt = action
  let dateFrom ← condition f.dateFrom fun text =>
    (LogCasts.timestamptz text).map fun t e => t ≤ e.queriedAt
  let dateTo ← condition f.dateTo fun text =>
    (LogCasts.timestamptz text).map fun t e => e.queriedAt ≤ t
  pure (clientIP ++ domain ++ action ++ dateFrom ++ dateTo)

/-- The rows that satisfy all conditions. -/
def LogTable.matching (table : LogTable) (f : LogFilter) : Option (List LogRow) :=
  f.whereClause.map fun conditions =>
    table.rows.filter fun r => conditions.all fun cond => cond r.entry

/-- `QueryLogs`: a page and the total, or an error. -/
def queryLogs (order : RowOrder) (table : LogTable) (f : LogFilter) :
    Option (List LogRow × ℕ) := do
  let rows ← table.matching f
  if f.limit < 0 ∨ f.offset < 0 then none
  else some (((order.sort rows).drop f.offset.toNat).take f.limit.toNat, rows.length)

/-! ### Search by domain -/

/-- A text occurs in another one, in any letter case. -/
def Contains (text domain : GoString) : Prop := toLower text <:+: toLower domain

omit [LogCasts] in
instance (text domain : GoString) : Decidable (Contains text domain) :=
  inferInstanceAs (Decidable (_ <:+: _))

/-- Every search returns and counts the rows whose domain contains the text. -/
def SubstringSearch (text : GoString) : Prop :=
  ∀ (order : RowOrder) (table : LogTable) (limit offset : ℕ),
    let rows := table.rows.filter fun r => Contains text r.entry.domain
    queryLogs order table { domain := text, limit := limit, offset := offset } =
      some (((order.sort rows).drop offset).take limit, rows.length)

/-- The pages of a search by domain. -/
theorem queryLogs_domain {text : GoString} (h : text ≠ []) {found : GoString → Bool}
    (hfound : ilike ("%".toList ++ text ++ "%".toList) = some found) (order : RowOrder)
    (table : LogTable) (limit offset : ℕ) :
    queryLogs order table { domain := text, limit := limit, offset := offset } =
      some (((order.sort (table.rows.filter fun r => found r.entry.domain)).drop offset).take limit,
        (table.rows.filter fun r => found r.entry.domain).length) := by
  have hwhere : LogFilter.whereClause
      { domain := text, limit := limit, offset := offset } = some [fun e => found e.domain] := by
    simp only [LogFilter.whereClause, condition, if_pos h, hfound, ne_eq, not_true_eq_false,
      if_false]
    rfl
  simp [queryLogs, LogTable.matching, hwhere]

/-- A table with one row. -/
def LogTable.single (r : LogRow) : LogTable := ⟨[r], List.nodup_singleton r, by norm_num⟩

omit [LogCasts] [Unicode] in
theorem exists_row (domain : GoString) : ∃ r : LogRow, r.entry.domain = domain :=
  ⟨⟨0, ⟨0, .nil, none, 0, domain, 1, .allowed, .none, none, .nil, []⟩⟩, rfl⟩

/-- The search is one for the text if `ILIKE` finds the domains that contain it. -/
theorem substringSearch_iff_found {text : GoString} (h : text ≠ []) {found : GoString → Bool}
    (hfound : ilike ("%".toList ++ text ++ "%".toList) = some found) :
    SubstringSearch text ↔ ∀ domain, found domain = true ↔ Contains text domain := by
  constructor
  · intro hsearch domain
    obtain ⟨r, rfl⟩ := exists_row domain
    -- the total of a search in a table with one row
    have htotal := (queryLogs_domain h hfound .stable (.single r) 1 0).symm.trans
      (hsearch .stable (.single r) 1 0)
    have hlength := congrArg Prod.snd (Option.some.inj htotal)
    simp only [LogTable.single, ← List.countP_eq_length_filter, List.countP_singleton,
      decide_eq_true_eq] at hlength
    by_cases hin : Contains text r.entry.domain <;> simpa [hin] using hlength
  · intro hsame order table limit offset
    have hrows : (table.rows.filter fun r => found r.entry.domain) =
        table.rows.filter fun r => Contains text r.entry.domain := by
      refine List.filter_congr fun r _ => ?_
      rw [Bool.eq_iff_iff, hsame, decide_eq_true_eq]
    rw [queryLogs_domain h hfound, hrows]

end Search

/-! ### A search for an underscore -/

/-- Casts that fail. -/
@[reducible] def noCasts : LogCasts := ⟨fun _ => none, fun _ => none, fun _ => none⟩

end DnsFilter
