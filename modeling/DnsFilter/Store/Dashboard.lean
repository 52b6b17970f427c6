import DnsFilter.Lib.Run
import DnsFilter.Lib.TopCounts
import DnsFilter.Store.Logs

/-!
# The statistics of the dashboard

`GetDashboardStats` of `internal/store/logs.go` asks five queries one after the other.  Between
them the pipeline inserts rows, the retention drops old ones, and midnight may pass.  A query may
fail, and the rows of a top ten may break off, which `queryTopItems` does not notice.

* `StatsRequest.query`: the next query of a request, with its outcome;
* `LogEvent.apply`: any number of requests, and what else goes on in the table;
* `stats_run`: every number of an answer is that of the moment of its query, as far as its rows
  arrived, and no later number exceeds the first one by more than the rows inserted since.
-/

namespace DnsFilter

open EventRun TopCounts

/-- `CURRENT_DATE` at a time, less a number of days, in the time zone of the database. -/
class Calendar where
  date : ℤ → ℕ → ℤ
  mono : ∀ {t t' : ℤ} (days : ℕ), t ≤ t' → date t days ≤ date t' days
  antitone : ∀ (t : ℤ) {m n : ℕ}, m ≤ n → date t n ≤ date t m

/-- How the database sorts groups by `ORDER BY cnt DESC`. -/
structure GroupOrder (κ : Type) where
  sort : List (κ × ℕ) → List (κ × ℕ)
  arranges : ∀ groups, Paging.Arrangement Prod.snd groups (sort groups)

/-- The percentage is a rational number here. -/
structure DashboardStats where
  totalToday : ℕ := 0
  totalWeek : ℕ := 0
  totalMonth : ℕ := 0
  blockedPercent : ℚ := 0
  topDomains : List (GoString × ℕ) := []
  topBlocked : List (GoString × ℕ) := []
  topClients : List (IP × ℕ) := []
  deriving DecidableEq

/-- The query that comes next. -/
inductive StatsPhase
  | totals
  | blocked
  | topDomains
  | topBlocked
  | topClients
  | done
  | failed
  deriving DecidableEq

structure StatsRequest where
  phase : StatsPhase := .totals
  stats : DashboardStats := {}
  /-- How many rows were inserted since its first query. -/
  inserted : ℕ := 0
  deriving DecidableEq

/-- How a query ends, with the orders of its groups. -/
structure QueryOutcome where
  ok : Bool
  /-- The rows of a top ten that arrive before the connection breaks, if it does. -/
  arrived : ℕ
  domains : GroupOrder GoString
  clients : GroupOrder IP

section Stats

variable [Calendar]

/-- The rows since a date. -/
def since (now : ℤ) (days : ℕ) (rows : List LogRow) : List LogRow :=
  rows.filter fun r => Calendar.date now days ≤ r.queriedAt

/-- The rows of blocked queries. -/
def blockedRows (rows : List LogRow) : List LogRow :=
  rows.filter fun r => r.entry.action.toInt = 1

def LogRow.domain (r : LogRow) : GoString := r.entry.domain

/-- The group of a client, whose text is the printed address. -/
def LogRow.client (r : LogRow) : IP := r.entry.clientIP.canonical

/-- `queryTopItems`; an error gives no items, and rows that break off are no error. -/
def queryTopItems {κ : Type} [DecidableEq κ] (outcome : QueryOutcome) (order : GroupOrder κ)
    (key : LogRow → κ) (rows : List LogRow) : List (κ × ℕ) :=
  if outcome.ok then ((order.sort (counts key rows)).take 10).take outcome.arrived else []

/-- The next query of `GetDashboardStats`. -/
def StatsRequest.query (now : ℤ) (rows : List LogRow) (outcome : QueryOutcome)
    (r : StatsRequest) : StatsRequest :=
  let today := since now 0 rows
  match r.phase with
  | .totals =>
      if outcome.ok then
        let month := since now 30 rows
        { phase := .blocked
          stats :=
            { totalToday := (since now 0 month).length
              totalWeek := (since now 7 month).length
              totalMonth := month.length } }
      else { r with phase := .failed }
  | .blocked =>
      if 0 < r.stats.totalToday ∧ outcome.ok then
        { r with
          phase := .topDomains
          stats := { r.stats with
            blockedPercent := (blockedRows today).length / r.stats.totalToday * 100 } }
      else { r with phase := .topDomains }
  | .topDomains =>
      { r with
        phase := .topBlocked
        stats := { r.stats with
          topDomains := queryTopItems outcome outcome.domains LogRow.domain today } }
  | .topBlocked =>
      { r with
        phase := .topClients
        stats := { r.stats with
          topBlocked :=
            queryTopItems outcome outcome.domains LogRow.domain (blockedRows today) } }
  | .topClients =>
      { r with
        phase := .done
        stats := { r.stats with
          topClients := queryTopItems outcome outcome.clients LogRow.client today } }
  | .done | .failed => r

/-! ### Events -/

structure LogWorld where
  now : ℤ
  rows : List LogRow
  requests : List StatsRequest

inductive LogEvent
  | tick (d : ℕ)
  /-- A batch of the pipeline. -/
  | insert (batch : List LogRow)
  /-- The retention keeps some rows. -/
  | purge (keep : LogRow → Bool)
  | request
  | query (i : ℕ) (outcome : QueryOutcome)

def LogEvent.apply (w : LogWorld) : LogEvent → LogWorld
  | .tick d => { w with now := w.now + d }
  | .insert batch =>
      { w with
        rows := w.rows ++ batch
        requests := w.requests.map fun r => { r with inserted := r.inserted + batch.length } }
  | .purge keep => { w with rows := w.rows.filter keep }
  | .request => { w with requests := w.requests ++ [{}] }
  | .query i outcome => { w with requests := w.requests.modify i (·.query w.now w.rows outcome) }

/-- The rows of today. -/
def LogWorld.today (w : LogWorld) : List LogRow := since w.now 0 w.rows

def LogWorld.start (now : ℤ) (rows : List LogRow) : LogWorld := ⟨now, rows, []⟩

/-! ### Dates -/

/-- The rows of today are among those of the last days. -/
theorem since_since (now : ℤ) {m n : ℕ} (h : m ≤ n) (rows : List LogRow) :
    since now m (since now n rows) = since now m rows := by
  rw [since, since, List.filter_filter]
  refine List.filter_congr fun r _ => ?_
  have hdate := Calendar.antitone now h
  by_cases hr : Calendar.date now m ≤ r.queriedAt
  · simp [hr, hdate.trans hr]
  · simp [hr]

theorem length_since_le (now : ℤ) {m n : ℕ} (h : m ≤ n) (rows : List LogRow) :
    (since now m rows).length ≤ (since now n rows).length := by
  rw [← since_since now h]
  exact List.length_filter_le _ _

/-- No row is of today that was not before, but those inserted. -/
theorem length_today_apply (w : LogWorld) (e : LogEvent) :
    (e.apply w).today.length ≤ w.today.length +
      match e with
      | .insert batch => batch.length
      | _ => 0 := by
  cases e with
  | tick d =>
    have hdate : Calendar.date w.now 0 ≤ Calendar.date (w.now + d) 0 :=
      Calendar.mono 0 (by omega)
    refine (List.Sublist.length_le (List.monotone_filter_right w.rows fun r hr => ?_))
    simp only [decide_eq_true_eq] at hr ⊢
    exact hdate.trans hr
  | insert batch =>
    simp only [LogWorld.today, since, LogEvent.apply, List.filter_append, List.length_append]
    exact Nat.add_le_add_left (List.length_filter_le _ _) _
  | purge keep => exact (List.filter_sublist.filter _).length_le
  | request | query => exact le_rfl

/-! ### Requests -/

/-- The items are the top ten at a query of the request, among no more rows than allowed, as far
as its rows arrived; nothing after an error. -/
def TopTen {κ : Type} [DecidableEq κ] (w : LogWorld) (es : List LogEvent) (i : ℕ)
    (key : LogRow → κ) (rows : LogWorld → List LogRow) (most : ℕ) (items : List (κ × ℕ)) : Prop :=
  ∃ pre outcome top, pre ++ [.query i outcome] <+: es ∧
    IsTop 10 key (rows (run LogEvent.apply w pre)) top ∧
    items = (if outcome.ok then top.take outcome.arrived else []) ∧
    (rows (run LogEvent.apply w pre)).length ≤ most

/-- The percentage is that at a query of the request; `0` after an error. -/
def PercentTrue (w : LogWorld) (es : List LogEvent) (i most : ℕ) (stats : DashboardStats) : Prop :=
  ∃ pre outcome, pre ++ [.query i outcome] <+: es ∧
    let blocked := (blockedRows (run LogEvent.apply w pre).today).length
    stats.blockedPercent =
        (if 0 < stats.totalToday ∧ outcome.ok then (blocked / stats.totalToday * 100 : ℚ) else 0) ∧
      blocked ≤ most

/-- What is true of the statistics of the request of number `i` after its first query, as far as
its other queries are done. -/
structure StatsTrue (w : LogWorld) (es : List LogEvent) (i : ℕ) (r : StatsRequest) : Prop where
  totals : ∃ pre outcome, pre ++ [.query i outcome] <+: es ∧
    let w' := run LogEvent.apply w pre
    r.stats.totalToday = w'.today.length ∧
      r.stats.totalWeek = (since w'.now 7 w'.rows).length ∧
      r.stats.totalMonth = (since w'.now 30 w'.rows).length
  unset : r.phase = .blocked → r.stats.blockedPercent = 0
  blockedPercent : r.phase ≠ .blocked →
    PercentTrue w es i (r.stats.totalToday + r.inserted) r.stats
  topDomains : r.phase ∈ [.topBlocked, .topClients, .done] →
    TopTen w es i LogRow.domain LogWorld.today (r.stats.totalToday + r.inserted) r.stats.topDomains
  topBlocked : r.phase ∈ [.topClients, .done] →
    TopTen w es i LogRow.domain (fun w => blockedRows w.today) (r.stats.totalToday + r.inserted)
      r.stats.topBlocked
  topClients : r.phase = .done →
    TopTen w es i LogRow.client LogWorld.today (r.stats.totalToday + r.inserted) r.stats.topClients

variable {w : LogWorld} {es : List LogEvent} {i : ℕ} {r : StatsRequest}

theorem TopTen.mono {κ : Type} [DecidableEq κ] {key : LogRow → κ} {rows : LogWorld → List LogRow}
    {most most' : ℕ} {items : List (κ × ℕ)} (h : TopTen w es i key rows most items)
    (hmost : most ≤ most') (e : LogEvent) : TopTen w (es ++ [e]) i key rows most' items := by
  obtain ⟨pre, outcome, top, hpre, htop, hitems, hle⟩ := h
  exact ⟨pre, outcome, top, hpre.trans (List.prefix_append es [e]), htop, hitems, hle.trans hmost⟩

theorem PercentTrue.mono {most most' : ℕ} {stats : DashboardStats}
    (h : PercentTrue w es i most stats) (hmost : most ≤ most') (e : LogEvent) :
    PercentTrue w (es ++ [e]) i most' stats := by
  obtain ⟨pre, outcome, hpre, heq, hle⟩ := h
  exact ⟨pre, outcome, hpre.trans (List.prefix_append es [e]), heq, hle.trans hmost⟩

/-- Rows are inserted, and anything else happens. -/
theorem StatsTrue.mono (h : StatsTrue w es i r) (e : LogEvent) (n : ℕ) :
    StatsTrue w (es ++ [e]) i { r with inserted := r.inserted + n } := by
  have hmost : r.stats.totalToday + r.inserted ≤ r.stats.totalToday + (r.inserted + n) := by omega
  refine ⟨?_, h.unset, fun hp => (h.blockedPercent hp).mono hmost e,
    fun hp => (h.topDomains hp).mono hmost e, fun hp => (h.topBlocked hp).mono hmost e,
    fun hp => (h.topClients hp).mono hmost e⟩
  obtain ⟨pre, outcome, hpre, htotals⟩ := h.totals
  exact ⟨pre, outcome, hpre.trans (List.prefix_append es [e]), htotals⟩

theorem topTen_query {κ : Type} [DecidableEq κ] (outcome : QueryOutcome) (order : GroupOrder κ)
    {key : LogRow → κ} {rows : LogWorld → List LogRow} {most : ℕ}
    (h : (rows (run LogEvent.apply w es)).length ≤ most) :
    TopTen w (es ++ [.query i outcome]) i key rows most
      (queryTopItems outcome order key (rows (run LogEvent.apply w es))) :=
  ⟨es, outcome, _, List.prefix_rfl, isTop_take (order.arranges _) 10, rfl, h⟩

section Query

variable {outcome : QueryOutcome}

/-- The first query. -/
theorem statsTrue_totals (hphase : r.phase = .totals) (hok : outcome.ok = true) :
    let w' := run LogEvent.apply w es
    let r' := r.query w'.now w'.rows outcome
    StatsTrue w (es ++ [.query i outcome]) i r' ∧
      w'.today.length ≤ r'.stats.totalToday + r'.inserted := by
  intro w' r'
  have hr' : r' =
      { phase := .blocked
        stats := { totalToday := w'.today.length
                   totalWeek := (since w'.now 7 w'.rows).length
                   totalMonth := (since w'.now 30 w'.rows).length } } := by
    simp only [r', StatsRequest.query, hphase, hok, if_true, since_since _ (Nat.zero_le 30),
      since_since _ (show 7 ≤ 30 by norm_num), LogWorld.today]
  rw [hr']
  exact ⟨⟨⟨es, outcome, List.prefix_rfl, rfl, rfl, rfl⟩, fun _ => rfl, fun hp => absurd rfl hp,
    by simp, by simp, by simp⟩, Nat.le_add_right _ _⟩

/-- The other queries. -/
theorem StatsTrue.query (h : StatsTrue w es i r)
    (htoday : (run LogEvent.apply w es).today.length ≤ r.stats.totalToday + r.inserted)
    (hphase : r.phase ≠ .totals) :
    let w' := run LogEvent.apply w es
    let r' := r.query w'.now w'.rows outcome
    StatsTrue w (es ++ [.query i outcome]) i r' ∧
      w'.today.length ≤ r'.stats.totalToday + r'.inserted := by
  intro w' r'
  have hblocked : (blockedRows w'.today).length ≤ r.stats.totalToday + r.inserted :=
    (List.length_filter_le _ _).trans htoday
  obtain ⟨htotals, hunset, hpercent, hdomains, hblockedTen, hclients⟩ :=
    h.mono (.query i outcome) 0
  simp only [r', StatsRequest.query]
  split
  case h_1 htotals => exact absurd htotals hphase
  case h_2 hnow =>
    have hzero : r.stats.blockedPercent = 0 := hunset hnow
    split_ifs with hpos
    · refine ⟨⟨htotals, by simp, fun _ => ⟨es, outcome, List.prefix_rfl, ?_, hblocked⟩, by simp,
        by simp, by simp⟩, htoday⟩
      rw [if_pos hpos]
      rfl
    · refine ⟨⟨htotals, by simp, fun _ => ⟨es, outcome, List.prefix_rfl, ?_, hblocked⟩, by simp,
        by simp, by simp⟩, htoday⟩
      rw [if_neg hpos]
      exact hzero
  case h_3 hnow =>
    exact ⟨⟨htotals, by simp, fun _ => hpercent (by simp [hnow]),
      fun _ => topTen_query _ _ htoday, by simp, by simp⟩, htoday⟩
  case h_4 hnow =>
    have htop := @topTen_query _ w es i _ _ outcome outcome.domains LogRow.domain
      (fun w => blockedRows w.today) _ hblocked
    exact ⟨⟨htotals, by simp, fun _ => hpercent (by simp [hnow]),
      fun _ => hdomains (by simp [hnow]), fun _ => htop, by simp⟩, htoday⟩
  case h_5 hnow =>
    exact ⟨⟨htotals, by simp, fun _ => hpercent (by simp [hnow]),
      fun _ => hdomains (by simp [hnow]), fun _ => hblockedTen (by simp [hnow]),
      fun _ => topTen_query _ _ htoday⟩, htoday⟩
  all_goals exact ⟨h.mono (.query i outcome) 0, htoday⟩

end Query

/-- What holds of every request in a run, once its first query is done. -/
def StatsInvariant (w : LogWorld) (es : List LogEvent) (w' : LogWorld) : Prop :=
  ∀ i r, w'.requests[i]? = some r → r.phase ≠ .totals → r.phase ≠ .failed →
    StatsTrue w es i r ∧ w'.today.length ≤ r.stats.totalToday + r.inserted

theorem statsInvariant_apply (h : StatsInvariant w es (run LogEvent.apply w es)) (e : LogEvent) :
    StatsInvariant w (es ++ [e]) (e.apply (run LogEvent.apply w es)) := by
  have htoday := length_today_apply (run LogEvent.apply w es) e
  have hsame : ∀ i r, (run LogEvent.apply w es).requests[i]? = some r → r.phase ≠ .totals →
      r.phase ≠ .failed →
      ∀ n, (e.apply (run LogEvent.apply w es)).today.length ≤
          (run LogEvent.apply w es).today.length + n →
        StatsTrue w (es ++ [e]) i { r with inserted := r.inserted + n } ∧
          (e.apply (run LogEvent.apply w es)).today.length ≤
            r.stats.totalToday + (r.inserted + n) := by
    intro i r hr hphase hfailed n hn
    obtain ⟨htrue, hle⟩ := h i r hr hphase hfailed
    exact ⟨htrue.mono e n, by omega⟩
  cases e with
  | tick | purge => exact fun i r hr hphase hfailed => hsame i r hr hphase hfailed 0 htoday
  | request =>
    intro i r hr hphase hfailed
    simp only [LogEvent.apply, List.getElem?_append] at hr
    split_ifs at hr with hi
    · exact hsame i r hr hphase hfailed 0 htoday
    · rw [List.mem_singleton.1 (List.mem_of_getElem? hr)] at hphase
      exact absurd rfl hphase
  | insert batch =>
    intro i r hr hphase hfailed
    simp only [LogEvent.apply, List.getElem?_map, Option.map_eq_some_iff] at hr
    obtain ⟨r, hold, rfl⟩ := hr
    exact hsame i r hold hphase hfailed batch.length htoday
  | query j outcome =>
    intro i r hr hphase hfailed
    rw [LogEvent.apply, List.getElem?_modify] at hr
    obtain ⟨r, hold, rfl⟩ := Option.map_eq_some_iff.1 hr
    split_ifs at hphase hfailed ⊢ with hij
    · subst hij
      by_cases hfirst : r.phase = .totals
      · by_cases hok : outcome.ok = true
        · exact statsTrue_totals hfirst hok
        · refine absurd ?_ hfailed
          simp only [StatsRequest.query, hfirst, hok, if_false, Bool.false_eq_true]
      · by_cases hfailed' : r.phase = .failed
        · refine absurd ?_ hfailed
          simp only [StatsRequest.query, hfailed']
        · obtain ⟨htrue, hle⟩ := h j r hold hfirst hfailed'
          exact htrue.query hle hfirst
    · exact hsame i r hold hphase hfailed 0 htoday

/-- The counts of a top ten do not add up to more than the rows allowed. -/
theorem TopTen.sum_le {κ : Type} [DecidableEq κ] {key : LogRow → κ}
    {rows : LogWorld → List LogRow} {most : ℕ} {items : List (κ × ℕ)}
    (h : TopTen w es i key rows most items) : (items.map Prod.snd).sum ≤ most := by
  obtain ⟨pre, outcome, top, -, htop, rfl, hle⟩ := h
  split_ifs
  · have hsub := ((List.take_sublist outcome.arrived top).map Prod.snd)
    exact (hsub.sum_le_sum fun n _ => Nat.zero_le n).trans (htop.sum_le.trans hle)
  · exact Nat.zero_le most

/-- More than 100 percent only if rows were inserted. -/
theorem PercentTrue.mul_le {most : ℕ} {stats : DashboardStats}
    (h : PercentTrue w es i most stats) :
    stats.blockedPercent * stats.totalToday ≤ 100 * most := by
  obtain ⟨pre, outcome, -, heq, hle⟩ := h
  split_ifs at heq with hpos
  · have hne : (stats.totalToday : ℚ) ≠ 0 := by exact_mod_cast hpos.1.ne'
    have hle' : ((blockedRows (run LogEvent.apply w pre).today).length : ℚ) ≤ most := by
      exact_mod_cast hle
    calc stats.blockedPercent * stats.totalToday
        = 100 * (blockedRows (run LogEvent.apply w pre).today).length := by
          rw [heq]
          field_simp
      _ ≤ 100 * most := by linarith
  · rw [heq, zero_mul]
    positivity

/-- **Of every answer, in whatever way the requests, the pipeline, the retention and midnight come
between its queries: its three totals are those of one moment, and grow with the period; each of its
lists is the top ten at its query, as far as the rows arrived, and empty after an error; and neither
the blocked queries nor the counts of a list together are more than the queries of today and the
rows inserted since they were counted.** -/
theorem stats_run (now : ℤ) (rows : List LogRow) (es : List LogEvent) (i : ℕ) (r : StatsRequest)
    (hr : (run LogEvent.apply (.start now rows) es).requests[i]? = some r)
    (hdone : r.phase = .done) :
    StatsTrue (.start now rows) es i r ∧ r.stats.totalToday ≤ r.stats.totalWeek ∧
      r.stats.totalWeek ≤ r.stats.totalMonth ∧
      r.stats.blockedPercent * r.stats.totalToday ≤ 100 * (r.stats.totalToday + r.inserted) ∧
      (r.stats.topDomains.map Prod.snd).sum ≤ r.stats.totalToday + r.inserted ∧
      (r.stats.topBlocked.map Prod.snd).sum ≤ r.stats.totalToday + r.inserted ∧
      (r.stats.topClients.map Prod.snd).sum ≤ r.stats.totalToday + r.inserted := by
  have hinv : StatsInvariant (.start now rows) es (run LogEvent.apply (.start now rows) es) :=
    trace_invariant (StatsInvariant (.start now rows)) (by simp [StatsInvariant, LogWorld.start])
      (fun es e h => statsInvariant_apply h e) es
  obtain ⟨htrue, -⟩ := hinv i r hr (by rw [hdone]; decide) (by rw [hdone]; decide)
  obtain ⟨pre, outcome, -, htoday, hweek, hmonth⟩ := htrue.totals
  refine ⟨htrue, ?_, ?_, ?_, (htrue.topDomains (by simp [hdone])).sum_le,
    (htrue.topBlocked (by simp [hdone])).sum_le, (htrue.topClients hdone).sum_le⟩
  · rw [htoday, hweek]
    exact length_since_le _ (Nat.zero_le 7) _
  · rw [hweek, hmonth]
    exact length_since_le _ (by norm_num) _
  · exact_mod_cast (htrue.blockedPercent (by simp [hdone])).mul_le

end Stats

/-! ### Rows inserted in between -/

/-- 24 hours. -/
def day : ℤ := 86400000000000

@[reducible] def plainCalendar : Calendar where
  date t days := t / day * day - days * day
  mono days h := by
    have hdiv := Int.ediv_le_ediv (show (0 : ℤ) < day by decide) h
    have hmul := mul_le_mul_of_nonneg_right hdiv (show (0 : ℤ) ≤ day by decide)
    omega
  antitone t m n h := by
    have hmul := mul_le_mul_of_nonneg_right (show (m : ℤ) ≤ n by exact_mod_cast h)
      (show (0 : ℤ) ≤ day by decide)
    omega

/-- Groups sorted by insertion. -/
def GroupOrder.insertion (κ : Type) : GroupOrder κ where
  sort groups := groups.insertionSort fun a b => b.2 ≤ a.2
  arranges groups := by
    have : Std.Total fun a b : κ × ℕ => b.2 ≤ a.2 := ⟨fun a b => le_total b.2 a.2⟩
    have : IsTrans (κ × ℕ) fun a b => b.2 ≤ a.2 := ⟨fun a b c hab hbc => hbc.trans hab⟩
    exact ⟨List.perm_insertionSort _ groups, List.pairwise_insertionSort _ groups⟩

/-- The row of a blocked query. -/
def blockedRow (ctid : ℕ) : LogRow :=
  ⟨ctid, ⟨0, .nil, none, 0, "a.com.".toList, 1, .blocked, .none, none, .nil, []⟩⟩

/-- A row is inserted after the first of five queries that succeed; the rows of the second top ten
break off. -/
def overtakenRun : List LogEvent :=
  let query (arrived : ℕ) : LogEvent :=
    .query 0 ⟨true, arrived, .insertion GoString, .insertion IP⟩
  [.request, query 1, .insert [blockedRow 1], query 1, query 10, query 0, query 10]

/-- The answer to the request. -/
def overtakenAnswer : StatsRequest where
  phase := .done
  stats :=
    { totalToday := 1
      totalWeek := 1
      totalMonth := 1
      blockedPercent := 200
      topDomains := [("a.com.".toList, 2)]
      topClients := [(.nil, 2)] }
  inserted := 1

/-- Of one query today, two were blocked: 200 percent, which is what the bound allows. -/
theorem stats_run_overtaken :
    letI := plainCalendar
    (run LogEvent.apply (.start 0 [blockedRow 0]) overtakenRun).requests[0]? =
        some overtakenAnswer ∧
      overtakenAnswer.stats.blockedPercent * overtakenAnswer.stats.totalToday ≤
        100 * (overtakenAnswer.stats.totalToday + overtakenAnswer.inserted) := by
  have hanswer : (run (@LogEvent.apply plainCalendar) (.start 0 [blockedRow 0])
      overtakenRun).requests[0]? = some overtakenAnswer := by decide +kernel
  obtain ⟨-, -, -, hpercent, -⟩ :=
    @stats_run plainCalendar 0 [blockedRow 0] overtakenRun 0 overtakenAnswer hanswer rfl
  exact ⟨hanswer, hpercent⟩

end DnsFilter
