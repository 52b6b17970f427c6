import DnsFilter.Identity.Ranges
import DnsFilter.Reload.Paths
import DnsFilter.Store.Operations

/-!
# Ranges in memory and in the database

The endpoints that write `ip_ranges`, the notifications of its trigger, and the list of ranges
that `Resolve` searches.

* `RangeEvent`: the four operations, the callback of the listener, and sessions;
* `FollowsTable`: memory answers like a process that restarts on the table;
* `followsTable_iff`: ties aside, this is to give every address the label of a longest row
  that contains it;
* `ranges_follow_table`: memory follows the table along the runs whose operations leave no
  answer behind that only a reload of the ranges could correct.
-/

namespace DnsFilter

open EventRun FirstMatch

/-! ### The table -/

/-- The input function of the type `cidr`: the text of an accepted value, which is well-formed
and denotes the network that `ParseCIDR` reads from the input. -/
class CidrType where
  cidr : GoString → Option GoString
  parses : ∀ {s t}, cidr s = some t → (parseCIDR t).isSome
  agrees : ∀ {s t n}, cidr s = some t → parseCIDR s = some n → parseCIDR t = some n

/-- The ranges of the rows. -/
def tableRanges (rows : List IPRangeRow) : List IPRange := rows.filterMap IPRangeRow.range

/-- The group and the mode of a range. -/
def IPRange.label (r : IPRange) : ℤ × AuthMode := (r.groupID, r.authMode)

/-- The labels of the longest rows that contain the address, or else the defaults of
`NewResolver(1)`. -/
def tableAnswers (rows : List IPRangeRow) (clientIP : IP) : Set (ℤ × AuthMode) :=
  Answers (fun r : IPRange => r.network.contains clientIP) (fun r => r.network.ones) IPRange.label
    (1, authNone) (tableRanges rows)

section Tables

variable [CidrType]

/-- `CreateIPRange`, with the id that the sequence gives out. -/
def createIPRange (db : Database) (id : ℤ) (cidr : GoString) (groupID authMode : ℤ)
    (description : GoString) : Option Database :=
  match CidrType.cidr cidr with
  | some text =>
      if groupID ∈ db.groups ∧ -32768 ≤ authMode ∧ authMode ≤ 32767 ∧ '\x00' ∉ description ∧
          id ∉ db.ipRanges.map (·.id) then
        some { db with ipRanges := db.ipRanges ++ [⟨id, text, groupID, authMode, description⟩] }
      else none
  | none => none

/-- `UpdateIPRange`; without a row of that id nothing references the group. -/
def updateIPRange (db : Database) (id : ℤ) (cidr : GoString) (groupID authMode : ℤ)
    (description : GoString) : Option Database :=
  match CidrType.cidr cidr with
  | some text =>
      if -32768 ≤ authMode ∧ authMode ≤ 32767 ∧ '\x00' ∉ description ∧
          (id ∈ db.ipRanges.map (·.id) → groupID ∈ db.groups) then
        some { db with
          ipRanges := db.ipRanges.map fun row =>
            if row.id = id then ⟨id, text, groupID, authMode, description⟩ else row }
      else none
  | none => none

/-- `DeleteIPRange`. -/
def deleteIPRange (db : Database) (id : ℤ) : Database :=
  { db with ipRanges := db.ipRanges.filter (·.id ≠ id) }

/-! ### Events -/

/-- The database and the memory of the process. -/
structure RangeWorld where
  db : Database
  engine : Engine
  resolver : Resolver
  /-- The notifications sent and not yet processed. -/
  pending : List Table

inductive RangeEvent
  /-- `CreateRange`; `id` is what the sequence gives out. -/
  | createRange (id : ℤ) (cidr : GoString) (groupID authMode : ℤ) (description : GoString)
  | updateRange (id : ℤ) (cidr : GoString) (groupID authMode : ℤ) (description : GoString)
  | deleteRange (id : ℤ)
  | deleteGroup (id : ℤ)
  /-- The callback of the listener; `order` is the order of its category map. -/
  | deliver (order : List (Σ _ : ℤ, List GoString))
  | addSession (session : Session)
  | evictExpiredSessions (now : ℤ)

/-- What an event does to the tables, and what their triggers notify; `none` is a request that
is refused. -/
def RangeEvent.execute (db : Database) : RangeEvent → Option (Database × List Table)
  | .createRange id cidr groupID authMode description =>
      if (parseCIDR cidr).isSome then
        (createIPRange db id cidr groupID authMode description).map fun db => (db, [.ipRanges])
      else none
  | .updateRange id cidr groupID authMode description =>
      (updateIPRange db id cidr groupID authMode description).map fun db => (db, [.ipRanges])
  | .deleteRange id => some (deleteIPRange db id, [.ipRanges])
  | .deleteGroup id => (AdminOp.deleteGroup id).run db
  | _ => some (db, [])

/-- What an event that is not refused does to the resolver. -/
def RangeEvent.update (r : Resolver) : RangeEvent → Resolver
  | .createRange _ cidr groupID authMode _ =>
      match parseCIDR cidr with
      | some cidrNet => r.addRange ⟨cidrNet, groupID, authMode⟩
      | none => r
  | .addSession session => r.addSession session
  | .evictExpiredSessions now => (r.evictExpiredSessions now).1
  | _ => r

variable [Unicode]

/-- What an event does to the engine and the pending notifications. -/
def RangeEvent.process (files : ListFiles) (w : RangeWorld) : RangeEvent → Engine × List Table
  | .deliver order =>
      match w.pending with
      | _ :: pending =>
          (notifyCallback w.engine files (some w.db.loadActiveBlocklistEntries) (some order)
            (some w.db.loadGroupPolicies), pending)
      | [] => (w.engine, [])
  | _ => (w.engine, w.pending)

/-- One event. -/
def RangeEvent.apply (files : ListFiles) (w : RangeWorld) (e : RangeEvent) : RangeWorld :=
  match e.execute w.db with
  | some (db, notes) =>
      let (engine, pending) := e.process files w
      ⟨db, engine, e.update w.resolver, pending ++ notes⟩
  | none => w

/-- The process starts on its tables. -/
def RangeStart.world (s : RangeStart) (db : Database) (engine : Engine) : RangeWorld :=
  ⟨{ db with ipRanges := s.rows }, engine, s.resolver, []⟩

end Tables

/-- Clients without an active session are resolved as after a restart, for some order of equal
prefixes. -/
def FollowsTable (w : RangeWorld) : Prop :=
  ∀ now clientIP, w.resolver.activeSession now clientIP = none →
    ∃ s : RangeStart, s.rows = w.db.ipRanges ∧
      w.resolver.resolve now clientIP = s.resolver.resolve now clientIP

/-! ### Answers -/

/-- The label that memory gives an address. -/
def Resolver.rangeAnswer (r : Resolver) (clientIP : IP) : ℤ × AuthMode :=
  answer (fun r : IPRange => r.network.contains clientIP) IPRange.label (1, authNone) r.ranges

/-- The defaults of `NewResolver(1)`. -/
def Resolver.HasDefaults (r : Resolver) : Prop := r.defaultGroupID = 1 ∧ r.defaultAuth = authNone

theorem Resolver.resolve_eq_rangeAnswer {r : Resolver} (hd : r.HasDefaults) {now : ℤ}
    {clientIP : IP} (hs : r.activeSession now clientIP = none) :
    r.resolve now clientIP =
      .ok { groupID := (r.rangeAnswer clientIP).1, authMode := (r.rangeAnswer clientIP).2 } := by
  obtain ⟨hg, ha⟩ := hd
  simp only [resolve, hs, rangeAnswer, answer, matchRange]
  cases r.ranges.find? fun ipRange => ipRange.network.contains clientIP with
  | some ipRange => rfl
  | none => simp [hg, ha]

theorem ranges_start (s : RangeStart) :
    s.resolver.ranges = s.sorted.filterMap IPRangeRow.range := by
  rw [RangeStart.resolver, ranges_foldl_addRow]
  rfl

theorem addRow_sessions (r : Resolver) (row : IPRangeRow) :
    (r.addRow row).sessions = r.sessions ∧
      (r.HasDefaults → (r.addRow row).HasDefaults) := by
  unfold Resolver.addRow
  cases row.range with
  | some ipRange => exact ⟨rfl, id⟩
  | none => exact ⟨rfl, id⟩

/-- A process starts without sessions and with the defaults. -/
theorem start_fresh (s : RangeStart) :
    s.resolver.HasDefaults ∧ ∀ now clientIP, s.resolver.activeSession now clientIP = none := by
  have hrows : ∀ (rows : List IPRangeRow) (r : Resolver), r.HasDefaults → r.sessions = ∅ →
      (rows.foldl Resolver.addRow r).HasDefaults ∧
        (rows.foldl Resolver.addRow r).sessions = ∅ := by
    intro rows
    induction rows with
    | nil => exact fun _ hd hs => ⟨hd, hs⟩
    | cons row rows ih =>
      intro r hd hs
      obtain ⟨hsessions, hdefaults⟩ := addRow_sessions r row
      exact ih _ (hdefaults hd) (hsessions.trans hs)
  obtain ⟨hd, hs⟩ := hrows s.sorted (.new 1) ⟨rfl, rfl⟩ rfl
  refine ⟨hd, fun now clientIP => ?_⟩
  simp [Resolver.activeSession, Expiring.live, RangeStart.resolver, hs]

/-- A restart answers with the label of a longest row. -/
theorem rangeAnswer_start (s : RangeStart) (clientIP : IP) :
    s.resolver.rangeAnswer clientIP ∈ tableAnswers s.rows clientIP := by
  have hperm : s.resolver.ranges.Perm (tableRanges s.rows) := by
    rw [ranges_start]
    exact s.perm.filterMap _
  rw [tableAnswers, ← answers_perm hperm]
  exact answer_mem_answers_of_sorted s.ranges_sorted

/-- The prefix length of a row. -/
def IPRangeRow.ones (row : IPRangeRow) : ℕ := (row.range.map fun r => r.network.ones).getD 0

/-- Rows sorted by descending prefix length are in an order that the startup sort can leave. -/
theorem exists_start {rows sorted : List IPRangeRow}
    (hparses : ∀ row ∈ rows, (parseCIDR row.cidr).isSome) (hperm : sorted.Perm rows)
    (hsorted : sorted.Pairwise fun a b => b.ones ≤ a.ones) :
    ∃ s : RangeStart, s.rows = rows ∧ s.sorted = sorted := by
  refine ⟨⟨rows, sorted, hperm, hsorted.imp fun {a b} hab => ?_, hparses⟩, rfl, rfl⟩
  unfold rangeLess
  cases ha : parseCIDR b.cidr with
  | none => rfl
  | some na =>
    cases hb : parseCIDR a.cidr with
    | none => rfl
    | some nb => simpa [IPRangeRow.ones, IPRangeRow.range, ha, hb] using hab

/-- Every label of a longest row is the answer of some restart. -/
theorem exists_start_rangeAnswer {rows : List IPRangeRow}
    (hparses : ∀ row ∈ rows, (parseCIDR row.cidr).isSome) {clientIP : IP} {label : ℤ × AuthMode}
    (h : label ∈ tableAnswers rows clientIP) :
    ∃ s : RangeStart, s.rows = rows ∧ s.resolver.rangeAnswer clientIP = label := by
  let p : IPRangeRow → Bool := fun row => row.range.any fun r => r.network.contains clientIP
  have hp : ∀ row, p row → ∃ r, row.range = some r ∧ r.network.contains clientIP := by
    intro row hrow
    cases hr : row.range with
    | none => simp [p, hr] at hrow
    | some r => exact ⟨r, rfl, by simpa [p, hr] using hrow⟩
  have hmem : ∀ {row r}, row ∈ rows → row.range = some r → r ∈ tableRanges rows :=
    fun hrow hr => List.mem_filterMap.2 ⟨_, hrow, hr⟩
  have hfind : ∀ s : RangeStart,
      (s.resolver.ranges.find? fun r => r.network.contains clientIP) =
        (s.sorted.find? p).bind IPRangeRow.range := by
    intro s
    rw [ranges_start, List.find?_filterMap]
  rcases h with ⟨r, hr, hcontains, hmax, rfl⟩ | ⟨hnone, rfl⟩
  · obtain ⟨row, hrow, hrange⟩ := List.mem_filterMap.1 hr
    have hbest : ∀ b ∈ rows, p b → b.ones ≤ row.ones := by
      intro b hb hpb
      obtain ⟨rb, hrb, hcb⟩ := hp b hpb
      simpa [IPRangeRow.ones, hrb, hrange] using hmax rb (hmem hb hrb) hcb
    obtain ⟨sorted, hperm, hsorted, hfirst⟩ :=
      exists_sorted_find? (p := p) hrow (by simp [p, hrange, hcontains]) hbest
    obtain ⟨s, hs, rfl⟩ := exists_start hparses hperm hsorted
    refine ⟨s, hs, ?_⟩
    rw [Resolver.rangeAnswer, answer, hfind, hfirst, Option.bind_some, hrange]
    rfl
  · obtain ⟨sorted, hperm, hsorted⟩ := exists_sorted IPRangeRow.ones rows
    obtain ⟨s, hs, rfl⟩ := exists_start hparses hperm hsorted
    refine ⟨s, hs, ?_⟩
    have hfirst : s.sorted.find? p = none := by
      refine List.find?_eq_none.2 fun row hrow hprow => ?_
      obtain ⟨r, hr, hcontains⟩ := hp row hprow
      exact hnone r (hmem (hperm.mem_iff.1 hrow) hr) hcontains
    rw [Resolver.rangeAnswer, answer, hfind, hfirst]
    rfl

/-- Ties aside, memory follows the table when it gives every address the label of a longest
row that contains it. -/
theorem followsTable_iff {w : RangeWorld} (hd : w.resolver.HasDefaults)
    (hparses : ∀ row ∈ w.db.ipRanges, (parseCIDR row.cidr).isSome) :
    FollowsTable w ↔
      ∀ clientIP, w.resolver.rangeAnswer clientIP ∈ tableAnswers w.db.ipRanges clientIP := by
  have hstart : ∀ (s : RangeStart) now clientIP, s.resolver.resolve now clientIP =
      .ok { groupID := (s.resolver.rangeAnswer clientIP).1,
            authMode := (s.resolver.rangeAnswer clientIP).2 } :=
    fun s now clientIP =>
      Resolver.resolve_eq_rangeAnswer (start_fresh s).1 ((start_fresh s).2 now clientIP)
  constructor
  · intro h clientIP
    obtain ⟨now, hnow⟩ := w.resolver.exists_activeSession_eq_none clientIP
    obtain ⟨s, hs, heq⟩ := h now clientIP hnow
    rw [Resolver.resolve_eq_rangeAnswer hd hnow, hstart] at heq
    have hlabel : w.resolver.rangeAnswer clientIP = s.resolver.rangeAnswer clientIP := by
      simpa [Prod.ext_iff] using heq
    rw [hlabel, ← hs]
    exact rangeAnswer_start s clientIP
  · intro h now clientIP hnow
    obtain ⟨s, hs, hlabel⟩ := exists_start_rangeAnswer hparses (h clientIP)
    exact ⟨s, hs, by rw [Resolver.resolve_eq_rangeAnswer hd hnow, hstart, hlabel]⟩

/-! ### Operations -/

section Operations

variable [CidrType]

theorem createIPRange_eq_some {db db' : Database} {id groupID authMode : ℤ}
    {cidr description : GoString}
    (h : createIPRange db id cidr groupID authMode description = some db') :
    ∃ text, CidrType.cidr cidr = some text ∧
      db' = { db with
        ipRanges := db.ipRanges ++ [⟨id, text, groupID, authMode, description⟩] } := by
  unfold createIPRange at h
  cases hc : CidrType.cidr cidr with
  | none => simp [hc] at h
  | some text =>
    simp only [hc] at h
    split_ifs at h
    exact ⟨text, rfl, (Option.some.inj h).symm⟩

theorem updateIPRange_eq_some {db db' : Database} {id groupID authMode : ℤ}
    {cidr description : GoString}
    (h : updateIPRange db id cidr groupID authMode description = some db') :
    ∃ text, CidrType.cidr cidr = some text ∧
      db' = { db with
        ipRanges := db.ipRanges.map fun row =>
          if row.id = id then ⟨id, text, groupID, authMode, description⟩ else row } := by
  unfold updateIPRange at h
  cases hc : CidrType.cidr cidr with
  | none => simp [hc] at h
  | some text =>
    simp only [hc] at h
    split_ifs at h
    exact ⟨text, rfl, (Option.some.inj h).symm⟩

omit [CidrType] in
/-- The cascade of a deleted group leaves the ranges of the other groups. -/
theorem ipRanges_deleteGroup {db db' : Database} {id : ℤ} {notes : List Table}
    (h : (AdminOp.deleteGroup id).run db = some (db', notes)) :
    db'.ipRanges.Sublist db.ipRanges := by
  obtain ⟨⟨db₂, ts⟩, hrun, heq⟩ := Option.map_eq_some_iff.1 h
  obtain ⟨rfl, -⟩ := Prod.mk.inj heq
  obtain ⟨db₁, ts', hexec, hrest, -⟩ := runStmts_cons_eq_some.1 hrun
  simp only [runStmts, Option.some.injEq, Prod.mk.injEq] at hrest
  obtain ⟨rfl, -⟩ := hrest
  simp only [Stmt.exec] at hexec
  split_ifs at hexec
  · obtain rfl := Option.some.inj hexec
    exact List.filter_sublist
  · obtain rfl := Option.some.inj hexec
    exact .refl _

/-- The database keeps well-formed texts only. -/
theorem parses_execute {db db' : Database} {e : RangeEvent} {notes : List Table}
    (h : e.execute db = some (db', notes))
    (hparses : ∀ row ∈ db.ipRanges, (parseCIDR row.cidr).isSome) :
    ∀ row ∈ db'.ipRanges, (parseCIDR row.cidr).isSome := by
  cases e with
  | createRange id cidr groupID authMode description =>
    simp only [RangeEvent.execute] at h
    split_ifs at h
    obtain ⟨db₁, hcreate, heq⟩ := Option.map_eq_some_iff.1 h
    obtain ⟨rfl, -⟩ := Prod.mk.inj heq
    obtain ⟨text, htext, rfl⟩ := createIPRange_eq_some hcreate
    intro row hrow
    rcases List.mem_append.1 hrow with hrow | hrow
    · exact hparses row hrow
    · rw [List.mem_singleton.1 hrow]
      exact CidrType.parses htext
  | updateRange id cidr groupID authMode description =>
    obtain ⟨db₁, hupdate, heq⟩ := Option.map_eq_some_iff.1 h
    obtain ⟨rfl, -⟩ := Prod.mk.inj heq
    obtain ⟨text, htext, rfl⟩ := updateIPRange_eq_some hupdate
    intro row hrow
    obtain ⟨row', hrow', rfl⟩ := List.mem_map.1 hrow
    split_ifs
    · exact CidrType.parses htext
    · exact hparses row' hrow'
  | deleteRange id =>
    obtain ⟨rfl, -⟩ := Prod.mk.inj (Option.some.inj h)
    exact fun row hrow => hparses row (List.mem_of_mem_filter hrow)
  | deleteGroup id => exact fun row hrow => hparses row ((ipRanges_deleteGroup h).subset hrow)
  | deliver | addSession | evictExpiredSessions =>
    obtain ⟨rfl, -⟩ := Prod.mk.inj (Option.some.inj h)
    exact hparses

omit [CidrType] in
theorem hasDefaults_update {r : Resolver} (h : r.HasDefaults) (e : RangeEvent) :
    (e.update r).HasDefaults := by
  cases e with
  | createRange id cidr groupID authMode description =>
    simp only [RangeEvent.update]
    split <;> exact h
  | _ => exact h

/-- The condition on the operations.  One that does not reach the memory takes no answer of the
table from any address.  A range is created where memory finds none or one with its label, or
where the table has one as long; and where memory finds none, no longer range of the table
has another label. -/
def KeepsAnswers (w : RangeWorld) : RangeEvent → Prop
  | .createRange id cidr groupID authMode description =>
      ∀ db notes, (RangeEvent.createRange id cidr groupID authMode description).execute w.db =
          some (db, notes) →
        ∀ net, parseCIDR cidr = some net → ∀ clientIP, net.contains clientIP →
          (∀ first, w.resolver.matchRange clientIP = some first →
            (groupID, authMode) = first.label ∨
              ∃ r ∈ tableRanges w.db.ipRanges, r.network.contains clientIP ∧
                net.ones ≤ r.network.ones) ∧
          (w.resolver.matchRange clientIP = none →
            (groupID, authMode) ∈ tableAnswers w.db.ipRanges clientIP ∨
              ∀ r ∈ tableRanges w.db.ipRanges, r.network.contains clientIP →
                r.network.ones ≤ net.ones)
  | e =>
      ∀ db notes, e.execute w.db = some (db, notes) →
        ∀ clientIP, tableAnswers w.db.ipRanges clientIP ⊆ tableAnswers db.ipRanges clientIP

/-- Memory follows the table, on top of what every step keeps. -/
structure Synced (w : RangeWorld) : Prop where
  defaults : w.resolver.HasDefaults
  parses : ∀ row ∈ w.db.ipRanges, (parseCIDR row.cidr).isSome
  follows : FollowsTable w

omit [CidrType] in
theorem Synced.rangeAnswer_mem {w : RangeWorld} (h : Synced w) (clientIP : IP) :
    w.resolver.rangeAnswer clientIP ∈ tableAnswers w.db.ipRanges clientIP :=
  (followsTable_iff h.defaults h.parses).1 h.follows clientIP

omit [CidrType] in
theorem synced_start (s : RangeStart) (db : Database) (engine : Engine) :
    Synced (s.world db engine) :=
  ⟨(start_fresh s).1, s.parses, fun _ _ _ => ⟨s, rfl, rfl⟩⟩

variable [Unicode]

theorem apply_eq (files : ListFiles) {w : RangeWorld} {e : RangeEvent} {db : Database}
    {notes : List Table} (h : e.execute w.db = some (db, notes)) :
    (e.apply files w).db = db ∧ (e.apply files w).resolver = e.update w.resolver := by
  rw [RangeEvent.apply, h]
  exact ⟨rfl, rfl⟩

/-- After an operation that is carried out, memory follows the table if the updated resolver
answers in line with the new rows. -/
theorem synced_apply_iff {files : ListFiles} {w : RangeWorld} (h : Synced w) {e : RangeEvent}
    {db : Database} {notes : List Table} (hexec : e.execute w.db = some (db, notes)) :
    Synced (e.apply files w) ↔
      ∀ clientIP,
        (e.update w.resolver).rangeAnswer clientIP ∈ tableAnswers db.ipRanges clientIP := by
  obtain ⟨hdb, hresolver⟩ := apply_eq files hexec
  have hd : (e.apply files w).resolver.HasDefaults :=
    hresolver ▸ hasDefaults_update h.defaults e
  have hparses : ∀ row ∈ (e.apply files w).db.ipRanges, (parseCIDR row.cidr).isSome :=
    hdb ▸ parses_execute hexec h.parses
  rw [← hdb, ← hresolver, ← followsTable_iff hd hparses]
  exact ⟨fun h => h.follows, fun h => ⟨hd, hparses, h⟩⟩

theorem followsTable_apply_iff {files : ListFiles} {w : RangeWorld} (h : Synced w)
    (e : RangeEvent) : FollowsTable (e.apply files w) ↔ Synced (e.apply files w) := by
  refine ⟨fun hf => ?_, fun hs => hs.follows⟩
  cases hexec : e.execute w.db with
  | none => simpa only [RangeEvent.apply, hexec] using h
  | some r =>
    obtain ⟨hdb, hresolver⟩ := apply_eq files hexec
    exact ⟨hresolver ▸ hasDefaults_update h.defaults e, hdb ▸ parses_execute hexec h.parses, hf⟩

/-- For `CreateRange` the condition is exact. -/
theorem synced_createRange_iff {files : ListFiles} {w : RangeWorld} (h : Synced w)
    {id groupID authMode : ℤ} {cidr description : GoString} :
    Synced ((RangeEvent.createRange id cidr groupID authMode description).apply files w) ↔
      KeepsAnswers w (.createRange id cidr groupID authMode description) := by
  cases hexec : (RangeEvent.createRange id cidr groupID authMode description).execute w.db with
  | none => simp [RangeEvent.apply, KeepsAnswers, hexec, h]
  | some r =>
    obtain ⟨db, notes⟩ := r
    have hstored := hexec
    simp only [RangeEvent.execute] at hstored
    split_ifs at hstored with hsome
    obtain ⟨net, hnet⟩ := Option.isSome_iff_exists.1 hsome
    obtain ⟨db₁, hcreate, heq⟩ := Option.map_eq_some_iff.1 hstored
    obtain ⟨rfl, -⟩ := Prod.mk.inj heq
    obtain ⟨text, htext, rfl⟩ := createIPRange_eq_some hcreate
    have hrow : tableRanges (w.db.ipRanges ++ [⟨id, text, groupID, authMode, description⟩]) =
        tableRanges w.db.ipRanges ++ [⟨net, groupID, authMode⟩] := by
      simp [tableRanges, IPRangeRow.range, CidrType.agrees htext hnet]
    have hupdate : (RangeEvent.createRange id cidr groupID authMode description).update w.resolver =
        w.resolver.addRange ⟨net, groupID, authMode⟩ := by
      simp [RangeEvent.update, hnet]
    rw [synced_apply_iff h hexec, hupdate]
    have hstep := fun clientIP => answer_mem_answers_concat (h.rangeAnswer_mem clientIP)
      (c := ⟨net, groupID, authMode⟩)
    simp only [tableAnswers, hrow]
    refine (forall_congr' hstep).trans ⟨fun hk _ _ _ net' hnet' clientIP hc => ?_,
      fun hk clientIP hc => hk _ _ hexec net hnet clientIP hc⟩
    obtain rfl := Option.some.inj (hnet.symm.trans hnet')
    exact hk clientIP hc

theorem synced_apply {files : ListFiles} {w : RangeWorld} (h : Synced w) {e : RangeEvent}
    (hk : KeepsAnswers w e) : Synced (e.apply files w) := by
  cases hexec : e.execute w.db with
  | none => simpa only [RangeEvent.apply, hexec] using h
  | some r =>
    cases e with
    | createRange => exact (synced_createRange_iff h).2 hk
    | _ =>
      refine (synced_apply_iff h hexec).2 fun clientIP => ?_
      exact hk _ _ hexec clientIP (h.rangeAnswer_mem clientIP)

/-- **Memory follows the table along every run, sessions and callbacks included, whose
operations meet the condition.** -/
theorem ranges_follow_table (files : ListFiles) (s : RangeStart) (db : Database) (engine : Engine)
    (es : List RangeEvent)
    (h : Along (RangeEvent.apply files) KeepsAnswers (s.world db engine) es) :
    FollowsTable (run (RangeEvent.apply files) (s.world db engine) es) :=
  (along_invariant (fun _ w => Synced w) (synced_start s db engine)
    (fun _ _ hw hk => synced_apply hw hk) es h).follows

/-- On freshly started processes the condition is exact for every operation. -/
theorem followsTable_apply_start_iff (files : ListFiles) {rows : List IPRangeRow}
    (hparses : ∀ row ∈ rows, (parseCIDR row.cidr).isSome) (db : Database) (engine : Engine)
    (e : RangeEvent) :
    (∀ s : RangeStart, s.rows = rows → FollowsTable (e.apply files (s.world db engine))) ↔
      ∀ s : RangeStart, s.rows = rows → KeepsAnswers (s.world db engine) e := by
  have hsynced :
      (∀ s : RangeStart, s.rows = rows → FollowsTable (e.apply files (s.world db engine))) ↔
      ∀ s : RangeStart, s.rows = rows → Synced (e.apply files (s.world db engine)) :=
    forall₂_congr fun s _ => followsTable_apply_iff (synced_start s db engine) e
  rw [hsynced]
  refine ⟨fun h => ?_, fun h s hs => synced_apply (synced_start s db engine) (h s hs)⟩
  cases e with
  | createRange => exact fun s hs => (synced_createRange_iff (synced_start s db engine)).1 (h s hs)
  | _ =>
    rintro s rfl db' notes hexec clientIP label hlabel
    -- some restart gives this answer, and the operation does not reach its memory
    obtain ⟨s', hs', rfl⟩ := exists_start_rangeAnswer hparses hlabel
    have hdb : (s'.world db engine).db = (s.world db engine).db := by
      rw [RangeStart.world, RangeStart.world, hs']
    exact (synced_apply_iff (synced_start s' db engine) (hdb ▸ hexec)).1 (h s' hs') clientIP

end Operations

/-- The type `cidr` on inputs that `ParseCIDR` accepts. -/
@[reducible] def plainCidr : CidrType where
  cidr s := if (parseCIDR s).isSome then some s else none
  parses h := by
    split_ifs at h with hs
    cases h
    exact hs
  agrees h hn := by
    split_ifs at h
    cases h
    exact hn

/-- A process that starts on one row, `10.0.0.0/8` of group 2. -/
def secondGroupStart : RangeStart where
  rows := [⟨1, "10.0.0.0/8".toList, 2, 0, []⟩]
  sorted := [⟨1, "10.0.0.0/8".toList, 2, 0, []⟩]
  perm := .refl _
  ordered := List.pairwise_singleton ..
  parses := by decide

/-- The deleted range keeps its addresses in group 2, where a restart puts them into group 1. -/
theorem deleted_range_applies :
    letI := asciiTable
    letI := plainCidr
    let w := secondGroupStart.world { emptyDatabase with groups := [1, 2] } (.new .new .new)
    ¬ ∀ es, (run (RangeEvent.apply ⟨.missing, .missing⟩) w es).pending = [] →
      FollowsTable (run (RangeEvent.apply ⟨.missing, .missing⟩) w es) := by
  intro w h
  obtain ⟨s, hs, heq⟩ := h [.deleteRange 1, .deliver []] rfl 0 (.v4 0x0a000001#32) rfl
  have hsorted : s.sorted = [] := by
    have hrows : s.rows = [] := hs
    exact List.Perm.eq_nil (hrows ▸ s.perm)
  rw [RangeStart.resolver, hsorted] at heq
  have hgroup := congrArg (fun r => r.toOption.map Identity.groupID) heq
  revert hgroup
  decide +kernel

/-- A process that starts on no rows. -/
def emptyStart : RangeStart where
  rows := []
  sorted := []
  perm := .refl _
  ordered := .nil
  parses := List.forall_mem_nil _

/-- A process that starts on `10.0.0.0/8` and a range inside it, both of group 2. -/
def nestedStart : RangeStart where
  rows := [⟨1, "10.0.0.0/8".toList, 2, 0, []⟩, ⟨2, "10.1.0.0/16".toList, 2, 0, []⟩]
  sorted := [⟨2, "10.1.0.0/16".toList, 2, 0, []⟩, ⟨1, "10.0.0.0/8".toList, 2, 0, []⟩]
  perm := .swap ..
  ordered := by decide
  parses := by decide

/-- The network `10.0.0.0/8`. -/
def netTen : IPNet := .v4 0x0a000000#32 ⟨8, by decide⟩

/-- The network is a part of it. -/
def IPNet.inTen : IPNet → Bool
  | .v4 nn ones =>
      cidrMask ones 32 &&& cidrMask 8 32 = cidrMask 8 32 ∧ nn &&& cidrMask 8 32 = 0x0a000000#32
  | .v6 .. => false

theorem contains_netTen {net : IPNet} (hnet : net.inTen = true) {clientIP : IP}
    (h : net.contains clientIP = true) : netTen.contains clientIP = true := by
  cases net with
  | v6 => cases hnet
  | v4 nn ones =>
    obtain ⟨hmask, hnn⟩ := of_decide_eq_true hnet
    unfold netTen
    unfold IPNet.contains at h ⊢
    cases hx : clientIP.to4 with
    | none => simp [hx] at h
    | some x =>
      simp only [hx, decide_eq_true_eq] at h ⊢
      calc 0x0a000000#32 &&& cidrMask 8 32 = 0x0a000000#32 := by decide
        _ = nn &&& cidrMask ones 32 &&& cidrMask 8 32 := by rw [BitVec.and_assoc, hmask, hnn]
        _ = x &&& cidrMask 8 32 := by rw [h, BitVec.and_assoc, hmask]

/-- The rows have the network, and all of them are parts of it with its label. -/
def InTen (rows : List IPRangeRow) : Prop :=
  ⟨netTen, 2, 0⟩ ∈ tableRanges rows ∧
    ∀ r ∈ tableRanges rows, r.label = (2, 0) ∧ r.network.inTen = true

instance (rows : List IPRangeRow) : Decidable (InTen rows) := inferInstanceAs (Decidable (_ ∧ _))

theorem InTen.tableAnswers_eq {rows : List IPRangeRow} (h : InTen rows) (clientIP : IP) :
    tableAnswers rows clientIP =
      {if netTen.contains clientIP then (2, 0) else (1, authNone)} :=
  answers_of_covered h.1 fun r hr => ⟨(h.2 r hr).1, contains_netTen (h.2 r hr).2⟩

/-- An operation that leaves the network as it is, and in it only ranges with its label, takes no
answer of the table. -/
theorem keeps_of_inTen [CidrType] {e : RangeEvent} {db : Database} (h : InTen db.ipRanges)
    (h' : ((e.execute db).all fun p => InTen p.1.ipRanges) = true) {db' : Database}
    {notes : List Table} (hexec : e.execute db = some (db', notes)) (clientIP : IP) :
    tableAnswers db.ipRanges clientIP ⊆ tableAnswers db'.ipRanges clientIP := by
  rw [hexec, Option.all_some] at h'
  rw [h.tableAnswers_eq, (of_decide_eq_true h').tableAnswers_eq]

/-- The inner range is moved, and then deleted. -/
theorem nested_ranges_follow :
    letI := asciiTable
    letI := plainCidr
    FollowsTable (run (RangeEvent.apply ⟨.missing, .missing⟩)
      (nestedStart.world { emptyDatabase with groups := [1, 2] } (.new .new .new))
      [.updateRange 2 "10.2.0.0/16".toList 2 0 [], .deliver [], .deleteRange 2, .deliver []]) := by
  refine @ranges_follow_table plainCidr asciiTable _ _ _ _ _ ⟨?_, ?_, ?_, ?_, trivial⟩ <;>
    exact fun db notes hexec => @keeps_of_inTen plainCidr _ _ (by decide +kernel)
      (by decide +kernel) _ _ hexec

end DnsFilter
