import DnsFilter.Dns.Audit
import DnsFilter.Logging.Storage
import DnsFilter.Store.Logs

/-!
# From the query to the log viewer

A process with its log pipeline, the table `dns_query_logs` that its consumer fills and the
retention empties, and the searches of the dashboard.

* `Entry.Documents`: what the log says about a reply;
* `Logged`: the entries of the running system, one by one, document its replies to different
  calls;
* `Process.inFlight`, `Moves`: where an entry can be on its way, and where it goes;
* `LogSite`: the process and its table, which keeps the microseconds of a time;
* `trail_run`: every row that a search finds documents the reply to a call of its own, which
  arrived when and for whom the row says.
-/

namespace DnsFilter

open EventRun

/-! ### Parts of a list -/

/-- What is related to a part of a list. -/
theorem exists_forall₂_of_sublist {α β : Type*} {R : α → β → Prop} {l m : List α} {ws : List β}
    (hsub : l.Sublist m) (h : List.Forall₂ R m ws) :
    ∃ ws', ws'.Sublist ws ∧ List.Forall₂ R l ws' := by
  induction hsub generalizing ws with
  | slnil =>
    cases h
    exact ⟨[], .slnil, .nil⟩
  | cons a _ ih =>
    cases h with
    | cons _ h =>
      obtain ⟨ws', hws, hrel⟩ := ih h
      exact ⟨ws', hws.cons _, hrel⟩
  | cons_cons a _ ih =>
    cases h with
    | cons hhead h =>
      obtain ⟨ws', hws, hrel⟩ := ih h
      exact ⟨_ :: ws', hws.cons_cons _, .cons hhead hrel⟩

theorem subperm_map {α β : Type*} (f : α → β) {l m : List α} (h : l.Subperm m) :
    (l.map f).Subperm (m.map f) := by
  obtain ⟨l', hperm, hsub⟩ := h
  exact ⟨l'.map f, hperm.map f, hsub.map f⟩

theorem exists_forall₂_of_subperm {α β : Type*} {R : α → β → Prop} {l m : List α} {ws : List β}
    (hsub : l.Subperm m) (h : List.Forall₂ R m ws) :
    ∃ ws', ws'.Subperm ws ∧ List.Forall₂ R l ws' := by
  obtain ⟨l', hperm, hsub⟩ := hsub
  obtain ⟨ws', hws, hrel⟩ := exists_forall₂_of_sublist hsub h
  obtain ⟨ws'', hrel', hperm'⟩ := List.perm_comp_forall₂ hperm.symm hrel
  exact ⟨ws'', hperm'.subperm.trans hws.subperm, hrel'⟩

/-! ### What an entry says -/

/-- The action with which a reply is logged; failures are not logged. -/
def Source.action : Source → Option LogAction
  | .captive | .blocked => some .blocked
  | .cache => some .cached
  | .upstream => some .allowed
  | .identityError | .upstreamError => none

def Source.reason : Source → BlockReason
  | .captive => .policy
  | .blocked => .blacklist
  | .cache | .upstream | .identityError | .upstreamError => .none

def Reply.isLogged (w : Reply) : Bool := w.source.action.isSome

/-- The entry says what was replied, to a call that arrived at this time with this identity. -/
structure Entry.Documents (e : Entry) (w : Reply) (start : ℤ) (id : Identity) : Prop
    extends e.Describes start w.incoming where
  userID : e.userID = if id.userID ≠ 0 then some id.userID else none
  groupID : e.groupID = id.groupID
  action : w.source.action = some e.action
  blockReason : e.blockReason = w.source.reason
  responseIP : e.responseIP = if w.origin.isSome then extractAnswerIP w.msg else .nil

/-- What `Handler.log` writes for a reply. -/
theorem documents_log {h : Handler} (hlog : h.logger = true) (w : Reply) (start : ℤ)
    (id : Identity) {action : LogAction} (haction : w.source.action = some action) {ip : IP}
    (hip : ip = if w.origin.isSome then extractAnswerIP w.msg else .nil) (upstream : String) :
    ∃ e, h.log start w.incoming id action w.source.reason ip upstream = some e ∧
      e.Documents w start id :=
  ⟨_, if_pos hlog, ⟨rfl, rfl, rfl, rfl⟩, rfl, rfl, haction, rfl, hip⟩

section Trail

variable [Unicode] [Miekg]

/-! ### Calls and entries -/

/-- The call of every query in progress or replied to is its own, and `A` holds of its arrival;
the entries document the replies that are logged, in their order. -/
structure Logged (A : Incoming → ℤ → Identity → Prop) (s : System) : Prop where
  logger : s.handler.logger = true
  running : ∀ call q st, s.running call = some (q, st) →
    q.incoming.call = call ∧ call < s.calls ∧ A q.incoming q.start q.id
  replied : ∀ w ∈ s.replies, w.incoming.call < s.calls ∧ s.running w.incoming.call = none
  nodup : (s.replies.map fun w => w.incoming.call).Nodup
  entries : List.Forall₂
    (fun e w => ∃ start id, A w.incoming start id ∧ e.Documents w start id) s.entries
    (s.replies.filter Reply.isLogged)

/-- The reply of a call is logged with an entry that documents it, or is not logged. -/
def WellLogged (A : Incoming → ℤ → Identity → Prop) (out : Output) : Prop :=
  (∃ e start id, out.entry = some e ∧ A out.reply.incoming start id ∧
    e.Documents out.reply start id) ∨ out.entry = none ∧ out.reply.isLogged = false

variable {A A' : Incoming → ℤ → Identity → Prop} {s : System}

omit [Unicode] in
theorem Logged.mono (h : Logged A s) (hA : ∀ inc start id, A inc start id → A' inc start id) :
    Logged A' s where
  logger := h.logger
  running call q st hrun :=
    ⟨(h.running call q st hrun).1, (h.running call q st hrun).2.1,
      hA _ _ _ (h.running call q st hrun).2.2⟩
  replied := h.replied
  nodup := h.nodup
  entries := h.entries.imp fun _ _ ⟨start, id, ha, hdocuments⟩ =>
    ⟨start, id, hA _ _ _ ha, hdocuments⟩

omit [Unicode] in
/-- The reply of a call that has not been replied to. -/
theorem Logged.write (h : Logged A s) {out : Output} (hout : WellLogged A out)
    (hcall : out.reply.incoming.call < s.calls)
    (hidle : s.running out.reply.incoming.call = none)
    (hnew : ∀ w ∈ s.replies, w.incoming.call ≠ out.reply.incoming.call) :
    Logged A (s.write out) where
  logger := h.logger
  running := h.running
  replied w hw := by
    rcases List.mem_append.1 hw with hw | hw
    · exact h.replied w hw
    · rw [List.mem_singleton.1 hw]
      exact ⟨hcall, hidle⟩
  nodup := by
    rw [System.write, List.map_append, List.map_singleton]
    refine List.nodup_append'.2 ⟨h.nodup, List.nodup_singleton _, ?_⟩
    rw [List.disjoint_singleton]
    intro hmem
    obtain ⟨w, hw, heq⟩ := List.mem_map.1 hmem
    exact hnew w hw heq
  entries := by
    rw [System.write, List.filter_append]
    refine List.rel_append h.entries ?_
    rcases hout with ⟨e, start, id, he, ha, hdocuments⟩ | ⟨he, hunlogged⟩
    · have hlogged : out.reply.isLogged = true := by
        rw [Reply.isLogged, hdocuments.action]
        rfl
      rw [he, Option.toList_some, List.filter_singleton, hlogged]
      exact .cons ⟨start, id, ha, hdocuments⟩ .nil
    · rw [he, Option.toList_none, List.filter_singleton, hunlogged]
      exact .nil

omit [Unicode] in
/-- A call in progress goes on or ends, with another cache. -/
theorem Logged.progress (h : Logged A s) {call : ℕ} {q : Query} {st : Stage}
    (hrun : s.running call = some (q, st)) {handler : Handler} {redis : Redis}
    (hlogger : handler.logger = true) (next : Option (Query × Stage))
    (hnext : ∀ q' st', next = some (q', st') → q' = q) (exchanges : List Exchange) :
    Logged A { s with
      handler := handler
      redis := redis
      running := Function.update s.running call next
      exchanges := exchanges } := by
  refine ⟨hlogger, fun c q' st' hc => ?_, fun w hw => ?_, h.nodup, h.entries⟩
  · by_cases heq : c = call
    · subst heq
      simp only [Function.update_self] at hc
      rw [hnext q' st' hc]
      exact h.running c q st hrun
    · simp only [Function.update_of_ne heq] at hc
      exact h.running c q' st' hc
  · obtain ⟨hcall, hidle⟩ := h.replied w hw
    have hne : w.incoming.call ≠ call := by
      intro heq
      rw [heq, hrun] at hidle
      cases hidle
    simp only [Function.update_of_ne hne]
    exact ⟨hcall, hidle⟩

omit [Unicode] in
/-- A call in progress ends with a reply. -/
theorem Logged.finish (h : Logged A s) {call : ℕ} {q : Query} {st : Stage}
    (hrun : s.running call = some (q, st)) {handler : Handler} {redis : Redis}
    (hlogger : handler.logger = true) (exchanges : List Exchange) {out : Output}
    (hinc : out.reply.incoming = q.incoming) (hout : WellLogged A out) :
    Logged A (System.write { s with
      handler := handler
      redis := redis
      running := Function.update s.running call none
      exchanges := exchanges } out) := by
  obtain ⟨hcall, hlt, -⟩ := h.running call q st hrun
  refine (h.progress hrun hlogger none (by simp) exchanges).write hout ?_ ?_ fun w hw heq => ?_
  · rw [hinc, hcall]
    exact hlt
  · rw [hinc, hcall]
    exact Function.update_self ..
  · have hidle := (h.replied w hw).2
    rw [heq, hinc, hcall, hrun] at hidle
    cases hidle

/-- A query that arrives. -/
theorem Logged.arrive (h : Logged A s) {inc : Incoming}
    (hA : ∀ id, inc.call = s.calls → s.handler.identity.resolve s.now inc.clientIP = .ok id →
      A inc s.now id) :
    Logged A ((SystemEvent.arrive inc).apply s) := by
  simp only [SystemEvent.apply]
  split_ifs with hcall
  · exact h
  rw [not_not] at hcall
  obtain ⟨id, hid⟩ := s.handler.identity.resolve_isOk s.now inc.clientIP
  have ha := hA id hcall hid
  have hidle : s.running inc.call = none := by
    by_contra hrun
    obtain ⟨⟨q, st⟩, hrun⟩ := Option.ne_none_iff_exists'.1 hrun
    exact absurd (h.running _ q st hrun).2.1 (by rw [hcall]; exact lt_irrefl _)
  have hnew : ∀ w ∈ s.replies, w.incoming.call ≠ inc.call := fun w hw heq => by
    have hlt := (h.replied w hw).1
    omega
  have hs : Logged A { s with calls := s.calls + 1 } :=
    ⟨h.logger, fun call q st hrun => ⟨(h.running call q st hrun).1,
      (h.running call q st hrun).2.1.trans (Nat.lt_succ_self _), (h.running call q st hrun).2.2⟩,
      fun w hw => ⟨(h.replied w hw).1.trans (Nat.lt_succ_self _), (h.replied w hw).2⟩, h.nodup,
      h.entries⟩
  have hlt : inc.call < s.calls + 1 := by omega
  simp only [Handler.arrive, Handler.admission, hid]
  split_ifs
  · obtain ⟨e, he, hdocuments⟩ := documents_log h.logger (s.handler.sendCaptiveResponse inc)
      s.now id rfl rfl "captive"
    exact hs.write (.inl ⟨e, s.now, id, he, ha, hdocuments⟩) hlt hidle hnew
  · obtain ⟨e, he, hdocuments⟩ := documents_log h.logger (s.handler.sendBlockResponse inc)
      s.now id rfl rfl "blocked"
    exact hs.write (.inl ⟨e, s.now, id, he, ha, hdocuments⟩) hlt hidle hnew
  · refine ⟨h.logger, fun c q st hc => ?_, fun w hw => ?_, h.nodup, h.entries⟩
    · by_cases heq : c = inc.call
      · subst heq
        simp only [Function.update_self, Option.some.injEq, Prod.mk.injEq] at hc
        obtain ⟨rfl, -⟩ := hc
        exact ⟨rfl, hlt, ha⟩
      · simp only [Function.update_of_ne heq] at hc
        exact hs.running c q st hc
    · simp only [Function.update_of_ne (hnew w hw)]
      exact hs.replied w hw

theorem Logged.lookup (h : Logged A s) (call : ℕ) :
    Logged A ((SystemEvent.lookup call).apply s) := by
  simp only [SystemEvent.apply]
  split
  · rename_i q hrun
    have hlogger : (s.handler.lookup s.redis s.now q).2.1.logger = true := h.logger
    split
    · rename_i out hout
      obtain ⟨msg, -, rfl⟩ := Option.map_eq_some_iff.1 hout
      have ha := (h.running call q _ hrun).2.2
      obtain ⟨e, he, hdocuments⟩ := documents_log h.logger
        ⟨.cache, q.incoming, Miekg.setReply msg q.incoming.request, some msg⟩ q.start q.id rfl rfl
        "cache"
      refine h.finish hrun hlogger s.exchanges ?_ ?_
      · rfl
      · exact .inl ⟨e, q.start, q.id, he, ha, hdocuments⟩
    · refine h.progress hrun hlogger (some (q, .upstream)) (fun q' st' heq => ?_) s.exchanges
      cases heq
      rfl
  · exact h

theorem Logged.exchange (h : Logged A s) (call : ℕ) (answers : List (Option Received)) :
    Logged A ((SystemEvent.exchange call answers).apply s) := by
  simp only [SystemEvent.apply]
  split
  · rename_i q hrun
    have ha := (h.running call q _ hrun).2.2
    cases resolveUpstream answers with
    | none => exact h.finish hrun h.logger _ rfl (.inr ⟨rfl, rfl⟩)
    | some m =>
      obtain ⟨e, he, hdocuments⟩ := documents_log h.logger
        ⟨.upstream, q.incoming, Miekg.setReply m.msg q.incoming.request, some m.msg⟩ q.start q.id
        rfl rfl "upstream"
      refine h.finish hrun ?_ _ ?_ ?_
      · exact h.logger
      · rfl
      · exact .inl ⟨e, q.start, q.id, he, ha, hdocuments⟩
  · exact h

theorem Logged.apply (h : Logged A s) (e : SystemEvent)
    (hA : ∀ inc id, e = .arrive inc → inc.call = s.calls →
      s.handler.identity.resolve s.now inc.clientIP = .ok id → A inc s.now id) :
    Logged A (e.apply s) := by
  cases e with
  | tick | filter | identity | loadRanges | evict | invalidate =>
    exact ⟨h.logger, h.running, h.replied, h.nodup, h.entries⟩
  | arrive inc => exact h.arrive fun id => hA inc id rfl
  | lookup call => exact h.lookup call
  | exchange call answers => exact h.exchange call answers

/-! ### Entries on their way -/

/-- An event of a process is at most one event of its system. -/
theorem system_apply (p : Process) (e : ProcessEvent) :
    (e.apply p).system = p.system ∨
      ∃ e', e = .query e' ∧ (e.apply p).system = e'.apply p.system := by
  unfold ProcessEvent.apply
  by_cases hp : p.panicked
  · exact .inl (by rw [if_pos hp])
  rw [if_neg hp]
  cases e with
  | query e =>
    dsimp only
    split_ifs
    · exact .inl rfl
    · exact .inr ⟨e, rfl, rfl⟩
  | log i =>
    dsimp only
    split
    · exact .inl rfl
    · split <;> exact .inl rfl
  | receive | flushTick => exact .inl rfl
  | stop | shutdownPortal | shutdownServer =>
    dsimp only
    split_ifs <;> exact .inl rfl

/-- A call arrived at this time, and was resolved to this identity. -/
def Arrived (p₀ : Process) (es : List ProcessEvent) (inc : Incoming) (start : ℤ) (id : Identity) :
    Prop :=
  ∃ pre, pre ++ [.query (.arrive inc)] <+: es ∧
    let s := (run ProcessEvent.apply p₀ pre).system
    inc.call = s.calls ∧ s.now = start ∧ s.handler.identity.resolve start inc.clientIP = .ok id

theorem logged_run (t : ℤ) (h : Handler) (bufferSize : ℕ) (es : List ProcessEvent) :
    Logged (Arrived (.start t h bufferSize) es)
      (run ProcessEvent.apply (.start t h bufferSize) es).system := by
  refine trace_invariant (fun es (p : Process) =>
    Logged (Arrived (.start t h bufferSize) es) p.system) ?_ (fun es e ih => ?_) es
  · exact ⟨rfl, by simp [Process.start, System.start], by simp [Process.start, System.start],
      List.nodup_nil, .nil⟩
  · have hlater : ∀ inc start id, Arrived (.start t h bufferSize) es inc start id →
        Arrived (.start t h bufferSize) (es ++ [e]) inc start id := by
      rintro inc start id ⟨pre, hpre, harrived⟩
      exact ⟨pre, hpre.trans (List.prefix_append es [e]), harrived⟩
    obtain hsame | ⟨e', rfl, hstep⟩ := system_apply (run ProcessEvent.apply _ es) e
    · rw [hsame]
      exact ih.mono hlater
    · rw [hstep]
      refine (ih.mono hlater).apply e' ?_
      rintro inc id rfl hcall hid
      exact ⟨es, List.prefix_rfl, hcall, rfl, hid⟩

/-- Events of the system only add entries. -/
theorem entries_prefix (s : System) (e : SystemEvent) : s.entries <+: (e.apply s).entries := by
  cases e with
  | tick | filter | identity | loadRanges | evict | invalidate => exact List.prefix_rfl
  | arrive inc =>
    simp only [SystemEvent.apply]
    split_ifs
    · exact List.prefix_rfl
    · split
      · exact List.prefix_append ..
      · exact List.prefix_rfl
  | lookup call =>
    simp only [SystemEvent.apply]
    split
    · split
      · exact List.prefix_append ..
      · exact List.prefix_rfl
    · exact List.prefix_rfl
  | exchange call answers =>
    simp only [SystemEvent.apply]
    split
    · exact List.prefix_append ..
    · exact List.prefix_rfl

theorem entries_apply (s : System) (e : SystemEvent) :
    (e.apply s).entries = s.entries ++ e.logged s := by
  obtain ⟨new, hnew⟩ := entries_prefix s e
  rw [SystemEvent.logged, ← hnew, List.drop_left]

/-- The entries that are neither flushed nor dropped. -/
def Process.inFlight (p : Process) : List Entry :=
  p.pending ++ (p.pipeline.batch ++ p.pipeline.ch)

/-- Between two states, calls end with new entries, entries are flushed, and entries are dropped;
the others stay on their way. -/
def Moves (p p' : Process) (due : List (List Entry)) : Prop :=
  ∃ new gone, p'.system.entries = p.system.entries ++ new ∧
    (due.flatten ++ p'.inFlight ++ gone).Perm (p.inFlight ++ new) ∧
    p'.pipeline.dropped = p.pipeline.dropped + gone.length

omit [Unicode] in
/-- No entry moves. -/
theorem moves_idle {p p' : Process} (hsystem : p'.system = p.system)
    (hflight : p'.inFlight = p.inFlight) (hdropped : p'.pipeline.dropped = p.pipeline.dropped) :
    Moves p p' [] :=
  ⟨[], [], by rw [hsystem, List.append_nil], by simp [hflight], hdropped⟩

omit [Unicode] in
/-- The consumer takes a step. -/
theorem moves_consumer {p : Process} {pipeline : Pipeline} {due : List (List Entry)}
    (hcontents : pipeline.contents = p.pipeline.contents)
    (hflushed : pipeline.flushed = p.pipeline.flushed ++ due)
    (hdropped : pipeline.dropped = p.pipeline.dropped) :
    Moves p { p with pipeline := pipeline } due := by
  refine ⟨[], [], by rw [List.append_nil], List.perm_iff_count.2 fun a => ?_, hdropped⟩
  have hcount := congrArg (List.count a) hcontents
  simp only [Pipeline.contents, hflushed, List.flatten_append, List.count_append] at hcount
  simp only [Process.inFlight, List.append_nil, List.count_append]
  omega

omit [Unicode] in
/-- A pending entry is sent. -/
theorem moves_send {p : Process} {i : ℕ} {entry : Entry} (hi : p.pending[i]? = some entry)
    {pipeline : Pipeline} (hsend : p.pipeline.send entry = some pipeline) :
    Moves p { p with pending := p.pending.eraseIdx i, pipeline := pipeline } [] := by
  obtain ⟨hlt, rfl⟩ := List.getElem?_eq_some_iff.1 hi
  have hcount : ∀ a, (p.pending.eraseIdx i).count a + [p.pending[i]].count a =
      p.pending.count a := fun a => by
    rw [← (List.getElem_cons_eraseIdx_perm hlt).count_eq a, ← List.count_append]
    exact List.perm_append_comm.count_eq a
  obtain ⟨-, ⟨-, rfl⟩ | ⟨-, rfl⟩⟩ := Pipeline.send_cases hsend
  · refine ⟨[], [], by rw [List.append_nil], List.perm_iff_count.2 fun a => ?_, rfl⟩
    have ha := hcount a
    simp only [Process.inFlight, List.flatten_nil, List.nil_append, List.append_nil,
      List.count_append]
    omega
  · refine ⟨[], [p.pending[i]], by rw [List.append_nil], List.perm_iff_count.2 fun a => ?_, rfl⟩
    have ha := hcount a
    simp only [Process.inFlight, List.flatten_nil, List.nil_append, List.append_nil,
      List.count_append]
    omega

theorem moves_apply (p : Process) (e : ProcessEvent) : Moves p (e.apply p) (p.due e) := by
  unfold ProcessEvent.apply Process.due
  by_cases hp : p.panicked
  · rw [if_pos hp, if_pos hp]
    exact moves_idle rfl rfl rfl
  rw [if_neg hp, if_neg hp]
  cases e with
  | query e =>
    dsimp only
    split_ifs
    · exact moves_idle rfl rfl rfl
    · refine ⟨e.logged p.system, [], entries_apply p.system e, List.perm_iff_count.2 fun a => ?_,
        rfl⟩
      simp only [Process.inFlight, List.flatten_nil, List.nil_append, List.append_nil,
        List.count_append]
      omega
  | log i =>
    dsimp only
    cases hi : p.pending[i]? with
    | none => exact moves_idle rfl rfl rfl
    | some entry =>
      cases hsend : p.pipeline.send entry with
      | none =>
        simp only [hsend]
        exact moves_idle rfl rfl rfl
      | some pipeline =>
        simp only [hsend]
        exact moves_send hi hsend
  | receive =>
    exact moves_consumer p.pipeline.contents_receive p.pipeline.flushed_receive
      p.pipeline.dropped_receive
  | flushTick =>
    exact moves_consumer p.pipeline.contents_tick p.pipeline.flushed_tick p.pipeline.dropped_tick
  | stop | shutdownPortal | shutdownServer =>
    dsimp only
    split_ifs <;> exact moves_idle rfl rfl rfl

/-! ### The table -/

/-- A process, and the rows of `dns_query_logs` with the place of the next one. -/
structure LogSite where
  process : Process
  rows : List LogRow
  nextRow : ℕ

inductive LogSiteEvent
  /-- An event of the process; the database may carry out the flushes of the consumer or not. -/
  | process (e : ProcessEvent) (stores : Bool)
  /-- The retention keeps some rows. -/
  | purge (keep : LogRow → Bool)

/-- A time as `TIMESTAMPTZ` keeps it. -/
def microseconds (t : ℤ) : ℤ := t / 1000 * 1000

/-- An entry as the table keeps it. -/
def Entry.inTable (e : Entry) : Entry := { e with queriedAt := microseconds e.queriedAt }

omit [Unicode] [Miekg] in
theorem Entry.Documents.inTable {e : Entry} {w : Reply} {start : ℤ} {id : Identity}
    (h : e.Documents w start id) : e.inTable.Documents w (microseconds start) id :=
  ⟨⟨congrArg microseconds h.queriedAt, h.clientIP, h.domain, h.queryType⟩, h.userID, h.groupID,
    h.action, h.blockReason, h.responseIP⟩

/-- Entries that become rows, from a place on. -/
def numbered (n : ℕ) (entries : List Entry) : List LogRow :=
  (entries.zipIdx n).map fun p => ⟨p.2, p.1.inTable⟩

def LogSite.start (t : ℤ) (h : Handler) (bufferSize : ℕ) : LogSite :=
  ⟨.start t h bufferSize, [], 0⟩

def LogSiteEvent.apply (s : LogSite) : LogSiteEvent → LogSite
  | .process e stores =>
      let entries := if stores then (s.process.due e).flatMap fun batch => (sendBatch batch).1
        else []
      { process := e.apply s.process
        rows := s.rows ++ numbered s.nextRow entries
        nextRow := s.nextRow + entries.length }
  | .purge keep => { s with rows := s.rows.filter keep }

/-- The events of the process. -/
def processEvents (es : List LogSiteEvent) : List ProcessEvent :=
  es.filterMap fun
    | .process e _ => some e
    | .purge _ => none

omit [Unicode] [Miekg] in
@[simp] theorem entry_numbered (n : ℕ) (entries : List Entry) :
    (numbered n entries).map LogRow.entry = entries.map Entry.inTable := by
  have hfst := congrArg (List.map Entry.inTable) (List.zipIdx_map_fst n entries)
  rw [List.map_map] at hfst
  rw [numbered, List.map_map]
  exact hfst

omit [Unicode] [Miekg] in
theorem ctid_numbered (n : ℕ) (entries : List Entry) :
    (numbered n entries).map LogRow.ctid = List.range' n entries.length := by
  rw [numbered, List.map_map]
  exact List.zipIdx_map_snd n entries

theorem process_run (s : LogSite) (es : List LogSiteEvent) :
    (run LogSiteEvent.apply s es).process =
      run ProcessEvent.apply s.process (processEvents es) := by
  induction es generalizing s with
  | nil => rfl
  | cons e es ih =>
    rw [run_cons, ih]
    cases e <;> rfl

omit [Unicode] [Miekg] in
/-- What the database stores of some batches. -/
theorem stored_sublist (batches : List (List Entry)) :
    (batches.flatMap fun batch => (sendBatch batch).1).Sublist batches.flatten := by
  induction batches with
  | nil => exact .slnil
  | cons batch batches ih =>
    rw [List.flatMap_cons, List.flatten_cons]
    refine List.Sublist.append ?_ ih
    rcases rows_eq_nil_or batch with h | h <;> rw [h]
    exact List.nil_sublist _

/-- Every entry is a row, on its way or gone. -/
structure Accounted (s : LogSite) : Prop where
  nodup : (s.rows.map LogRow.ctid).Nodup
  lt : ∀ r ∈ s.rows, r.ctid < s.nextRow
  entries : ∃ gone, (s.rows.map LogRow.entry ++ s.process.inFlight.map Entry.inTable ++ gone).Perm
    (s.process.system.entries.map Entry.inTable) ∧ s.process.pipeline.dropped ≤ gone.length

theorem Accounted.apply {s : LogSite} (h : Accounted s) (e : LogSiteEvent) :
    Accounted (e.apply s) := by
  obtain ⟨gone, hperm, hdropped⟩ := h.entries
  cases e with
  | purge keep =>
    refine ⟨h.nodup.sublist (List.filter_sublist.map _),
      fun r hr => h.lt r (List.mem_of_mem_filter hr),
      (s.rows.filter fun r => !keep r).map LogRow.entry ++ gone, ?_, ?_⟩
    · refine (List.perm_iff_count.2 fun a => ?_).trans hperm
      have hrows := ((List.filter_append_perm keep s.rows).map LogRow.entry).count_eq a
      simp only [List.map_append, List.count_append] at hrows
      simp only [LogSiteEvent.apply, List.count_append]
      omega
    · rw [List.length_append]
      exact hdropped.trans (Nat.le_add_left _ _)
  | process e stores =>
    obtain ⟨new, gone', hentries, hflight, hdropped'⟩ := moves_apply s.process e
    generalize hstored : (if stores then (s.process.due e).flatMap fun batch => (sendBatch batch).1
      else []) = stored
    have hsub : stored.Sublist (s.process.due e).flatten := by
      rw [← hstored]
      split_ifs
      · exact stored_sublist _
      · exact List.nil_sublist _
    obtain ⟨lost, hlost⟩ := hsub.exists_perm_append
    simp only [LogSiteEvent.apply, hstored]
    refine ⟨?_, fun r hr => ?_, (lost ++ gone').map Entry.inTable ++ gone, ?_, ?_⟩
    · rw [List.map_append, ctid_numbered]
      refine List.nodup_append'.2 ⟨h.nodup, List.nodup_range', fun c hc hc' => ?_⟩
      obtain ⟨r, hr, rfl⟩ := List.mem_map.1 hc
      have hlt := h.lt r hr
      have hle := (List.mem_range'_1.1 hc').1
      omega
    · rcases List.mem_append.1 hr with hr | hr
      · exact (h.lt r hr).trans_le (Nat.le_add_right _ _)
      · have hmem := List.mem_map_of_mem (f := LogRow.ctid) hr
        rw [ctid_numbered] at hmem
        exact (List.mem_range'_1.1 hmem).2
    · refine List.perm_iff_count.2 fun a => ?_
      have h₁ := hperm.count_eq a
      have h₂ := (hflight.map Entry.inTable).count_eq a
      have h₃ := (hlost.map Entry.inTable).count_eq a
      simp only [hentries, List.map_append, entry_numbered, List.count_append] at h₁ h₂ h₃ ⊢
      omega
    · simp only [hdropped', List.length_append, List.length_map]
      omega

theorem accounted_run (t : ℤ) (h : Handler) (bufferSize : ℕ) (es : List LogSiteEvent) :
    Accounted (run LogSiteEvent.apply (.start t h bufferSize) es) := by
  refine run_invariant Accounted (fun _ e hs => hs.apply e) ⟨?_, ?_, [], ?_, ?_⟩ es
  · exact List.nodup_nil
  · exact List.forall_mem_nil _
  · exact .refl _
  · exact le_rfl

/-! ### Searches -/

variable [LogCasts]

omit [Miekg] in
/-- A page of a search is a part of the rows that match, and these of the table. -/
theorem subperm_of_queryLogs {order : RowOrder} {table : LogTable} {f : LogFilter}
    {page : List LogRow} {total : ℕ} (hquery : queryLogs order table f = some (page, total)) :
    page.Subperm table.rows ∧ total ≤ table.rows.length := by
  obtain ⟨rows, hrows, hpage⟩ := Option.bind_eq_some_iff.1 hquery
  have hsub : rows.Sublist table.rows := by
    obtain ⟨conditions, -, rfl⟩ := Option.map_eq_some_iff.1 hrows
    exact List.filter_sublist
  split_ifs at hpage with hbounds
  obtain ⟨rfl, rfl⟩ := Prod.mk.inj (Option.some.inj hpage)
  have htake := (List.take_sublist f.limit.toNat _).trans
    (List.drop_sublist f.offset.toNat (order.sort rows))
  have hperm := (order.arranges rows).perm
  exact ⟨htake.subperm.trans (hperm.subperm.trans hsub.subperm), hsub.length_le⟩

end Trail

/-- Two queries are answered by an upstream, and their entries are flushed in one batch. -/
def flushedQueries : letI := plainMiekg; List LogSiteEvent :=
  letI := plainMiekg
  (answered ⟨shortLived, shortLived, rfl⟩ 0 typeA ++ [ProcessEvent.query (.tick 1500)] ++
    answered ⟨shortLived, shortLived, rfl⟩ 1 typeAAAA ++
    [ProcessEvent.receive, ProcessEvent.receive, ProcessEvent.flushTick]).map (.process · true)

end DnsFilter
