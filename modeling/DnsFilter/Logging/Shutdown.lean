import DnsFilter.Dns.System

/-!
# Graceful shutdown

A process is the running system, whose calls of `ServeDNS` end with a `Send` to the log
pipeline, together with the goroutine of the signal handler: it stops the pipeline, shuts
down the portal, and only then shuts down the DNS server, which accepts queries until that
moment.

`no_send_after_stop_iff`: no call in progress can run into the closed channel exactly when
`Stop` finds none in progress and no query is accepted between `Stop` and the shutdown of
the server.
-/

namespace DnsFilter

open EventRun

/-- The progress of the signal handler. -/
inductive Phase
  | running
  | stopping
  | portalDown
  | serverDown
  deriving DecidableEq

section Shutdown

variable [Unicode] [Miekg]

/-- What the calls of one event log. -/
def SystemEvent.logged (s : System) (e : SystemEvent) : List Entry :=
  (e.apply s).entries.drop s.entries.length

structure Process where
  system : System
  /-- The entries of calls that are about to log. -/
  pending : List Entry
  pipeline : Pipeline
  phase : Phase
  panicked : Bool

inductive ProcessEvent
  /-- A step of the system; an accepted query is an `arrive`. -/
  | query (e : SystemEvent)
  /-- One of the pending calls of `h.log`. -/
  | log (i : ℕ)
  | receive
  | flushTick
  | stop
  | shutdownPortal
  | shutdownServer

/-- The DNS server no longer accepts queries. -/
def Phase.refuses : Phase → SystemEvent → Bool
  | .serverDown, .arrive _ => true
  | _, _ => false

/-- One event; nothing happens any more after a panic. -/
def ProcessEvent.apply (s : Process) (e : ProcessEvent) : Process :=
  if s.panicked then s
  else match e with
    | .query e =>
        if s.phase.refuses e then s
        else { s with system := e.apply s.system, pending := s.pending ++ e.logged s.system }
    | .log i =>
        match s.pending[i]? with
        | none => s
        | some entry =>
            match s.pipeline.send entry with
            | some pipeline => { s with pending := s.pending.eraseIdx i, pipeline := pipeline }
            | none => { s with panicked := true }
    | .receive => { s with pipeline := s.pipeline.receive }
    | .flushTick => { s with pipeline := s.pipeline.tick }
    | .stop =>
        if s.phase = .running then { s with pipeline := s.pipeline.close, phase := .stopping }
        else s
    | .shutdownPortal =>
        -- `Stop` waits for the consumer before it returns
        if s.phase = .stopping ∧ s.pipeline.exited then { s with phase := .portalDown } else s
    | .shutdownServer => if s.phase = .portalDown then { s with phase := .serverDown } else s

/-- A process with a log pipeline. -/
def Process.start (t : ℤ) (h : Handler) (bufferSize : ℕ) : Process :=
  ⟨System.start t { h with logger := true }, [], Pipeline.new bufferSize, .running, false⟩

/-- No call of `ServeDNS` is in progress. -/
def Process.Idle (s : Process) : Prop :=
  (∀ call, s.system.running call = none) ∧ s.pending = []

/-- `Stop` finds no call in progress, and no query is accepted while the channel is closed. -/
def QuietStop (s : Process) : ProcessEvent → Prop
  | .stop => s.phase = .running → s.Idle
  | .query (.arrive inc) => inc.call = s.system.calls → s.phase = .running ∨ s.phase = .serverDown
  | _ => True

/-- A step of a call that has been accepted. -/
def ProcessEvent.isProgress : ProcessEvent → Prop
  | .query (.lookup _) | .query (.exchange _ _) | .log _ => True
  | _ => False

/-! ### Steps of the system -/

/-- The handler keeps its logger. -/
theorem logger_apply (s : System) (e : SystemEvent) :
    (e.apply s).handler.logger = s.handler.logger := by
  by_cases he : e.isConfig
  · cases e with
    | tick | filter | identity | loadRanges => rfl
    | _ => cases he
  · obtain ⟨-, cache, hhandler⟩ := SystemEvent.frame s he
    rw [hhandler]

/-- Without calls in progress, nothing but a new query starts one or logs anything. -/
theorem apply_of_idle {s : System} (h : ∀ call, s.running call = none) {e : SystemEvent}
    (he : ∀ inc, e = .arrive inc → inc.call ≠ s.calls) :
    (∀ call, (e.apply s).running call = none) ∧ e.logged s = [] := by
  cases e with
  | tick | filter | identity | loadRanges | evict | invalidate =>
    exact ⟨h, List.drop_length ..⟩
  | arrive inc =>
    have hs : (SystemEvent.arrive inc).apply s = s := by
      rw [SystemEvent.apply, if_pos (he inc rfl)]
    rw [SystemEvent.logged, hs, List.drop_length]
    exact ⟨h, rfl⟩
  | lookup call =>
    have hs : (SystemEvent.lookup call).apply s = s := by simp [SystemEvent.apply, h call]
    rw [SystemEvent.logged, hs, List.drop_length]
    exact ⟨h, rfl⟩
  | exchange call answers =>
    have hs : (SystemEvent.exchange call answers).apply s = s := by
      simp [SystemEvent.apply, h call]
    rw [SystemEvent.logged, hs, List.drop_length]
    exact ⟨h, rfl⟩

/-- An accepted query is in progress or has an entry to log. -/
theorem busy_of_arrive {s : System} {inc : Incoming} (hlog : s.handler.logger = true)
    (hcall : inc.call = s.calls) :
    ((SystemEvent.arrive inc).apply s).running inc.call ≠ none ∨
      (SystemEvent.arrive inc).logged s ≠ [] := by
  rw [SystemEvent.logged, SystemEvent.apply, if_neg (not_not.2 hcall)]
  cases ho : s.handler.arrive s.now inc with
  | inr q => simp only [ho, Function.update_self, ne_eq, reduceCtorEq, not_false_eq_true, true_or]
  | inl out =>
    obtain ⟨entry, hentry⟩ := Option.isSome_iff_exists.1 (Handler.entry_of_arrive hlog ho)
    right
    simp [ho, System.write, hentry]

/-- A call that looks into the cache has an entry to log or asks the upstreams next. -/
theorem busy_of_lookup {s : System} {call : ℕ} {q : Query} (hlog : s.handler.logger = true)
    (hrun : s.running call = some (q, .lookup)) :
    ((SystemEvent.lookup call).apply s).running call = some (q, .upstream) ∨
      (SystemEvent.lookup call).logged s ≠ [] := by
  simp only [SystemEvent.logged, SystemEvent.apply, hrun]
  cases hl : (s.handler.lookup s.redis s.now q).1 with
  | none => exact .inl (Function.update_self ..)
  | some out =>
    obtain ⟨msg, -, rfl⟩ := Option.map_eq_some_iff.1 hl
    obtain ⟨entry, hentry⟩ := Option.isSome_iff_exists.1
      (Handler.log_isSome hlog q.start q.incoming q.id .cached .none
        (extractAnswerIP (Miekg.setReply msg q.incoming.request)) "cache")
    right
    simp [System.write, hentry]

/-- A call whose upstream responds has an entry to log. -/
theorem logged_of_exchange {s : System} {call : ℕ} {q : Query} (hlog : s.handler.logger = true)
    (hrun : s.running call = some (q, .upstream)) (m : Received) :
    (SystemEvent.exchange call [some m]).logged s ≠ [] := by
  obtain ⟨entry, hentry⟩ := Option.isSome_iff_exists.1
    (Handler.log_isSome hlog q.start q.incoming q.id .allowed .none
      (extractAnswerIP (Miekg.setReply m.msg q.incoming.request)) "upstream")
  simp [SystemEvent.logged, SystemEvent.apply, hrun, resolveUpstream, Handler.finish, System.write,
    hentry]

/-! ### Calls that run into the closed channel -/

/-- The handler logs to a pipeline whose channel the signal handler closes. -/
structure Process.Wired (s : Process) : Prop where
  logger : s.system.handler.logger = true
  closed : s.pipeline.closed = true ↔ s.phase ≠ .running

omit [Unicode] in
theorem Process.wired_start (t : ℤ) (h : Handler) (bufferSize : ℕ) :
    (Process.start t h bufferSize).Wired := ⟨rfl, by simp [Process.start, Pipeline.new]⟩

theorem Process.Wired.apply {s : Process} (h : s.Wired) (e : ProcessEvent) : (e.apply s).Wired := by
  unfold ProcessEvent.apply
  by_cases hp : s.panicked = true
  · rw [if_pos hp]
    exact h
  rw [if_neg hp]
  cases e with
  | query e =>
    dsimp only
    split_ifs
    · exact h
    · exact ⟨(logger_apply s.system e).trans h.logger, h.closed⟩
  | log i =>
    dsimp only
    cases s.pending[i]? with
    | none => exact h
    | some entry =>
      dsimp only
      cases hsend : s.pipeline.send entry with
      | none => exact ⟨h.logger, h.closed⟩
      | some pipeline =>
        have hopen : ¬ s.pipeline.closed = true := fun hc => by
          rw [Pipeline.send_eq_none.2 hc] at hsend
          cases hsend
        exact ⟨h.logger, by simp [Pipeline.closed_of_send hsend, ← h.closed, hopen]⟩
  | receive => exact ⟨h.logger, by simpa using h.closed⟩
  | flushTick => exact ⟨h.logger, by simpa using h.closed⟩
  | stop =>
    dsimp only
    split_ifs with hphase
    · exact ⟨h.logger, by simp [Pipeline.close]⟩
    · exact h
  | shutdownPortal =>
    dsimp only
    split_ifs with hphase
    · exact ⟨h.logger, by simp [h.closed, hphase.1]⟩
    · exact h
  | shutdownServer =>
    dsimp only
    split_ifs with hphase
    · exact ⟨h.logger, by simp [h.closed, hphase]⟩
    · exact h

/-- Alive, and without calls in progress from `Stop` on. -/
structure Process.Safe (s : Process) : Prop where
  alive : s.panicked = false
  idle : s.phase ≠ .running → s.Idle

/-- A step of the system that the server does not refuse. -/
theorem query_apply {s : Process} {e : SystemEvent} (halive : s.panicked = false)
    (hopen : s.phase.refuses e = false) :
    ProcessEvent.apply s (.query e) =
      { s with system := e.apply s.system, pending := s.pending ++ e.logged s.system } := by
  simp [ProcessEvent.apply, halive, hopen]

/-- A pending entry makes a process with a closed channel panic. -/
theorem panics_of_pending {s : Process} (halive : s.panicked = false)
    (hclosed : s.pipeline.closed = true) (hpending : s.pending ≠ []) :
    (ProcessEvent.apply s (.log 0)).panicked = true := by
  obtain ⟨entry, rest, hcons⟩ := List.exists_cons_of_ne_nil hpending
  simp [ProcessEvent.apply, halive, hcons, Pipeline.send_eq_none.2 hclosed]

/-- A call that waits for the upstreams makes it panic as soon as one of them responds. -/
theorem panics_of_upstream {s : Process} (h : s.Wired) (halive : s.panicked = false)
    (hclosed : s.pipeline.closed = true) {call : ℕ} {q : Query}
    (hrun : s.system.running call = some (q, .upstream)) (m : Received) :
    (run ProcessEvent.apply s [.query (.exchange call [some m]), .log 0]).panicked = true := by
  have hlogged := logged_of_exchange h.logger hrun m
  rw [run_cons, run_cons, run_nil, query_apply halive (by cases s.phase <;> rfl)]
  exact panics_of_pending halive hclosed (by simp [hlogged])

/-- A call in progress can make a process with a closed channel panic. -/
theorem exists_panic {s : Process} (h : s.Wired) (halive : s.panicked = false)
    (hphase : s.phase ≠ .running) (hbusy : ¬ s.Idle) :
    ∃ fs : List ProcessEvent, (∀ f ∈ fs, f.isProgress) ∧
      (run ProcessEvent.apply s fs).panicked = true := by
  have hclosed : s.pipeline.closed = true := h.closed.2 hphase
  obtain ⟨w, msg, hw, -⟩ := Miekg.exists_answer
  by_cases hpending : s.pending = []
  · obtain ⟨call, hcall⟩ : ∃ call, s.system.running call ≠ none := by
      by_contra hnone
      exact hbusy ⟨fun call => not_not.1 fun hcall => hnone ⟨call, hcall⟩, hpending⟩
    obtain ⟨⟨q, stage⟩, hrun⟩ := Option.ne_none_iff_exists'.1 hcall
    cases stage with
    | upstream =>
      exact ⟨_, by simp [ProcessEvent.isProgress],
        panics_of_upstream h halive hclosed hrun ⟨msg, w, hw⟩⟩
    | lookup =>
      have hstep := query_apply (e := .lookup call) halive (by cases s.phase <;> rfl)
      have hwired := h.apply (.query (.lookup call))
      rw [hstep] at hwired
      rcases busy_of_lookup h.logger hrun with hmiss | hlogged
      · refine ⟨[.query (.lookup call), .query (.exchange call [some ⟨msg, w, hw⟩]), .log 0],
          by simp [ProcessEvent.isProgress], ?_⟩
        rw [run_cons, hstep]
        exact panics_of_upstream hwired halive hclosed hmiss _
      · refine ⟨[.query (.lookup call), .log 0], by simp [ProcessEvent.isProgress], ?_⟩
        rw [run_cons, run_cons, run_nil, hstep]
        exact panics_of_pending halive hclosed (by simp [hlogged])
  · exact ⟨[.log 0], by simp [ProcessEvent.isProgress], panics_of_pending halive hclosed hpending⟩

/-! ### Quiet stops -/

/-- A query that is accepted while the channel is open or after the server is down is
harmless; one accepted in between is not. -/
theorem safe_query {s : Process} (h : s.Wired) (hs : s.Safe) (e : SystemEvent) :
    (ProcessEvent.apply s (.query e)).Safe ↔ QuietStop s (.query e) := by
  by_cases hrefused : s.phase.refuses e = true
  · have hdown : s.phase = .serverDown := by
      unfold Phase.refuses at hrefused
      split at hrefused
      · assumption
      · cases hrefused
    have hstep : ProcessEvent.apply s (.query e) = s := by
      simp [ProcessEvent.apply, hs.alive, hrefused]
    rw [hstep]
    refine iff_of_true hs ?_
    cases e with
    | arrive inc => exact fun _ => .inr hdown
    | _ => trivial
  rw [query_apply hs.alive (by simpa using hrefused)]
  by_cases hrunning : s.phase = .running
  · refine iff_of_true ⟨hs.alive, fun hphase => absurd hrunning hphase⟩ ?_
    cases e with
    | arrive inc => exact fun _ => .inl hrunning
    | _ => trivial
  have hidle := hs.idle hrunning
  by_cases hnew : ∃ inc, e = .arrive inc ∧ inc.call = s.system.calls
  · obtain ⟨inc, rfl, hcall⟩ := hnew
    have hup : s.phase ≠ .serverDown := fun hdown => hrefused (by rw [hdown]; rfl)
    refine iff_of_false (fun hs' => ?_) fun hq => (hq hcall).elim hrunning hup
    have hidle' := hs'.idle hrunning
    rcases busy_of_arrive h.logger hcall with hrun | hlogged
    · exact hrun (hidle'.1 inc.call)
    · exact hlogged (List.append_eq_nil_iff.1 hidle'.2).2
  · obtain ⟨hrun, hlogged⟩ := apply_of_idle hidle.1 (e := e)
      fun inc he hcall => hnew ⟨inc, he, hcall⟩
    refine iff_of_true ⟨hs.alive, fun _ => ⟨hrun, by simp [hlogged, hidle.2]⟩⟩ ?_
    cases e with
    | arrive inc => exact fun hcall => absurd ⟨inc, rfl, hcall⟩ hnew
    | _ => trivial

/-- **A step leaves a safe process safe exactly when it meets `QuietStop`.** -/
theorem safe_apply {s : Process} (h : s.Wired) (hs : s.Safe) (e : ProcessEvent) :
    (e.apply s).Safe ↔ QuietStop s e := by
  have halive : ¬ s.panicked = true := by simp [hs.alive]
  cases e with
  | query e => exact safe_query h hs e
  | log i =>
    refine iff_of_true ?_ trivial
    rw [ProcessEvent.apply, if_neg halive]
    split
    · exact hs
    · rename_i entry hi
      have hrunning : s.phase = .running := by
        by_contra hphase
        rw [(hs.idle hphase).2] at hi
        cases hi
      split
      · exact ⟨hs.alive, fun hphase => absurd hrunning hphase⟩
      · rename_i hsend
        exact absurd hrunning (h.closed.1 (Pipeline.send_eq_none.1 hsend))
  | receive | flushTick =>
    refine iff_of_true ?_ trivial
    rw [ProcessEvent.apply, if_neg halive]
    exact ⟨hs.alive, hs.idle⟩
  | stop =>
    rw [ProcessEvent.apply, if_neg halive]
    by_cases hphase : s.phase = .running
    · rw [if_pos hphase]
      exact ⟨fun hs' _ => hs'.idle (by simp), fun hq => ⟨hs.alive, fun _ => hq hphase⟩⟩
    · rw [if_neg hphase]
      exact iff_of_true hs fun hrunning => absurd hrunning hphase
  | shutdownPortal =>
    refine iff_of_true ?_ trivial
    rw [ProcessEvent.apply, if_neg halive]
    split_ifs with hphase
    · exact ⟨hs.alive, fun _ => hs.idle (by simp [hphase.1])⟩
    · exact hs
  | shutdownServer =>
    refine iff_of_true ?_ trivial
    rw [ProcessEvent.apply, if_neg halive]
    split_ifs with hphase
    · exact ⟨hs.alive, fun _ => hs.idle (by simp [hphase])⟩
    · exact hs

omit [Unicode] in
/-- A step of a call in progress is quiet. -/
theorem quietStop_of_isProgress {s : Process} {e : ProcessEvent} (he : e.isProgress) :
    QuietStop s e := by
  cases e with
  | query e =>
    cases e with
    | lookup | exchange => trivial
    | _ => exact he.elim
  | log => trivial
  | _ => exact he.elim

/-- No call in progress can run into the closed channel exactly in the safe states. -/
theorem safe_iff {s : Process} (h : s.Wired) :
    s.Safe ↔ ∀ fs : List ProcessEvent, (∀ f ∈ fs, f.isProgress) →
      (run ProcessEvent.apply s fs).panicked = false := by
  constructor
  · intro hs fs hfs
    have hrun : (run ProcessEvent.apply s fs).Wired ∧ (run ProcessEvent.apply s fs).Safe := by
      induction fs generalizing s with
      | nil => exact ⟨h, hs⟩
      | cons f fs ih =>
        obtain ⟨hf, hfs⟩ := List.forall_mem_cons.1 hfs
        exact ih (h.apply f) ((safe_apply h hs f).2 (quietStop_of_isProgress hf)) hfs
    exact hrun.2.alive
  · intro hnone
    have halive : s.panicked = false := hnone [] (by simp)
    refine ⟨halive, fun hphase => ?_⟩
    by_contra hbusy
    obtain ⟨fs, hfs, hpanic⟩ := exists_panic h halive hphase hbusy
    rw [hnone fs hfs] at hpanic
    cases hpanic

/-- **No call that is in progress at any time of a run can send on the closed channel exactly
when `Stop` finds no call in progress and no query is accepted from then until the server is
down.** -/
theorem no_send_after_stop_iff (t : ℤ) (h : Handler) (bufferSize : ℕ) (es : List ProcessEvent) :
    (∀ pre, pre <+: es → ∀ fs : List ProcessEvent, (∀ f ∈ fs, f.isProgress) →
      (run ProcessEvent.apply (Process.start t h bufferSize) (pre ++ fs)).panicked = false) ↔
      Along ProcessEvent.apply QuietStop (Process.start t h bufferSize) es := by
  have hwired : ∀ es, (run ProcessEvent.apply (Process.start t h bufferSize) es).Wired :=
    run_invariant Process.Wired (fun s e hs => hs.apply e) (Process.wired_start t h bufferSize)
  have hexact : ∀ s e, s.Wired ∧ s.Safe →
      ((ProcessEvent.apply s e).Wired ∧ (ProcessEvent.apply s e).Safe ↔ QuietStop s e) := by
    rintro s e ⟨hw, hs⟩
    rw [and_iff_right (hw.apply e)]
    exact safe_apply hw hs e
  have hstart : (Process.start t h bufferSize).Safe := ⟨rfl, fun hphase => absurd rfl hphase⟩
  rw [along_iff (fun s => s.Wired ∧ s.Safe) hexact ⟨Process.wired_start t h bufferSize, hstart⟩]
  refine forall₂_congr fun pre _ => ?_
  rw [and_iff_right (hwired pre), safe_iff (hwired pre)]
  simp only [run_append]

end Shutdown

/-- A query accepted before the signal is answered by an upstream after `Stop`. -/
theorem shutdown_panics :
    letI := asciiTable
    letI := plainMiekg
    ¬ ∀ (t : ℤ) (h : Handler) (bufferSize : ℕ) (es : List ProcessEvent),
      (run ProcessEvent.apply (Process.start t h bufferSize) es).panicked = false := by
  intro h
  let := asciiTable
  let := plainMiekg
  have hrun := h 0 openHandler 100
    [.query (.arrive (askFor 0 (questionIn classINET))), .stop, .query (.lookup 0),
      .query (.exchange 0 [some ⟨shortLived, shortLived, rfl⟩]), .log 0]
  revert hrun
  decide +kernel

end DnsFilter
