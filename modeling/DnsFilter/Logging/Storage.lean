import DnsFilter.Logging.Conservation
import DnsFilter.Logging.Shutdown
import DnsFilter.Store.Tables

/-!
# Log entries in the database

What a flush writes into `dns_query_logs`, and what is stored of the entries of a process when
its log pipeline has stopped.

* `sendBatch`: a batch is sent as a whole or, when a value has no encoding, not at all, and
  the statements of a sent batch commit together;
* `Pipeline.due`: the batch that an event of the consumer flushes;
* `log_entries_stored_iff`: every entry that fits the table is stored, and every flush reports
  what it has stored, exactly when no flush mixes entries that fit with one that cannot be
  stored.
-/

namespace DnsFilter

open EventRun

/-! ### Flushes -/

namespace Entry

/-- The query type fits its column. -/
def typeFits (e : Entry) : Prop := fitsSmallint e.queryType.toNat

/-- All arguments of the `INSERT` can be encoded. -/
def encodes (e : Entry) : Prop :=
  e.typeFits ∧ fitsInteger e.groupID ∧ (∀ u ∈ e.userID, fitsInteger u) ∧
    ∀ c ∈ e.categoryID, fitsSmallint c

/-- The server executes the `INSERT`: `<nil>` is not an address, and no text has a NUL. -/
def executes (e : Entry) : Prop :=
  e.clientIP ≠ .nil ∧ '\x00' ∉ e.domain ∧ '\x00' ∉ e.upstream

/-- The entry can be stored. -/
def storable (e : Entry) : Prop := e.encodes ∧ e.executes

instance (e : Entry) : Decidable e.typeFits := inferInstanceAs (Decidable (fitsSmallint _))

instance (e : Entry) : Decidable e.encodes := inferInstanceAs (Decidable (_ ∧ _))

instance (e : Entry) : Decidable e.executes := inferInstanceAs (Decidable (_ ∧ _))

end Entry

/-- The rows that `SendBatch` leaves in the table, but for the nanoseconds of their times, and how
many of the results report no
error: all or none when the arguments cannot be encoded, those before the first failing
statement otherwise. -/
def sendBatch (batch : List Entry) : List Entry × ℕ :=
  if ∀ e ∈ batch, e.encodes then
    if ∀ e ∈ batch, e.executes then (batch, batch.length)
    else ([], (batch.takeWhile fun e => e.executes).length)
  else ([], 0)

/-- The batch is stored as a whole, or has nothing to lose. -/
def Alike (batch : List Entry) : Prop :=
  (∀ e ∈ batch, e.storable) ∨ ∀ e ∈ batch, ¬ e.typeFits

instance (batch : List Entry) : Decidable (Alike batch) :=
  inferInstanceAs (Decidable ((∀ e ∈ batch, e.encodes ∧ e.executes) ∨ _))

/-- The entries that fit are stored, and the flush reports as many entries as it has stored. -/
def FlushRight (batch : List Entry) : Prop :=
  (∀ e, e.typeFits → (sendBatch batch).1.count e = batch.count e) ∧
    (sendBatch batch).2 = (sendBatch batch).1.length

theorem sendBatch_of_storable {batch : List Entry} (h : ∀ e ∈ batch, e.storable) :
    sendBatch batch = (batch, batch.length) := by
  rw [sendBatch, if_pos fun e he => (h e he).1, if_pos fun e he => (h e he).2]

theorem sendBatch_of_not_storable {batch : List Entry} (h : ¬ ∀ e ∈ batch, e.storable) :
    (sendBatch batch).1 = [] := by
  unfold sendBatch
  split_ifs with henc hexe
  · exact absurd (fun e he => ⟨henc e he, hexe e he⟩) h
  · rfl
  · rfl

theorem rows_eq_nil_or (batch : List Entry) :
    (sendBatch batch).1 = [] ∨ (sendBatch batch).1 = batch := by
  by_cases h : ∀ e ∈ batch, e.storable
  · exact .inr (by rw [sendBatch_of_storable h])
  · exact .inl (sendBatch_of_not_storable h)

/-- A flush is right exactly on the batches that are alike. -/
theorem flushRight_iff (batch : List Entry) : FlushRight batch ↔ Alike batch := by
  by_cases h : ∀ e ∈ batch, e.storable
  · refine iff_of_true ⟨fun e _ => ?_, ?_⟩ (.inl h) <;> rw [sendBatch_of_storable h]
  · have hrows := sendBatch_of_not_storable h
    rw [Alike, or_iff_right h, FlushRight, hrows]
    constructor
    · rintro ⟨hcount, -⟩ e he hfits
      have hzero := hcount e hfits
      rw [List.count_nil, eq_comm, List.count_eq_zero] at hzero
      exact hzero he
    · intro hnone
      refine ⟨fun e hfits => ?_, ?_⟩
      · rw [List.count_nil, eq_comm, List.count_eq_zero]
        exact fun he => hnone e he hfits
      · -- the batch is not empty, and its entries have no encoding
        unfold sendBatch
        rw [if_neg]
        · rfl
        · intro henc
          refine h fun e he => absurd (henc e he).1 (hnone e he)

/-! ### Runs -/

namespace Pipeline

/-- The rows of the entries flushed so far. -/
def rows (p : Pipeline) : List Entry := p.flushed.flatMap fun batch => (sendBatch batch).1

/-- Every entry that the pipeline has taken in and that fits the table is stored, and every
flush reports what it has stored. -/
def EntriesStored (p : Pipeline) : Prop :=
  (∀ e, e.typeFits → p.rows.count e = p.contents.count e) ∧
    ∀ batch ∈ p.flushed, (sendBatch batch).2 = (sendBatch batch).1.length

/-- The batch that the next receive flushes. -/
def dueReceive (p : Pipeline) : List (List Entry) :=
  if p.exited then []
  else match p.ch with
    | entry :: _ => if p.batchSize ≤ (p.batch ++ [entry]).length then [p.batch ++ [entry]] else []
    | [] => if p.closed ∧ p.batch ≠ [] then [p.batch] else []

/-- The batch that the next tick flushes. -/
def dueTick (p : Pipeline) : List (List Entry) :=
  if p.exited ∨ p.batch = [] then [] else [p.batch]

theorem flushed_flush (p : Pipeline) :
    p.flush.flushed = p.flushed ++ if p.batch = [] then [] else [p.batch] := by
  unfold flush
  split_ifs
  · rw [List.append_nil]
  · rfl

theorem flushed_receive (p : Pipeline) : p.receive.flushed = p.flushed ++ p.dueReceive := by
  unfold receive dueReceive
  by_cases hx : p.exited
  · simp [hx]
  · rw [if_neg hx, if_neg hx]
    cases p.ch with
    | nil =>
      by_cases hc : p.closed
      · by_cases hb : p.batch = []
        · simp [hc, hb, flushed_flush]
        · simp [hc, hb, flushed_flush]
      · simp [hc]
    | cons entry ch =>
      dsimp only
      split_ifs with hfull
      · rw [flushed_flush, if_neg (by simp)]
      · rw [List.append_nil]

theorem flushed_tick (p : Pipeline) : p.tick.flushed = p.flushed ++ p.dueTick := by
  unfold tick dueTick
  by_cases hx : p.exited
  · simp [hx]
  · simp [hx, flushed_flush]

theorem count_flatMap_le {rows : List Entry → List Entry} {e : Entry} {batches : List (List Entry)}
    (h : ∀ batch ∈ batches, (rows batch).count e ≤ batch.count e) :
    (batches.flatMap rows).count e ≤ batches.flatten.count e := by
  induction batches with
  | nil => exact le_rfl
  | cons batch batches ih =>
    obtain ⟨hbatch, hbatches⟩ := List.forall_mem_cons.1 h
    rw [List.flatMap_cons, List.flatten_cons, List.count_append, List.count_append]
    exact add_le_add hbatch (ih hbatches)

/-- Nothing is missing from a concatenation exactly when nothing is missing from its parts. -/
theorem count_flatMap_eq_iff {rows : List Entry → List Entry} {e : Entry}
    {batches : List (List Entry)}
    (h : ∀ batch ∈ batches, (rows batch).count e ≤ batch.count e) :
    (batches.flatMap rows).count e = batches.flatten.count e ↔
      ∀ batch ∈ batches, (rows batch).count e = batch.count e := by
  induction batches with
  | nil => simp
  | cons batch batches ih =>
    obtain ⟨hbatch, hbatches⟩ := List.forall_mem_cons.1 h
    have hle := count_flatMap_le hbatches
    rw [List.flatMap_cons, List.flatten_cons, List.count_append, List.count_append,
      List.forall_mem_cons, ← ih hbatches]
    omega

/-- A drained pipeline has stored its entries exactly when it has flushed batches that are
alike. -/
theorem entriesStored_iff {p : Pipeline} (hbatch : p.batch = []) (hch : p.ch = []) :
    p.EntriesStored ↔ ∀ batch ∈ p.flushed, Alike batch := by
  have hle : ∀ e, ∀ batch ∈ p.flushed, (sendBatch batch).1.count e ≤ batch.count e := by
    intro e batch _
    rcases rows_eq_nil_or batch with h | h <;> rw [h]
    exact Nat.zero_le _
  have hcontents : p.contents = p.flushed.flatten := by simp [contents, hbatch, hch]
  have hrows : ∀ e, p.rows.count e = p.contents.count e ↔
      ∀ batch ∈ p.flushed, (sendBatch batch).1.count e = batch.count e := by
    intro e
    rw [hcontents]
    exact count_flatMap_eq_iff (hle e)
  simp only [EntriesStored, hrows, ← flushRight_iff, FlushRight]
  constructor
  · rintro ⟨hcount, hreport⟩ batch hb
    exact ⟨fun e hfits => hcount e hfits batch hb, hreport batch hb⟩
  · intro h
    exact ⟨fun e hfits batch hb => (h batch hb).1 e hfits, fun batch hb => (h batch hb).2⟩

theorem EntriesStored.mem_rows {p : Pipeline} (h : p.EntriesStored) :
    ∀ e ∈ p.contents, e.typeFits → e ∈ p.rows := by
  intro e he hfits
  rw [← List.count_pos_iff, h.1 e hfits]
  exact List.count_pos_iff.2 he

end Pipeline

/-! ### Processes -/

section Processes

variable [Unicode] [Miekg]

/-- An event of a process is at most one event of its pipeline. -/
theorem pipeline_apply (s : Process) (e : ProcessEvent) :
    (e.apply s).pipeline = s.pipeline ∨
      ∃ pe : PipelineEvent, ∀ r : LogRun, r.pipeline = s.pipeline →
        (pe.apply r).pipeline = (e.apply s).pipeline := by
  unfold ProcessEvent.apply
  by_cases hp : s.panicked
  · exact .inl (by rw [if_pos hp])
  · rw [if_neg hp]
    cases e with
    | query e =>
      left
      dsimp only
      split_ifs <;> rfl
    | log i =>
      dsimp only
      cases s.pending[i]? with
      | none => exact .inl rfl
      | some entry =>
        cases hsend : s.pipeline.send entry with
        | none => exact .inl (by simp only [hsend])
        | some p =>
          refine .inr ⟨.send entry, fun r hr => ?_⟩
          simp only [PipelineEvent.apply, hr, hsend]
    | receive => exact .inr ⟨.receive, fun r hr => congrArg Pipeline.receive hr⟩
    | flushTick => exact .inr ⟨.tick, fun r hr => congrArg Pipeline.tick hr⟩
    | stop =>
      dsimp only
      split_ifs
      · exact .inr ⟨.stop, fun r hr => congrArg Pipeline.close hr⟩
      · exact .inl rfl
    | shutdownPortal =>
      left
      dsimp only
      split_ifs <;> rfl
    | shutdownServer =>
      left
      dsimp only
      split_ifs <;> rfl

/-- The log pipeline of a process is a pipeline in the sense of `LogRun`, so that what its
calls have sent is conserved. -/
theorem exists_logRun (t : ℤ) (h : Handler) (bufferSize : ℕ+) (es : List ProcessEvent) :
    ∃ pes, (run PipelineEvent.apply (LogRun.start bufferSize 5000) pes).pipeline =
      (run ProcessEvent.apply (Process.start t h bufferSize) es).pipeline := by
  refine run_invariant (fun s : Process => ∃ pes,
    (run PipelineEvent.apply (LogRun.start bufferSize 5000) pes).pipeline = s.pipeline)
    ?_ ⟨[], rfl⟩ es
  rintro s e ⟨pes, hpes⟩
  obtain hsame | ⟨pe, hpe⟩ := pipeline_apply s e
  · exact ⟨pes, hpes.trans hsame.symm⟩
  · exact ⟨pes ++ [pe], by rw [run_concat, hpe _ hpes]⟩

/-- The batch that an event of a process flushes. -/
def Process.due (s : Process) (e : ProcessEvent) : List (List Entry) :=
  if s.panicked then []
  else match e with
    | .receive => s.pipeline.dueReceive
    | .flushTick => s.pipeline.dueTick
    | _ => []

theorem flushed_apply (s : Process) (e : ProcessEvent) :
    (e.apply s).pipeline.flushed = s.pipeline.flushed ++ s.due e := by
  unfold ProcessEvent.apply Process.due
  by_cases hp : s.panicked
  · rw [if_pos hp, if_pos hp, List.append_nil]
  · rw [if_neg hp, if_neg hp]
    cases e with
    | receive => exact s.pipeline.flushed_receive
    | flushTick => exact s.pipeline.flushed_tick
    | log i =>
      dsimp only
      rw [List.append_nil]
      cases s.pending[i]? with
      | none => rfl
      | some entry =>
        cases hsend : s.pipeline.send entry with
        | none => simp only [hsend]
        | some p =>
          simp only [hsend]
          obtain ⟨-, ⟨-, rfl⟩ | ⟨-, rfl⟩⟩ := Pipeline.send_cases hsend <;> rfl
    | query | stop | shutdownPortal | shutdownServer =>
      dsimp only
      rw [List.append_nil]
      split_ifs <;> rfl

/-- The event flushes nothing, or a batch that is alike. -/
def FlushesAlike (s : Process) (e : ProcessEvent) : Prop := ∀ batch ∈ s.due e, Alike batch

/-- **Once the pipeline of a process has stopped, every accepted entry that fits the table is
stored, and every flush has reported what it stored, exactly when no flush mixed entries that
fit with one that cannot be stored.** -/
theorem log_entries_stored_iff (t : ℤ) (h : Handler) (bufferSize : ℕ+) (es : List ProcessEvent)
    (hexit : (run ProcessEvent.apply (Process.start t h bufferSize) es).pipeline.exited = true) :
    (run ProcessEvent.apply (Process.start t h bufferSize) es).pipeline.EntriesStored ↔
      Along ProcessEvent.apply FlushesAlike (Process.start t h bufferSize) es := by
  obtain ⟨pes, hpes⟩ := exists_logRun t h bufferSize es
  obtain ⟨-, hbatch, hch⟩ := (balanced_run bufferSize 5000 pes).bounded.drained (hpes ▸ hexit)
  rw [hpes] at hbatch hch
  rw [Pipeline.entriesStored_iff hbatch hch]
  refine trace_invariant (fun es (s : Process) => (∀ batch ∈ s.pipeline.flushed, Alike batch) ↔
    Along ProcessEvent.apply FlushesAlike (Process.start t h bufferSize) es) ?_ ?_ es
  · exact iff_of_true (List.forall_mem_nil _) trivial
  · intro es e ih
    rw [flushed_apply, List.forall_mem_append, along_concat, ih]
    rfl

end Processes

/-- The events of a query of some type that is answered by an upstream and logged. -/
def answered [Miekg] (m : Received) (call : ℕ) (qtype : UInt16) : List ProcessEvent :=
  [.query (.arrive
      { askFor call { questionIn classINET with qtype := qtype } with
        clientIP := .v4 0x0a000001#32 }),
    .query (.lookup call), .query (.exchange call [some m]), .log 0]

/-- The consumer takes `n` entries and flushes them; then the process stops its pipeline. -/
def flushAndStop [Miekg] (n : ℕ) : List ProcessEvent :=
  List.replicate n .receive ++ [.flushTick, .stop, .receive]

/-- Two queries for addresses, in one batch. -/
theorem log_entries_stored_two :
    letI := asciiTable
    letI := plainMiekg
    (run ProcessEvent.apply (Process.start 0 openHandler 100)
      (answered ⟨shortLived, shortLived, rfl⟩ 0 typeA ++
        answered ⟨shortLived, shortLived, rfl⟩ 1 typeAAAA ++
        flushAndStop 2)).pipeline.EntriesStored := by
  refine (@log_entries_stored_iff asciiTable plainMiekg 0 openHandler 100 _ ?_).2 ?_
  · decide +kernel
  · refine ⟨?_, ?_, ?_, ?_, ?_, ?_, ?_, ?_, ?_, ?_, ?_, ?_, ?_, trivial⟩
    all_goals
      unfold FlushesAlike
      decide +kernel

/-- A query of a private type takes the query for an address in its batch with it. -/
theorem log_entry_lost :
    letI := asciiTable
    letI := plainMiekg
    ¬ ∀ (t : ℤ) (h : Handler) (bufferSize : ℕ+) (es : List ProcessEvent),
      (run ProcessEvent.apply (Process.start t h bufferSize) es).pipeline.exited = true →
        (run ProcessEvent.apply (Process.start t h bufferSize) es).pipeline.EntriesStored := by
  intro h
  let := asciiTable
  let := plainMiekg
  have hstored := (h 0 openHandler 100 (answered ⟨shortLived, shortLived, rfl⟩ 0 typeA ++
    answered ⟨shortLived, shortLived, rfl⟩ 1 65280 ++ flushAndStop 2) (by decide +kernel)).mem_rows
  revert hstored
  decide +kernel

end DnsFilter
