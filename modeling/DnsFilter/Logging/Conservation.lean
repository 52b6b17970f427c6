import DnsFilter.Logging.Pipeline
import DnsFilter.Lib.Run

/-!
# Conservation of log entries

Runs of the log pipeline on its own: calls of `Send`, receives and ticks of the consumer, and
`Stop`, in any order.

* `LogRun`: a pipeline with the entries it has accepted and the number of calls so far;
* `receive_cases`, `send_cases`: what the consumer and a caller can do in one step;
* `pipeline_conserves`: an accepted entry is in exactly one place, in order, and none is left
  behind when `Stop` returns;
* `exited_of_receives`: once the channel is closed, the consumer does return.
-/

namespace DnsFilter

open EventRun

/-- What happens to a pipeline; `stop` is the `close` of `Stop`, which returns when the
consumer has. -/
inductive PipelineEvent
  | send (entry : Entry)
  | receive
  | tick
  | stop

/-- A pipeline and the calls of `Send` so far. -/
structure LogRun where
  pipeline : Pipeline
  /-- The entries that `Send` has queued, oldest first. -/
  accepted : List Entry
  sends : ℕ

/-- A pipeline of the given sizes after `Start`. -/
def LogRun.start (bufferSize batchSize : ℕ+) : LogRun :=
  ⟨{ Pipeline.new bufferSize with batchSize := batchSize }, [], 0⟩

/-- One event; after `Stop` there is no `Send`. -/
def PipelineEvent.apply (s : LogRun) : PipelineEvent → LogRun
  | .send entry =>
      match s.pipeline.send entry with
      | none => s
      | some p =>
          { pipeline := p
            accepted := if p.dropped = s.pipeline.dropped then s.accepted ++ [entry] else s.accepted
            sends := s.sends + 1 }
  | .receive => { s with pipeline := s.pipeline.receive }
  | .tick => { s with pipeline := s.pipeline.tick }
  | .stop => { s with pipeline := s.pipeline.close }

namespace Pipeline

/-! ### Steps -/

/-- The entries handed to the pipeline so far, wherever they are. -/
def contents (p : Pipeline) : List Entry := p.flushed.flatten ++ p.batch ++ p.ch

@[simp] theorem contents_flush (p : Pipeline) : p.flush.contents = p.contents := by
  unfold flush
  split_ifs with h
  · rfl
  · simp [contents]

/-- Sizes are as configured, and neither buffer overflows. -/
structure Bounded (bufferSize batchSize : ℕ+) (p : Pipeline) : Prop where
  bufferSize_eq : p.bufferSize = bufferSize
  batchSize_eq : p.batchSize = batchSize
  ch_le : p.ch.length ≤ bufferSize
  batch_lt : p.batch.length < batchSize
  flushed : ∀ batch ∈ p.flushed, batch ≠ [] ∧ batch.length ≤ batchSize
  drained : p.exited → p.closed ∧ p.batch = [] ∧ p.ch = []

/-- `flush` writes a batch that is at most full. -/
theorem Bounded.flush {bufferSize batchSize : ℕ+} {p : Pipeline} (hbuf : p.bufferSize = bufferSize)
    (hsize : p.batchSize = batchSize) (hch : p.ch.length ≤ bufferSize)
    (hbatch : p.batch.length ≤ batchSize)
    (hflushed : ∀ batch ∈ p.flushed, batch ≠ [] ∧ batch.length ≤ batchSize)
    (hrun : p.exited = false) : p.flush.Bounded bufferSize batchSize := by
  unfold Pipeline.flush
  split_ifs with h
  · exact ⟨hbuf, hsize, hch, by simp [h], hflushed, by simp [hrun]⟩
  · refine ⟨hbuf, hsize, hch, by simp, fun batch hb => ?_, by simp [hrun]⟩
    rcases List.mem_append.1 hb with hb | hb
    · exact hflushed batch hb
    · rw [List.mem_singleton.1 hb]
      exact ⟨h, hbatch⟩

/-- The pipeline with the oldest entry of the channel moved into the batch. -/
def move (p : Pipeline) (entry : Entry) (ch : List Entry) : Pipeline :=
  { p with ch := ch, batch := p.batch ++ [entry] }

/-- A receive does nothing, ends the consumer with a last flush, or moves an entry and flushes
a full batch. -/
theorem receive_cases (p : Pipeline) :
    p.receive = p ∨
      p.exited = false ∧ p.ch = [] ∧ p.closed ∧ p.receive = { p.flush with exited := true } ∨
      ∃ entry ch, p.exited = false ∧ p.ch = entry :: ch ∧
        (p.batchSize ≤ (p.move entry ch).batch.length ∧ p.receive = (p.move entry ch).flush ∨
          (p.move entry ch).batch.length < p.batchSize ∧ p.receive = p.move entry ch) := by
  unfold receive
  by_cases hx : p.exited
  · exact .inl (if_pos hx)
  · rw [if_neg hx]
    have hrun : p.exited = false := by simpa using hx
    cases hch : p.ch with
    | nil =>
      by_cases hc : p.closed
      · exact .inr (.inl ⟨hrun, rfl, hc, if_pos hc⟩)
      · exact .inl (if_neg hc)
    | cons entry ch =>
      refine .inr (.inr ⟨entry, ch, hrun, rfl, ?_⟩)
      by_cases hfull : p.batchSize ≤ (p.move entry ch).batch.length
      · exact .inl ⟨hfull, if_pos hfull⟩
      · exact .inr ⟨not_le.1 hfull, if_neg hfull⟩

theorem contents_move {p : Pipeline} {entry : Entry} {ch : List Entry} (h : p.ch = entry :: ch) :
    (p.move entry ch).contents = p.contents := by
  simp [contents, move, h]

@[simp] theorem contents_receive (p : Pipeline) : p.receive.contents = p.contents := by
  obtain h | ⟨-, -, -, h⟩ | ⟨entry, ch, -, hch, ⟨-, h⟩ | ⟨-, h⟩⟩ := p.receive_cases
  · rw [h]
  · rw [h]
    exact contents_flush p
  · rw [h, contents_flush, contents_move hch]
  · rw [h, contents_move hch]

@[simp] theorem contents_tick (p : Pipeline) : p.tick.contents = p.contents := by
  unfold tick
  split_ifs
  · rfl
  · exact contents_flush p

variable {bufferSize batchSize : ℕ+} {p : Pipeline}

theorem batch_flush (p : Pipeline) : p.flush.batch = [] := by
  unfold flush
  split_ifs with h
  · exact h
  · rfl

@[simp] theorem ch_flush (p : Pipeline) : p.flush.ch = p.ch := by
  unfold flush
  split_ifs <;> rfl

theorem Bounded.receive (h : p.Bounded bufferSize batchSize) :
    p.receive.Bounded bufferSize batchSize := by
  obtain hr | ⟨hrun, hch, hc, hr⟩ | ⟨entry, ch, hrun, hch, hr⟩ := p.receive_cases
  · rwa [hr]
  · -- the last flush leaves nothing behind
    obtain ⟨hbuf, hsize, hle, hlt, hflushed, -⟩ := Bounded.flush h.bufferSize_eq
      h.batchSize_eq h.ch_le h.batch_lt.le h.flushed hrun
    rw [hr]
    exact ⟨hbuf, hsize, hle, hlt, hflushed, fun _ =>
      ⟨(closed_flush p).trans hc, batch_flush p, (ch_flush p).trans hch⟩⟩
  · have hle : ch.length ≤ bufferSize := by
      have hfull := h.ch_le
      rw [hch, List.length_cons] at hfull
      omega
    have hbatch : (p.move entry ch).batch.length ≤ batchSize := by
      have hlt := h.batch_lt
      rw [move, List.length_append, List.length_singleton]
      omega
    rcases hr with ⟨-, hr⟩ | ⟨hroom, hr⟩
    · rw [hr]
      exact Bounded.flush h.bufferSize_eq h.batchSize_eq hle hbatch h.flushed hrun
    · rw [hr]
      refine ⟨h.bufferSize_eq, h.batchSize_eq, hle, ?_, h.flushed, by simp [move, hrun]⟩
      rwa [h.batchSize_eq] at hroom

theorem Bounded.tick (h : p.Bounded bufferSize batchSize) :
    p.tick.Bounded bufferSize batchSize := by
  unfold Pipeline.tick
  split_ifs with hx
  · exact h
  · exact Bounded.flush h.bufferSize_eq h.batchSize_eq h.ch_le h.batch_lt.le h.flushed
      (by simpa using hx)

theorem Bounded.close (h : p.Bounded bufferSize batchSize) :
    p.close.Bounded bufferSize batchSize :=
  ⟨h.bufferSize_eq, h.batchSize_eq, h.ch_le, h.batch_lt, h.flushed,
    fun hx => ⟨rfl, (h.drained hx).2⟩⟩

/-- A `Send` on an open channel queues the entry, or finds the channel full and drops it. -/
theorem send_cases {entry : Entry} {p' : Pipeline} (h : p.send entry = some p') :
    p.closed = false ∧
      (p.ch.length < p.bufferSize ∧ p' = { p with ch := p.ch ++ [entry] } ∨
        p.bufferSize ≤ p.ch.length ∧ p' = { p with dropped := p.dropped + 1 }) := by
  unfold send at h
  split_ifs at h with hc hroom
  · cases h
    exact ⟨by simpa using hc, .inl ⟨hroom, rfl⟩⟩
  · cases h
    exact ⟨by simpa using hc, .inr ⟨not_lt.1 hroom, rfl⟩⟩

theorem Bounded.send (h : p.Bounded bufferSize batchSize) {entry : Entry} {p' : Pipeline}
    (hsend : p.send entry = some p') : p'.Bounded bufferSize batchSize := by
  obtain ⟨hopen, ⟨hroom, rfl⟩ | ⟨-, rfl⟩⟩ := send_cases hsend
  · refine ⟨h.bufferSize_eq, h.batchSize_eq, ?_, h.batch_lt, h.flushed, fun hx => ?_⟩
    · rw [h.bufferSize_eq] at hroom
      rw [List.length_append, List.length_singleton]
      exact hroom
    · exact absurd (h.drained hx).1 (by simp [hopen])
  · exact ⟨h.bufferSize_eq, h.batchSize_eq, h.ch_le, h.batch_lt, h.flushed, h.drained⟩

/-- The consumer does not touch the drop counter. -/
@[simp] theorem dropped_flush (p : Pipeline) : p.flush.dropped = p.dropped := by
  unfold flush
  split_ifs <;> rfl

@[simp] theorem dropped_receive (p : Pipeline) : p.receive.dropped = p.dropped := by
  obtain h | ⟨-, -, -, h⟩ | ⟨entry, ch, -, -, ⟨-, h⟩ | ⟨-, h⟩⟩ := p.receive_cases
  · rw [h]
  · rw [h]
    exact dropped_flush p
  · rw [h, dropped_flush]
    rfl
  · rw [h]
    rfl

@[simp] theorem dropped_tick (p : Pipeline) : p.tick.dropped = p.dropped := by
  unfold tick
  split_ifs
  · rfl
  · exact dropped_flush p

/-- The consumer of a closed channel returns once it has drained it. -/
theorem exited_of_receives {p : Pipeline} (hc : p.closed) :
    (receive^[p.ch.length + 1] p).exited = true := by
  have hexited : ∀ n (p : Pipeline), p.exited → (receive^[n] p).exited = true := by
    intro n
    induction n with
    | zero => exact fun _ hx => hx
    | succ n ih =>
      intro p hx
      rw [Function.iterate_succ_apply]
      exact ih _ (by rwa [receive, if_pos hx])
  induction hn : p.ch.length generalizing p with
  | zero =>
    rw [List.length_eq_zero_iff] at hn
    by_cases hx : p.exited
    · exact hexited _ p hx
    · simp [receive, hx, hn, hc]
  | succ n ih =>
    by_cases hx : p.exited
    · exact hexited _ p hx
    · obtain ⟨entry, ch, hch⟩ := List.exists_cons_of_length_eq_add_one hn
      have hch' : p.receive.ch = ch := by
        rw [receive, if_neg hx]
        simp only [hch]
        split_ifs <;> simp
      rw [Function.iterate_succ_apply]
      refine ih ((closed_receive p).trans hc) ?_
      rw [hch']
      simpa [hch] using hn

end Pipeline

/-! ### Runs -/

/-- The bookkeeping of the calls agrees with the pipeline. -/
structure LogRun.Balanced (bufferSize batchSize : ℕ+) (s : LogRun) : Prop where
  bounded : s.pipeline.Bounded bufferSize batchSize
  accepted : s.accepted = s.pipeline.contents
  sends : s.sends = s.accepted.length + s.pipeline.dropped

theorem LogRun.Balanced.apply {bufferSize batchSize : ℕ+} {s : LogRun}
    (h : s.Balanced bufferSize batchSize) (e : PipelineEvent) :
    (e.apply s).Balanced bufferSize batchSize := by
  cases e with
  | send entry =>
    cases hsend : s.pipeline.send entry with
    | none => simpa only [PipelineEvent.apply, hsend] using h
    | some p =>
      obtain ⟨-, ⟨-, rfl⟩ | ⟨-, rfl⟩⟩ := Pipeline.send_cases hsend
      · refine ⟨by simpa only [PipelineEvent.apply, hsend] using h.bounded.send hsend, ?_, ?_⟩
        · simp only [PipelineEvent.apply, hsend, if_true, h.accepted]
          simp [Pipeline.contents]
        · simp only [PipelineEvent.apply, hsend, if_true, h.sends, List.length_append,
            List.length_singleton]
          omega
      · have hne : s.pipeline.dropped + 1 ≠ s.pipeline.dropped := by omega
        refine ⟨by simpa only [PipelineEvent.apply, hsend] using h.bounded.send hsend, ?_, ?_⟩
        · simp only [PipelineEvent.apply, hsend, hne, if_false]
          exact h.accepted
        · simp only [PipelineEvent.apply, hsend, hne, if_false, h.sends]
          omega
  | receive =>
    exact ⟨h.bounded.receive, h.accepted.trans (Pipeline.contents_receive _).symm,
      h.sends.trans (by rw [PipelineEvent.apply, Pipeline.dropped_receive])⟩
  | tick =>
    exact ⟨h.bounded.tick, h.accepted.trans (Pipeline.contents_tick _).symm,
      h.sends.trans (by rw [PipelineEvent.apply, Pipeline.dropped_tick])⟩
  | stop => exact ⟨h.bounded.close, h.accepted, h.sends⟩

theorem balanced_run (bufferSize batchSize : ℕ+) (es : List PipelineEvent) :
    (run PipelineEvent.apply (LogRun.start bufferSize batchSize) es).Balanced bufferSize
      batchSize := by
  refine run_invariant (LogRun.Balanced bufferSize batchSize) (fun _ e h => h.apply e) ?_ es
  refine ⟨⟨rfl, rfl, Nat.zero_le _, batchSize.pos, List.forall_mem_nil _, ?_⟩, rfl, rfl⟩
  intro hx
  cases hx

/-- **Conservation.**  After any events the accepted entries are, in order, those of the
flushed batches, of the current batch and of the channel; every call has accepted or dropped
its entry, and the next one drops it only if the channel is full; batches are neither empty
nor oversized; and when the consumer has returned, nothing is left to flush. -/
theorem pipeline_conserves (bufferSize batchSize : ℕ+) (es : List PipelineEvent) :
    let s := run PipelineEvent.apply (LogRun.start bufferSize batchSize) es
    s.accepted = s.pipeline.flushed.flatten ++ s.pipeline.batch ++ s.pipeline.ch ∧
    s.sends = s.accepted.length + s.pipeline.dropped ∧
    (∀ e : PipelineEvent, (e.apply s).pipeline.dropped ≠ s.pipeline.dropped →
      (∃ entry, e = .send entry) ∧ s.pipeline.ch.length = bufferSize) ∧
    (∀ batch ∈ s.pipeline.flushed, batch ≠ [] ∧ batch.length ≤ batchSize) ∧
    (s.pipeline.exited → s.pipeline.batch = [] ∧ s.pipeline.ch = []) := by
  intro s
  obtain ⟨hbounded, haccepted, hsends⟩ := balanced_run bufferSize batchSize es
  refine ⟨haccepted, hsends, fun e he => ?_, hbounded.flushed, fun hx => (hbounded.drained hx).2⟩
  cases e with
  | send entry =>
    refine ⟨⟨entry, rfl⟩, ?_⟩
    cases hsend : s.pipeline.send entry with
    | none => simp [PipelineEvent.apply, hsend] at he
    | some p =>
      obtain ⟨-, ⟨-, rfl⟩ | ⟨hfull, -⟩⟩ := Pipeline.send_cases hsend
      · simp [PipelineEvent.apply, hsend] at he
      · exact le_antisymm hbounded.ch_le (hbounded.bufferSize_eq ▸ hfull)
  | receive => exact absurd (Pipeline.dropped_receive _) he
  | tick => exact absurd (Pipeline.dropped_tick _) he
  | stop => exact absurd rfl he

end DnsFilter
