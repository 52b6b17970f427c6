import DnsFilter.Identity.IP

/-!
# The log pipeline

`Entry` and `Pipeline` of `internal/logging`: the handler sends entries into a buffered
channel without blocking, and one consumer collects them into batches and flushes these to
the database.  `Stop` closes the channel and waits until the consumer has drained it.
-/

namespace DnsFilter

/-- What happened with a query. -/
inductive LogAction
  | allowed
  | blocked
  | cached
  deriving DecidableEq

/-- Why a query was blocked. -/
inductive BlockReason
  | none
  | blacklist
  | category
  | policy
  deriving DecidableEq

/-- A query log event, without its response time. -/
structure Entry where
  queriedAt : ℤ
  clientIP : IP
  userID : Option ℤ
  groupID : ℤ
  domain : GoString
  queryType : UInt16
  action : LogAction
  blockReason : BlockReason
  categoryID : Option ℤ
  responseIP : IP
  upstream : GoString
  deriving DecidableEq

/-- The counter of dropped entries is of 64 bits in the code; here it does not wrap. -/
structure Pipeline where
  /-- The entries in the channel, oldest first. -/
  ch : List Entry
  bufferSize : ℕ
  closed : Bool
  dropped : ℕ
  batchSize : ℕ
  /-- The entries that the consumer has received since its last flush. -/
  batch : List Entry
  /-- The batches written so far. -/
  flushed : List (List Entry)
  /-- The consumer has returned. -/
  exited : Bool
  deriving DecidableEq

namespace Pipeline

/-- `NewPipeline` followed by `Start`. -/
def new (bufferSize : ℕ) : Pipeline := ⟨[], bufferSize, false, 0, 5000, [], [], false⟩

/-- Queue an entry, or drop it when the buffer is full.  `none` is the panic of a send on a
closed channel. -/
def send (p : Pipeline) (entry : Entry) : Option Pipeline :=
  if p.closed then none
  else if p.ch.length < p.bufferSize then some { p with ch := p.ch ++ [entry] }
  else some { p with dropped := p.dropped + 1 }

/-- Write the current batch, if there is anything in it. -/
def flush (p : Pipeline) : Pipeline :=
  if p.batch = [] then p else { p with flushed := p.flushed ++ [p.batch], batch := [] }

/-- One receive of the consumer, which blocks on an open empty channel and returns on a
closed one. -/
def receive (p : Pipeline) : Pipeline :=
  if p.exited then p
  else match p.ch with
    | entry :: ch =>
        let p := { p with ch := ch, batch := p.batch ++ [entry] }
        if p.batchSize ≤ p.batch.length then p.flush else p
    | [] => if p.closed then { p.flush with exited := true } else p

/-- A tick of the consumer's flush timer. -/
def tick (p : Pipeline) : Pipeline := if p.exited then p else p.flush

/-- The `close` of `Stop`. -/
def close (p : Pipeline) : Pipeline := { p with closed := true }

@[simp] theorem closed_flush (p : Pipeline) : p.flush.closed = p.closed := by
  unfold flush
  split_ifs <;> rfl

@[simp] theorem closed_receive (p : Pipeline) : p.receive.closed = p.closed := by
  unfold receive
  by_cases he : p.exited
  · rw [if_pos he]
  · rw [if_neg he]
    cases hch : p.ch with
    | nil =>
      dsimp only
      split_ifs <;> simp
    | cons entry ch =>
      dsimp only
      split_ifs <;> simp

@[simp] theorem closed_tick (p : Pipeline) : p.tick.closed = p.closed := by
  unfold tick
  split_ifs <;> simp

/-- A send panics exactly on a closed channel. -/
theorem send_eq_none {p : Pipeline} {entry : Entry} : p.send entry = none ↔ p.closed := by
  unfold send
  split_ifs <;> simp_all

/-- A send that does not panic leaves the channel open. -/
theorem closed_of_send {p p' : Pipeline} {entry : Entry} (h : p.send entry = some p') :
    p'.closed = false := by
  unfold send at h
  split_ifs at h with hc <;> cases h <;> simpa using hc

end Pipeline
end DnsFilter
