import DnsFilter.Lib.Run

/-!
# Gathering errors

A function starts `n` workers, waits until all of them are done, and returns an error if one is
found in a channel, into which a worker that fails sends its error before it is done.  The
workers are counted by a `WaitGroup`; the channel has room for `cap` errors.

* `step`: the function and its workers, interleaved in any way;
* `Consistent`: what the counter and the channel say about the workers;
* `gather_run`: with room for all errors no worker is ever blocked, and the function returns the
  first error that was sent, when all workers are done;
* `remaining`, `step_decreases`, `exists_step`: it does return, once every worker has ended.
-/

namespace Gather

open EventRun

variable {ε : Type*}

inductive Worker (ε : Type*)
  | running
  | sending (err : ε)
  | leaving (err : Option ε)
  | done (err : Option ε)

inductive Main (ε : Type*)
  | starting
  /-- All workers are done. -/
  | receiving
  | returned (err : Option ε)

structure State (ε : Type*) where
  workers : List (Worker ε)
  channel : List ε
  counter : ℤ
  main : Main ε
  /-- All errors that were ever sent. -/
  sent : List ε

inductive Event (ε : Type*)
  /-- `Add(1)`, and a new worker. -/
  | start
  | finish (i : ℕ) (err : Option ε)
  | send (i : ℕ)
  /-- `Done()`. -/
  | done (i : ℕ)
  /-- `Wait()` returns. -/
  | wait
  | receive

def init : State ε := ⟨[], [], 0, .starting, []⟩

/-- One event; one that is not possible, or blocked, does nothing. -/
def step (n cap : ℕ) (s : State ε) : Event ε → State ε
  | .start =>
      match s.main with
      | .starting =>
          if s.workers.length < n then
            { s with workers := s.workers ++ [.running], counter := s.counter + 1 }
          else s
      | _ => s
  | .finish i err =>
      match s.workers[i]? with
      | some .running =>
          match err with
          | some err => { s with workers := s.workers.set i (.sending err) }
          | none => { s with workers := s.workers.set i (.leaving none) }
      | _ => s
  | .send i =>
      match s.workers[i]? with
      | some (.sending err) =>
          if s.channel.length < cap then
            { s with
              workers := s.workers.set i (.leaving (some err))
              channel := s.channel ++ [err]
              sent := s.sent ++ [err] }
          else s
      | _ => s
  | .done i =>
      match s.workers[i]? with
      | some (.leaving err) =>
          { s with workers := s.workers.set i (.done err), counter := s.counter - 1 }
      | _ => s
  | .wait =>
      match s.main with
      | .starting =>
          if s.workers.length = n ∧ s.counter = 0 then { s with main := .receiving } else s
      | _ => s
  | .receive =>
      match s.main, s.channel with
      | .receiving, err :: channel => { s with main := .returned (some err), channel := channel }
      | .receiving, [] => { s with main := .returned none }
      | _, _ => s

/-! ### Totals over the workers -/

/-- The sum of a weight over the workers. -/
def total (weight : Worker ε → ℕ) (workers : List (Worker ε)) : ℕ := (workers.map weight).sum

theorem total_concat (weight : Worker ε → ℕ) (workers : List (Worker ε)) (w : Worker ε) :
    total weight (workers ++ [w]) = total weight workers + weight w := by
  simp [total]

/-- One worker goes on. -/
theorem total_set (weight : Worker ε → ℕ) {workers : List (Worker ε)} {i : ℕ} {w : Worker ε}
    (hw : workers[i]? = some w) (w' : Worker ε) :
    total weight (workers.set i w') + weight w = total weight workers + weight w' := by
  induction workers generalizing i with
  | nil => simp at hw
  | cons v workers ih =>
    cases i with
    | zero =>
      obtain rfl : v = w := by simpa using hw
      simp only [total, List.set_cons_zero, List.map_cons, List.sum_cons]
      omega
    | succ i =>
      have htail := ih (i := i) (by simpa using hw)
      simp only [total, List.set_cons_succ, List.map_cons, List.sum_cons] at htail ⊢
      omega

theorem total_eq_zero_iff (weight : Worker ε → ℕ) (workers : List (Worker ε)) :
    total weight workers = 0 ↔ ∀ w ∈ workers, weight w = 0 := by
  rw [total, List.sum_eq_zero_iff, List.forall_mem_map]

/-- `1` for the workers that are counted. -/
def Worker.alive : Worker ε → ℕ
  | .done _ => 0
  | _ => 1

/-- `1` for the workers that have sent their error. -/
def Worker.hasSent : Worker ε → ℕ
  | .leaving (some _) | .done (some _) => 1
  | _ => 0

/-- The steps that a worker still has to make, at most. -/
def Worker.steps : Worker ε → ℕ
  | .running => 3
  | .sending _ => 2
  | .leaving _ => 1
  | .done _ => 0

/-- A worker that has sent an error. -/
def Worker.HasSent (err : ε) (w : Worker ε) : Prop := w = .leaving (some err) ∨ w = .done (some err)

/-! ### Safety -/

/-- The errors in the channel are all that were sent, but for the one returned. -/
def Buffered (s : State ε) : Prop :=
  match s.main with
  | .returned none => s.sent = []
  | .returned (some err) => s.sent = err :: s.channel
  | _ => s.channel = s.sent

/-- What the counter and the channel say about the workers. -/
structure Consistent (n : ℕ) (s : State ε) : Prop where
  length_le : s.workers.length ≤ n
  counter : s.counter = total Worker.alive s.workers
  sent_length : s.sent.length = total Worker.hasSent s.workers
  sent_mem : ∀ err ∈ s.sent, ∃ w ∈ s.workers, w.HasSent err
  buffered : Buffered s
  gathered : s.main = .starting ∨ s.workers.length = n ∧ ∀ w ∈ s.workers, ∃ err, w = .done err

variable {n cap : ℕ} {s : State ε}

theorem consistent_init : Consistent n (init : State ε) := by
  refine ⟨Nat.zero_le _, rfl, rfl, ?_, rfl, .inl rfl⟩
  rintro err ⟨⟩

/-- A worker that is not done is there only before `Wait` returns. -/
theorem Consistent.starting (h : Consistent n s) {w : Worker ε} (hw : w ∈ s.workers)
    (hdone : ∀ err, w ≠ .done err) : s.main = .starting := by
  rcases h.gathered with hmain | ⟨-, hall⟩
  · exact hmain
  · obtain ⟨err, herr⟩ := hall w hw
    exact absurd herr (hdone err)

/-- A worker that has sent its error goes on, or one that has not. -/
theorem hasSent_set {workers : List (Worker ε)} {i : ℕ} {w w' : Worker ε}
    (hw : workers[i]? = some w) (hkeep : ∀ err, w.HasSent err → w'.HasSent err) {err : ε}
    (h : ∃ v ∈ workers, v.HasSent err) : ∃ v ∈ workers.set i w', v.HasSent err := by
  obtain ⟨v, hv, hsent⟩ := h
  obtain ⟨j, hj⟩ := List.mem_iff_getElem?.1 hv
  by_cases hij : i = j
  · subst hij
    obtain rfl := Option.some.inj (hw.symm.trans hj)
    obtain ⟨hi, -⟩ := List.getElem?_eq_some_iff.1 hw
    exact ⟨w', List.mem_iff_getElem?.2 ⟨i, by simp [hi]⟩, hkeep err hsent⟩
  · exact ⟨v, List.mem_iff_getElem?.2 ⟨j, by rw [List.getElem?_set_ne hij, hj]⟩, hsent⟩

/-- A worker goes on and sends nothing. -/
theorem Consistent.move (h : Consistent n s) {i : ℕ} {w w' : Worker ε} {counter : ℤ}
    (hw : s.workers[i]? = some w) (hstarting : s.main = .starting)
    (hcounter : counter + w.alive = s.counter + w'.alive) (hsent : w.hasSent = w'.hasSent)
    (hkeep : ∀ err, w.HasSent err → w'.HasSent err) :
    Consistent n { s with workers := s.workers.set i w', counter := counter } := by
  have halive := total_set Worker.alive hw w'
  have hcount := total_set Worker.hasSent hw w'
  refine ⟨?_, ?_, ?_, fun err herr => hasSent_set hw hkeep (h.sent_mem err herr), h.buffered,
    .inl hstarting⟩
  · simpa using h.length_le
  · have hold := h.counter
    simp only
    omega
  · have hold := h.sent_length
    simp only
    omega

theorem Consistent.step (h : Consistent n s) (e : Event ε) :
    Consistent n (Gather.step n cap s e) := by
  cases e with
  | start =>
    simp only [Gather.step]
    split
    · rename_i hmain
      split_ifs with hlt
      · refine ⟨?_, ?_, ?_, fun err herr => ?_, h.buffered, .inl hmain⟩
        · simpa using hlt
        · simp only [total_concat, h.counter, Worker.alive, Nat.cast_add, Nat.cast_one]
        · simp only [total_concat, h.sent_length, Worker.hasSent, Nat.add_zero]
        · obtain ⟨w, hw, hsent⟩ := h.sent_mem err herr
          exact ⟨w, List.mem_append_left _ hw, hsent⟩
      · exact h
    · exact h
  | finish i err =>
    simp only [Gather.step]
    split
    · rename_i hw
      have hstarting := h.starting (List.mem_of_getElem? hw) (by simp)
      cases err <;>
        exact h.move hw hstarting (by simp [Worker.alive]) rfl (by simp [Worker.HasSent])
    · exact h
  | send i =>
    simp only [Gather.step]
    split
    · rename_i err hw
      have hstarting := h.starting (List.mem_of_getElem? hw) (by simp)
      split_ifs
      · have halive := total_set Worker.alive hw (.leaving (some err))
        have hcount := total_set Worker.hasSent hw (.leaving (some err))
        have hcounter := h.counter
        have hlength := h.sent_length
        have hbuffered := h.buffered
        obtain ⟨hi, -⟩ := List.getElem?_eq_some_iff.1 hw
        simp only [Worker.alive, Worker.hasSent] at halive hcount
        refine ⟨by simpa using h.length_le, ?_, ?_, fun err' herr' => ?_, ?_, .inl hstarting⟩
        · simp only
          omega
        · simp only [List.length_append, List.length_singleton]
          omega
        · rcases List.mem_append.1 herr' with hold | hnew
          · exact hasSent_set hw (by simp [Worker.HasSent]) (h.sent_mem err' hold)
          · rw [List.mem_singleton.1 hnew]
            exact ⟨_, List.mem_iff_getElem?.2 ⟨i, by simp [hi]⟩, .inl rfl⟩
        · rw [Buffered, hstarting] at hbuffered
          simp only [Buffered, hstarting, hbuffered]
      · exact h
    · exact h
  | done i =>
    simp only [Gather.step]
    split
    · rename_i err hw
      have hstarting := h.starting (List.mem_of_getElem? hw) (by simp)
      refine h.move hw hstarting (by simp [Worker.alive]) (by cases err <;> rfl) ?_
      rintro err' (hsent | hsent)
      · exact .inr (by rw [Worker.leaving.inj hsent])
      · cases hsent
    · exact h
  | wait =>
    simp only [Gather.step]
    split
    · rename_i hmain
      split_ifs with hall
      · have hbuffered : s.channel = s.sent := by
          have hold := h.buffered
          rwa [Buffered, hmain] at hold
        refine ⟨h.length_le, h.counter, h.sent_length, h.sent_mem, hbuffered,
          .inr ⟨hall.1, fun w hw => ?_⟩⟩
        have hzero : total Worker.alive s.workers = 0 := by
          have hold := h.counter
          omega
        have hw0 := (total_eq_zero_iff _ _).1 hzero w hw
        cases w with
        | done err => exact ⟨err, rfl⟩
        | _ => cases hw0
      · exact h
    · exact h
  | receive =>
    simp only [Gather.step]
    have hold := h.buffered
    split
    · rename_i err channel hmain hchannel
      have hgathered := h.gathered.resolve_left (by simp [hmain])
      rw [Buffered, hmain] at hold
      exact ⟨h.length_le, h.counter, h.sent_length, h.sent_mem, hold.symm.trans hchannel,
        .inr hgathered⟩
    · rename_i hmain hchannel
      have hgathered := h.gathered.resolve_left (by simp [hmain])
      rw [Buffered, hmain] at hold
      exact ⟨h.length_le, h.counter, h.sent_length, h.sent_mem, hold.symm.trans hchannel,
        .inr hgathered⟩
    · exact h

theorem consistent_run (n cap : ℕ) (es : List (Event ε)) :
    Consistent n (run (Gather.step n cap) init es) :=
  run_invariant (Consistent n) (fun _ e h => h.step e) consistent_init es

/-- There is room for the error of a worker that has not sent it. -/
theorem Consistent.room (h : Consistent n s) (hcap : n ≤ cap) {i : ℕ} {err : ε}
    (hw : s.workers[i]? = some (.sending err)) : s.channel.length < cap := by
  have hstarting := h.starting (List.mem_of_getElem? hw) (by simp)
  have hbuffered := h.buffered
  rw [Buffered, hstarting] at hbuffered
  -- the workers that have sent, and this one
  have hcount := total_set Worker.hasSent hw (.leaving (some err))
  have hle : ∀ workers : List (Worker ε), total Worker.hasSent workers ≤ workers.length := by
    intro workers
    refine (List.sum_le_card_nsmul _ 1 fun k hk => ?_).trans (by simp)
    obtain ⟨w, -, rfl⟩ := List.mem_map.1 hk
    rcases w with _ | _ | (_ | _) | (_ | _) <;> simp [Worker.hasSent]
  have hall := hle (s.workers.set i (.leaving (some err)))
  rw [List.length_set] at hall
  have hlength := h.length_le
  have hsent := h.sent_length
  simp only [Worker.hasSent] at hcount
  rw [hbuffered]
  omega

/-- What the function returns. -/
structure Returned (n : ℕ) (s : State ε) (err : Option ε) : Prop where
  length : s.workers.length = n
  done : ∀ w ∈ s.workers, ∃ err, w = .done err
  first : err = s.sent.head?
  none_iff : err = none ↔ ∀ w ∈ s.workers, w = .done none
  mem : ∀ e, err = some e → .done (some e) ∈ s.workers

theorem Consistent.returned (h : Consistent n s) {err : Option ε}
    (hmain : s.main = .returned err) : Returned n s err := by
  obtain ⟨hlength, hdone⟩ := h.gathered.resolve_left (by simp [hmain])
  have hbuffered := h.buffered
  rw [Buffered, hmain] at hbuffered
  have hfirst : err = s.sent.head? := by
    cases err <;> simp only at hbuffered <;> rw [hbuffered] <;> rfl
  refine ⟨hlength, hdone, hfirst, ?_, fun e he => ?_⟩
  · have hnone : err = none ↔ s.sent.length = 0 := by
      rw [hfirst, List.head?_eq_none_iff, List.length_eq_zero_iff]
    rw [hnone, h.sent_length, total_eq_zero_iff]
    refine forall₂_congr fun w hw => ?_
    obtain ⟨e, rfl⟩ := hdone w hw
    cases e <;> simp [Worker.hasSent]
  · subst he
    obtain ⟨w, hw, hsent⟩ := h.sent_mem e (by rw [hbuffered]; exact List.mem_cons_self)
    obtain ⟨e', rfl⟩ := hdone w hw
    rcases hsent with hsent | hsent
    · cases hsent
    · exact hsent ▸ hw

/-- A worker has failed with this error. -/
def Worker.Failed (err : ε) (w : Worker ε) : Prop :=
  w = .sending err ∨ w = .leaving (some err) ∨ w = .done (some err)

/-- A worker that moves keeps its error. -/
theorem failed_set {workers : List (Worker ε)} {i j : ℕ} {v v' w : Worker ε} {err : ε}
    (hv : workers[i]? = some v) (hkeep : v'.Failed err → v.Failed err)
    (hw : (workers.set i v')[j]? = some w) (hfailed : w.Failed err) :
    ∃ w₀, workers[j]? = some w₀ ∧ w₀.Failed err := by
  by_cases hij : i = j
  · subst hij
    obtain ⟨hi, -⟩ := List.getElem?_eq_some_iff.1 hv
    rw [List.getElem?_set_self hi] at hw
    exact ⟨v, hv, hkeep (Option.some.inj hw ▸ hfailed)⟩
  · rw [List.getElem?_set_ne hij] at hw
    exact ⟨w, hw, hfailed⟩

/-- A worker has its error from the event that has ended it. -/
theorem failed_step (n cap : ℕ) (s : State ε) (e : Event ε) {i : ℕ} {w : Worker ε} {err : ε}
    (hw : (Gather.step n cap s e).workers[i]? = some w) (hfailed : w.Failed err) :
    (∃ w₀, s.workers[i]? = some w₀ ∧ w₀.Failed err) ∨ e = .finish i (some err) := by
  cases e with
  | start =>
    simp only [Gather.step] at hw
    split at hw
    · split_ifs at hw
      · rw [List.getElem?_append] at hw
        split_ifs at hw
        · exact .inl ⟨w, hw, hfailed⟩
        · obtain rfl := List.mem_singleton.1 (List.mem_of_getElem? hw)
          simp [Worker.Failed] at hfailed
      · exact .inl ⟨w, hw, hfailed⟩
    · exact .inl ⟨w, hw, hfailed⟩
  | finish j err' =>
    simp only [Gather.step] at hw
    split at hw
    · rename_i hj
      by_cases hij : j = i
      · subst hij
        obtain ⟨hlt, -⟩ := List.getElem?_eq_some_iff.1 hj
        cases err' with
        | none =>
          rw [List.getElem?_set_self hlt] at hw
          obtain rfl := Option.some.inj hw
          simp [Worker.Failed] at hfailed
        | some err' =>
          rw [List.getElem?_set_self hlt] at hw
          obtain rfl := Option.some.inj hw
          refine .inr ?_
          simpa [Worker.Failed] using hfailed
      · cases err' <;> rw [List.getElem?_set_ne hij] at hw <;> exact .inl ⟨w, hw, hfailed⟩
    · exact .inl ⟨w, hw, hfailed⟩
  | send j =>
    simp only [Gather.step] at hw
    split at hw
    · rename_i err' hj
      split_ifs at hw
      · exact .inl (failed_set hj (by simp [Worker.Failed]) hw hfailed)
      · exact .inl ⟨w, hw, hfailed⟩
    · exact .inl ⟨w, hw, hfailed⟩
  | done j =>
    simp only [Gather.step] at hw
    split at hw
    · rename_i err' hj
      exact .inl (failed_set hj (by simp [Worker.Failed]) hw hfailed)
    · exact .inl ⟨w, hw, hfailed⟩
  | wait =>
    simp only [Gather.step] at hw
    split at hw
    · split_ifs at hw <;> exact .inl ⟨w, hw, hfailed⟩
    · exact .inl ⟨w, hw, hfailed⟩
  | receive =>
    simp only [Gather.step] at hw
    split at hw <;> exact .inl ⟨w, hw, hfailed⟩

/-- **With room for the errors of all workers, none is ever blocked, the counter is never
negative, and what the function returns it returns when all workers are done: the error that was
sent first, if any has failed.** -/
theorem gather_run (hcap : n ≤ cap) (es : List (Event ε)) :
    let s : State ε := run (Gather.step n cap) init es
    (∀ (i : ℕ) (err : ε), s.workers[i]? = some (.sending err) → s.channel.length < cap) ∧
      0 ≤ s.counter ∧
      ∀ err, s.main = .returned err → Returned n s err := by
  intro s
  have h := consistent_run n cap es
  refine ⟨fun i err hw => h.room hcap hw, ?_, fun err hmain => h.returned hmain⟩
  rw [h.counter]
  exact Int.natCast_nonneg _

/-! ### Progress -/

def Main.steps : Main ε → ℕ
  | .starting => 2
  | .receiving => 1
  | .returned _ => 0

/-- How many events can still do something, at most. -/
def remaining (n : ℕ) (s : State ε) : ℕ :=
  4 * (n - s.workers.length) + total Worker.steps s.workers + s.main.steps

/-- An event does nothing, or is one of these. -/
theorem step_decreases (n cap : ℕ) (s : State ε) (e : Event ε) :
    Gather.step n cap s e = s ∨ remaining n (Gather.step n cap s e) < remaining n s := by
  cases e with
  | start =>
    simp only [Gather.step]
    split
    · split_ifs with hlt
      · refine .inr ?_
        simp only [remaining, List.length_append, List.length_singleton, total_concat, Worker.steps]
        omega
      · exact .inl rfl
    · exact .inl rfl
  | finish i err =>
    simp only [Gather.step]
    split
    · rename_i hw
      refine .inr ?_
      cases err with
      | none =>
        have hset := total_set Worker.steps hw (.leaving none)
        simp only [Worker.steps] at hset
        simp only [remaining, List.length_set]
        omega
      | some err =>
        have hset := total_set Worker.steps hw (.sending err)
        simp only [Worker.steps] at hset
        simp only [remaining, List.length_set]
        omega
    · exact .inl rfl
  | send i =>
    simp only [Gather.step]
    split
    · rename_i err hw
      split_ifs
      · refine .inr ?_
        have hset := total_set Worker.steps hw (.leaving (some err))
        simp only [Worker.steps] at hset
        simp only [remaining, List.length_set]
        omega
      · exact .inl rfl
    · exact .inl rfl
  | done i =>
    simp only [Gather.step]
    split
    · rename_i err hw
      refine .inr ?_
      have hset := total_set Worker.steps hw (.done err)
      simp only [Worker.steps] at hset
      simp only [remaining, List.length_set]
      omega
    · exact .inl rfl
  | wait =>
    simp only [Gather.step]
    split
    · rename_i hmain
      split_ifs
      · exact .inr (by simp only [remaining, hmain, Main.steps]; omega)
      · exact .inl rfl
    · exact .inl rfl
  | receive =>
    simp only [Gather.step]
    split
    · rename_i hmain _
      exact .inr (by simp only [remaining, hmain, Main.steps]; omega)
    · rename_i hmain _
      exact .inr (by simp only [remaining, hmain, Main.steps]; omega)
    · exact .inl rfl

/-- The end of a worker, which the function has to wait for. -/
def Event.isFinish : Event ε → Prop
  | .finish _ _ => True
  | _ => False

/-- As long as no worker is running and the function has not returned, something can be done. -/
theorem Consistent.exists_step (h : Consistent n s) (hcap : n ≤ cap)
    (hrunning : .running ∉ s.workers) (hmain : ∀ err, s.main ≠ .returned err) :
    ∃ e : Event ε, ¬ e.isFinish ∧ Gather.step n cap s e ≠ s := by
  have hmoves : ∀ {i : ℕ} {w : Worker ε} {s' : State ε}, s.workers[i]? = some w → ∀ w' ≠ w,
      s'.workers = s.workers.set i w' → s' ≠ s := by
    rintro i w s' hw w' hne hset rfl
    obtain ⟨hi, -⟩ := List.getElem?_eq_some_iff.1 hw
    rw [hset, List.getElem?_set_self hi] at hw
    exact hne (Option.some.inj hw)
  cases hphase : s.main with
  | returned err => exact absurd hphase (hmain err)
  | receiving =>
    refine ⟨.receive, id, fun heq => ?_⟩
    have hnext := congrArg State.main heq
    cases hchannel : s.channel <;> simp [Gather.step, hphase, hchannel] at hnext
  | starting =>
    by_cases hlt : s.workers.length < n
    · refine ⟨.start, id, fun heq => ?_⟩
      have hnext := congrArg (fun s => s.workers.length) heq
      simp [Gather.step, hphase, hlt] at hnext
    have hlength : s.workers.length = n := le_antisymm h.length_le (not_lt.1 hlt)
    by_cases halive : total Worker.alive s.workers = 0
    · refine ⟨.wait, id, fun heq => ?_⟩
      have hnext := congrArg State.main heq
      have hcounter : s.counter = 0 := by rw [h.counter, halive, Nat.cast_zero]
      simp [Gather.step, hphase, hlength, hcounter] at hnext
    -- some worker is not done, and not running either
    rw [total_eq_zero_iff] at halive
    push Not at halive
    obtain ⟨w, hw, hw0⟩ := halive
    obtain ⟨i, hi⟩ := List.mem_iff_getElem?.1 hw
    cases w with
    | running => exact absurd hw hrunning
    | sending err =>
      refine ⟨.send i, id, hmoves hi (.leaving (some err)) (by simp) ?_⟩
      simp only [Gather.step, hi, h.room hcap hi, if_true]
    | leaving err =>
      refine ⟨.done i, id, hmoves hi (.done err) (by simp) ?_⟩
      simp only [Gather.step, hi]
    | done err => exact absurd rfl hw0

/-- **When nothing is left to do until another worker ends, the function has returned exactly if
none is running.** -/
theorem Consistent.returned_iff (h : Consistent n s) (hcap : n ≤ cap)
    (hstuck : ∀ e : Event ε, ¬ e.isFinish → Gather.step n cap s e = s) :
    (∃ err, s.main = .returned err) ↔ .running ∉ s.workers := by
  constructor
  · rintro ⟨err, hmain⟩ hrunning
    obtain ⟨err', hdone⟩ := (h.returned hmain).done _ hrunning
    cases hdone
  · intro hrunning
    by_contra hmain
    push Not at hmain
    obtain ⟨e, he, hne⟩ := h.exists_step hcap hrunning hmain
    exact hne (hstuck e he)

/-- No run can go on for ever. -/
theorem length_le_remaining (n cap : ℕ) {s : State ε} {es : List (Event ε)}
    (hes : Along (Gather.step n cap) (fun s e => Gather.step n cap s e ≠ s) s es) :
    es.length + remaining n (run (Gather.step n cap) s es) ≤ remaining n s := by
  induction es generalizing s with
  | nil => simp
  | cons e es ih =>
    obtain ⟨hne, hes⟩ := hes
    have hlt := (step_decreases n cap s e).resolve_left hne
    have hrest := ih hes
    simp only [List.length_cons, run_cons]
    omega

end Gather
