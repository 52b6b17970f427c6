import DnsFilter.Lib.Run

/-!
# Noninterference

Some events of a run are left out and others replaced, which is judged in the state in which they
happen; a view of the states is not to depend on that.

* `redact step edit s es`: the run that is left;
* `Unwinding`: what single steps have to respect;
* `Unwinding.run_redact`: then the run that is left leaves the same view.
-/

namespace EventRun

variable {σ ε ω : Type*}

/-- The events of a run, each one replaced or left out as it is judged where it happens. -/
def redact (step : σ → ε → σ) (edit : σ → ε → Option ε) : σ → List ε → List ε
  | _, [] => []
  | s, e :: es => (edit s e).toList ++ redact step edit (step s e) es

/-- What is put in place of an event does the same to the view, and what is left out does
nothing. -/
structure Unwinding (step : σ → ε → σ) (fits : σ → ε → Prop) (edit : σ → ε → Option ε)
    (view : σ → ω) : Prop where
  replaces : ∀ s s' e e', fits s e → edit s e = some e' → view s = view s' →
    view (step s e) = view (step s' e')
  hides : ∀ s e, fits s e → edit s e = none → view (step s e) = view s

variable {step : σ → ε → σ} {fits : σ → ε → Prop} {edit : σ → ε → Option ε} {view : σ → ω}

/-- The edited run leaves the same view. -/
theorem Unwinding.run_redact (h : Unwinding step fits edit view) {s s' : σ}
    (hs : view s = view s') {es : List ε} (hfits : Along step fits s es) :
    view (run step s es) = view (run step s' (redact step edit s es)) := by
  induction es generalizing s s' with
  | nil => exact hs
  | cons e es ih =>
    obtain ⟨hfit, hfits⟩ := hfits
    rw [run_cons, redact]
    cases he : edit s e with
    | some e' => exact ih (h.replaces s s' e e' hfit he hs) hfits
    | none => exact ih ((h.hides s e hfit he).trans hs) hfits

end EventRun
