import Mathlib.Data.List.Basic

/-!
# Runs of a labelled step relation

The states of a system, the events that move it, and a relation saying which
event leads where.  `Run step s es t` says that the events `es`, in this order,
lead from `s` to `t`; the history is kept, because most of what one wants to
say about a ledger is a statement about what has happened so far.

* `Run.historyInvariant` — a statement about history and state that holds at
  the start and survives every step holds of every run.
* `Run.invariant` — the same for a statement about the state alone.
* `Run.invariantOn` — an invariant that only events of one kind preserve holds
  along every run made of such events: the shape of an "until" argument.
* `Run.append`, `Run.single`, `Run.cons` — runs compose.
* `Run.of_foldlM` — a run can be computed, where the events are functions.
-/

namespace Runs

variable {σ ε : Type}

/-- `Run step s es t`: the events `es` lead from `s` to `t`. -/
inductive Run (step : σ → ε → σ → Prop) (s : σ) : List ε → σ → Prop
  | nil : Run step s [] s
  | snoc {es : List ε} {t u : σ} {e : ε} :
      Run step s es t → step t e u → Run step s (es ++ [e]) u

variable {step : σ → ε → σ → Prop}

namespace Run

theorem single {s t : σ} {e : ε} (h : step s e t) : Run step s [e] t :=
  snoc nil h

theorem append {s t u : σ} {es fs : List ε} (h : Run step s es t) (k : Run step t fs u) :
    Run step s (es ++ fs) u := by
  induction k with
  | nil => simpa using h
  | snoc _ hstep ih =>
    rw [← List.append_assoc]
    exact snoc ih hstep

theorem cons {s t u : σ} {e : ε} {es : List ε} (h : step s e t) (k : Run step t es u) :
    Run step s (e :: es) u :=
  (single h).append k

/-- Events that can be replayed one after the other make a run. -/
theorem of_foldlM {f : σ → ε → Option σ} {s t : σ} {es : List ε} (h : es.foldlM f s = some t) :
    Run (fun s e t => f s e = some t) s es t := by
  induction es generalizing s with
  | nil =>
    cases h
    exact .nil
  | cons e es ih =>
    rw [List.foldlM_cons] at h
    obtain ⟨s1, h1, h2⟩ := Option.bind_eq_some_iff.1 h
    exact .cons h1 (ih h2)

/-- A statement about the history and the state that holds at the start and
survives every step holds of every run. -/
theorem historyInvariant {I : List ε → σ → Prop} {s : σ} (h0 : I [] s)
    (hstep : ∀ {es t e u}, Run step s es t → I es t → step t e u → I (es ++ [e]) u)
    {es : List ε} {t : σ} (h : Run step s es t) : I es t := by
  induction h with
  | nil => exact h0
  | snoc hrun hs ih => exact hstep hrun ih hs

/-- The same for a statement about the state alone. -/
theorem invariant {I : σ → Prop} {s : σ} (h0 : I s)
    (hstep : ∀ {t e u}, I t → step t e u → I u) {es : List ε} {t : σ}
    (h : Run step s es t) : I t :=
  historyInvariant (I := fun _ t => I t) h0 (fun _ hi hs => hstep hi hs) h

/-- An invariant that events of one kind preserve holds along every run whose
events are all of that kind. -/
theorem invariantOn {I : σ → Prop} {p : ε → Prop} {s : σ} (h0 : I s)
    (hstep : ∀ {t e u}, p e → I t → step t e u → I u) {es : List ε} {t : σ}
    (h : Run step s es t) (hp : ∀ e ∈ es, p e) : I t := by
  induction h with
  | nil => exact h0
  | @snoc es t u e _ hs ih =>
    have hes : ∀ e ∈ es, p e := fun e he => hp e (List.mem_append_left _ he)
    exact hstep (hp e (by simp)) (ih hes) hs

end Run

end Runs
