/-
  FLOW: what goes into a system comes out of it in order, or is lost.

  A system that takes things in, holds them and lets them out (a queue, a chain of queues, a worker with
  one in hand) obeys a conservation law, one step at a time: what it held and what came in is what went
  out, what was dropped, and what it holds now, in this order (`Conserves`).  From the law alone, for
  every run:

  1. `Conserves.inOrder`: what came out, followed by what is held, is a sublist of what went in.  Nothing
     comes out twice, nothing is made up, nothing overtakes.
  2. `Conserves.lossless`: it is all of what went in, if no step dropped anything.

  What is held is a function of the state and what comes in, goes out or is dropped are functions of a
  step, so all three can be read off a run's history without anything being recorded in the state.
  Proving the law is one case analysis over steps; everything about whole runs follows here.

  The drops stand between what goes out and what is kept, in the order of the law; a system that drops
  from the middle of what it holds does not obey it, and one that drops from the front does.
-/
import Tellm.Lib.Runs

namespace Runs

variable {σ ε α : Type}

/-- What the steps of a history let through, oldest first. -/
def log (f : σ × ε → List α) (h : List (σ × ε)) : List α := h.reverse.flatMap f

@[simp] theorem log_cons (f : σ × ε → List α) (x : σ × ε) (h : List (σ × ε)) :
    log f (x :: h) = log f h ++ f x := by
  simp [log]

/-- **The conservation law**, for the steps that a run from `s₀` can take: nothing is held at the start, and
    what is held before a step and comes in with it goes out, is dropped or is held after it, in this order.
    -/
structure Conserves (S : Sys σ ε) (s₀ : σ) (held : σ → List α) (ins outs drops : σ × ε → List α) :
    Prop where
  start : held s₀ = []
  step : ∀ h s e s', Path S s₀ h s → S.step s e = some s' →
    held s ++ ins (s, e) = outs (s, e) ++ drops (s, e) ++ held s'

namespace Conserves

variable {S : Sys σ ε} {s₀ : σ} {held : σ → List α} {ins outs drops : σ × ε → List α}

/-- What has come out and what is held went in, in this order. -/
theorem inOrder (hc : Conserves S s₀ held ins outs drops) {h : List (σ × ε)} {s : σ}
    (p : Path S s₀ h s) : (log outs h ++ held s).Sublist (log ins h) := by
  induction p with
  | start =>
    rw [hc.start]
    exact List.Sublist.refl _
  | @step h s s' e p hs ih =>
    rw [log_cons, log_cons]
    -- the step's own law, with what it dropped left out
    have hstep : (outs (s, e) ++ held s').Sublist (held s ++ ins (s, e)) := by
      rw [hc.step h s e s' p hs, List.append_assoc]
      exact (List.sublist_append_right _ _).append_left _
    calc (log outs h ++ outs (s, e) ++ held s').Sublist (log outs h ++ (held s ++ ins (s, e))) := by
          rw [List.append_assoc]
          exact hstep.append_left _
      _ = log outs h ++ held s ++ ins (s, e) := (List.append_assoc _ _ _).symm
      (log outs h ++ held s ++ ins (s, e)).Sublist (log ins h ++ ins (s, e)) :=
          ih.append_right _

/-- When nothing was dropped, they are all that went in. -/
theorem lossless (hc : Conserves S s₀ held ins outs drops) {h : List (σ × ε)} {s : σ}
    (p : Path S s₀ h s) (hno : ∀ x ∈ h, drops x = []) : log ins h = log outs h ++ held s := by
  induction p with
  | start =>
    rw [hc.start]
    rfl
  | @step h s s' e p hs ih =>
    have hlaw := hc.step h s e s' p hs
    rw [hno (s, e) List.mem_cons_self, List.append_nil] at hlaw
    calc log ins ((s, e) :: h) = log ins h ++ ins (s, e) := log_cons _ _ _
      _ = log outs h ++ (held s ++ ins (s, e)) := by
          rw [ih fun x hx => hno x (List.mem_cons_of_mem _ hx), List.append_assoc]
      _ = log outs h ++ (outs (s, e) ++ held s') := by rw [hlaw]
      _ = log outs ((s, e) :: h) ++ held s' := by rw [log_cons, List.append_assoc]

end Conserves

end Runs
