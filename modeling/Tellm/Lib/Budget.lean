/-
  BUDGETS over the runs of a labelled transition system.

  A state has a budget, and some steps have a cost.  Where no step spends more than it takes off the budget,
  a run can pay for as many as its start could: the number of the steps with a cost is BOUNDED by the start's
  budget, whatever else the run does.

  1. **`Path.countP_le`**: the rule, under an invariant and under a condition on the steps.

  The rule is an induction over the run.  What is counted is a Boolean of the step, so a theorem about
  "how many times" is one about a computable function of the history; the budget may rise only in steps
  that the condition excludes.  A bound of one is the case of interest more often than not: something
  happens at most once after a certain moment.
-/
import Tellm.Lib.Runs

namespace Runs

namespace Path

variable {σ ε : Type} {S : Sys σ ε} {s₀ s : σ} {h : List (σ × ε)}

/-- As long as each step pays for itself, the start's budget bounds the steps with a cost. -/
theorem countP_le (cost : σ × ε → Bool) (budget : σ → Nat) {I : σ → Prop} {G : σ → ε → Prop}
    (h0 : I s₀)
    (hstep : ∀ s e s', I s → G s e → S.step s e = some s' →
      I s' ∧ (cost (s, e)).toNat + budget s' ≤ budget s) (p : Path S s₀ h s) :
    (∀ x ∈ h, G x.1 x.2) → I s ∧ h.countP cost + budget s ≤ budget s₀ := by
  induction p with
  | start => exact fun _ => ⟨h0, (Nat.zero_add _).le⟩
  | @step h s s' e _ hs ih =>
    intro hG
    obtain ⟨hI, htotal⟩ := ih fun x hx => hG x (List.mem_cons_of_mem _ hx)
    obtain ⟨hI', hpaid⟩ := hstep s e s' hI (hG _ List.mem_cons_self) hs
    refine ⟨hI', ?_⟩
    have hcount : ((s, e) :: h).countP cost = h.countP cost + (cost (s, e)).toNat := by
      rw [List.countP_cons]
      cases cost (s, e) <;> rfl
    omega

end Path

end Runs
