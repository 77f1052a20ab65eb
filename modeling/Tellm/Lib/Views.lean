/-
  VIEWS: a run of a system, as one of its parts sees it.

  A system of many parts of one kind (a chat each, a room each, a key each) is verified part by part: what
  the whole does is, seen from a part, a step of that part's own system, or nothing at all.  A `View` says
  which, and then every run of the whole is a run of each part (`View.path`), with the part's share of the
  history; so what is proved about one part's runs holds in the whole.

  The part's system may stand still while the whole moves, and it moves by one step at most; so a view
  preserves order and never invents a step.  `log_history` carries what is observed along: if each step of
  the whole shows of this part what the part's own step shows, then so does the whole run.
-/
import Tellm.Lib.Flow

namespace Runs

variable {σ ε τ φ : Type}

/-- One part of a system: its share of a state, and what a step is to it, if anything. -/
structure View (σ ε τ φ : Type) where
  state : σ → τ
  event : σ × ε → Option φ

namespace View

variable (v : View σ ε τ φ)

/-- An entry of the history, as the part sees it. -/
def see (x : σ × ε) : Option (τ × φ) := (v.event x).map fun f => (v.state x.1, f)

/-- A history as it is seen. -/
def history (h : List (σ × ε)) : List (τ × φ) := h.filterMap v.see

/-- The step is one of the part's own system, or leaves the part as it is. -/
def Follows (T : Sys τ φ) (x : σ × ε) (s' : σ) : Prop :=
  match v.event x with
  | none => v.state s' = v.state x.1
  | some f => T.step (v.state x.1) f = some (v.state s')

variable {v} {S : Sys σ ε} {T : Sys τ φ} {s₀ s : σ} {h : List (σ × ε)}

/-- **A run of the whole is a run of the part**: where every step that a run can take is followed by the view,
    the view of the run is a run of the other system, with the view of its history. -/
theorem path (hfollows : ∀ h s e s', Path S s₀ h s → S.step s e = some s' → v.Follows T (s, e) s')
    (p : Path S s₀ h s) : Path T (v.state s₀) (v.history h) (v.state s) := by
  induction p with
  | start => exact .start
  | @step h s s' e p hs ih =>
    have hstep := hfollows h s e s' p hs
    rw [Follows] at hstep
    rw [history, List.filterMap_cons, see]
    cases hevent : v.event (s, e) with
    | none =>
      rw [hevent] at hstep
      rw [hstep]
      exact ih
    | some f =>
      rw [hevent] at hstep
      exact ih.step hstep

theorem mem_history {y : τ × φ} : y ∈ v.history h ↔ ∃ x ∈ h, v.see x = some y := List.mem_filterMap

/-- What the part's steps let through is the part's share of what the whole's steps do. -/
theorem log_history {α β : Type} {f : τ × φ → List β} {g : σ × ε → List α} {share : α → Option β}
    (hshare : ∀ x, (v.see x).elim [] f = (g x).filterMap share) :
    log f (v.history h) = (log g h).filterMap share := by
  induction h with
  | nil => rfl
  | cons x h ih =>
    rw [log_cons, List.filterMap_append, ← ih, ← hshare, history, List.filterMap_cons]
    cases v.see x with
    | none => exact (List.append_nil _).symm
    | some y => exact log_cons _ _ _

end View

end Runs
