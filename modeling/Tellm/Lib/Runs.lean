/-
  RUNS of a labelled transition system, kept as a HISTORY.

  Some properties of a program ask for its states only ("in every reachable state"); others look back at
  what happened ("whatever was accepted before", "no later call").  So a run here carries its history: the
  list, newest step first, of the events together with the state each one met.  What a step observed is
  then a FUNCTION of the pair `(state, event)`, and the state itself holds no ghost field.

  1. **`Path`**: the run with its history, one constructor per step.
  2. **Rules**: an invariant of the states (`Path.invariant`), the same under a condition that every
     step of the run meets (`Path.invariant_of_forall`), and splitting a run at a step of its history
     (`Path.split`, `Path.cut`), which is what a property of later steps needs.
  3. **`Since`**: "`ev` happened, and only `keep` steps since", the past-time operator in which
     properties about what came before are stated; `since_cons` is its one rule.
  4. **Execution**: `Sys.run` and `Sys.trace` compute, and a computed run is a `Path`.
  5. **Members** of a state, kept in a list and known by their place: who is where after one has moved, and
     after one has come.

  A system is a partial step function, so at most one state follows a state and an event; what a program
  leaves open is put into the events.  A path is built at its newest end, and so are the inductions over
  it.

  Executable definitions make witnesses cheap: a run is given by its events, `Sys.run` computes it, and
  `decide` settles what it came to.
-/
import Mathlib

namespace Runs

variable {σ ε : Type}

/-- A labelled transition system: `step s e` is the state after the event `e`, `none` when `e` is not
    enabled in `s`. -/
structure Sys (σ ε : Type) where
  step : σ → ε → Option σ

/-- `Path S s₀ h s`: some run of `S` leads from `s₀` to `s`, and `h` is its history, newest step
    first.  An entry of `h` is the state in which the step was taken and the step's event. -/
inductive Path (S : Sys σ ε) (s₀ : σ) : List (σ × ε) → σ → Prop
  | start : Path S s₀ [] s₀
  | step {h : List (σ × ε)} {s s' : σ} {e : ε} :
      Path S s₀ h s → S.step s e = some s' → Path S s₀ ((s, e) :: h) s'

namespace Path

variable {S : Sys σ ε} {s₀ s : σ} {h : List (σ × ε)}

/-! ## Invariants -/

/-- What the start satisfies and every step keeps holds at the end of every run. -/
theorem invariant {I : σ → Prop} (h0 : I s₀)
    (hstep : ∀ s e s', I s → S.step s e = some s' → I s') (p : Path S s₀ h s) : I s := by
  induction p with
  | start => exact h0
  | step _ hs ih => exact hstep _ _ _ ih hs

/-- The same under a condition `G` on the steps: `I` need only survive the steps that meet `G`, and
    then holds at the end of every run all of whose steps meet it. -/
theorem invariant_of_forall {I : σ → Prop} {G : σ → ε → Prop} (h0 : I s₀)
    (hstep : ∀ s e s', I s → G s e → S.step s e = some s' → I s') (p : Path S s₀ h s) :
    (∀ x ∈ h, G x.1 x.2) → I s := by
  induction p with
  | start => exact fun _ => h0
  | step _ hs ih =>
    intro hG
    have hI := ih (fun x hx => hG x (List.mem_cons_of_mem _ hx))
    exact hstep _ _ _ hI (hG _ List.mem_cons_self) hs

/-! ## Cutting a run in two -/

/-- A run continued by a run is a run. -/
theorem append {m : σ} {older newer : List (σ × ε)} (p : Path S s₀ older m)
    (q : Path S m newer s) : Path S s₀ (newer ++ older) s := by
  induction q with
  | start => exact p
  | step _ hs ih => exact .step ih hs

/-- A run splits wherever its history does. -/
theorem split {older : List (σ × ε)} :
    ∀ {newer : List (σ × ε)} {s : σ}, Path S s₀ (newer ++ older) s →
      ∃ m, Path S s₀ older m ∧ Path S m newer s
  | [], _, p => ⟨_, p, .start⟩
  | _ :: _, _, p => by
    cases p with
    | step q hs =>
      obtain ⟨m, hold, hnew⟩ := split q
      exact ⟨m, hold, .step hnew hs⟩

/-- A run cut at one of its steps: the run before it, the step itself, the run after it. -/
theorem cut {newer older : List (σ × ε)} {m : σ} {e : ε}
    (p : Path S s₀ (newer ++ (m, e) :: older) s) :
    ∃ m', Path S s₀ older m ∧ S.step m e = some m' ∧ Path S m' newer s := by
  obtain ⟨m', hold, hnew⟩ := split p
  cases hold with
  | step q hs => exact ⟨m', q, hs, hnew⟩

end Path

/-! ## What a history says has happened -/

/-- `Since keep ev h`: some step of the history `h` satisfies `ev`, and every step after it satisfies
    `keep`. -/
def Since (keep ev : σ × ε → Prop) (h : List (σ × ε)) : Prop :=
  ∃ newer x older, h = newer ++ x :: older ∧ ev x ∧ ∀ y ∈ newer, keep y

/-- One more step: it is the event itself, or it keeps what has happened before. -/
theorem since_cons {keep ev : σ × ε → Prop} {x : σ × ε} {h : List (σ × ε)} :
    Since keep ev (x :: h) ↔ ev x ∨ (keep x ∧ Since keep ev h) := by
  constructor
  · rintro ⟨newer, y, older, heq, hy, hkeep⟩
    cases newer with
    | nil =>
      obtain ⟨rfl, -⟩ := List.cons.inj heq
      exact Or.inl hy
    | cons z newer =>
      obtain ⟨rfl, rfl⟩ := List.cons.inj heq
      refine Or.inr ⟨hkeep x List.mem_cons_self, newer, y, older, rfl, hy, fun w hw => ?_⟩
      exact hkeep w (List.mem_cons_of_mem _ hw)
  · rintro (hx | ⟨hx, newer, y, older, rfl, hy, hkeep⟩)
    · exact ⟨[], x, h, rfl, hx, fun _ hy => absurd hy List.not_mem_nil⟩
    · refine ⟨x :: newer, y, older, rfl, hy, ?_⟩
      intro w hw
      rcases List.mem_cons.mp hw with rfl | hw
      · exact hx
      · exact hkeep w hw

/-- What has happened is an entry of the history. -/
theorem Since.exists_mem {keep ev : σ × ε → Prop} {h : List (σ × ε)} (hs : Since keep ev h) :
    ∃ x ∈ h, ev x := by
  obtain ⟨newer, x, older, rfl, hx, -⟩ := hs
  exact ⟨x, List.mem_append_right _ List.mem_cons_self, hx⟩

/-! ## Executing a run -/

/-- The state after the events `es`, oldest first; `none` as soon as one is not enabled. -/
def Sys.run (S : Sys σ ε) : σ → List ε → Option σ
  | s, [] => some s
  | s, e :: es => (S.step s e).bind fun s' => S.run s' es

/-- A computed run is a run. -/
theorem Sys.path_of_run (S : Sys σ ε) {s' : σ} :
    ∀ {es : List ε} {s : σ}, S.run s es = some s' → ∃ h, Path S s h s'
  | [], s, hr => by
    obtain rfl : s = s' := Option.some.inj hr
    exact ⟨[], .start⟩
  | e :: es, s, hr => by
    obtain ⟨m, hm, hr⟩ := Option.bind_eq_some_iff.mp hr
    obtain ⟨h, hp⟩ := S.path_of_run hr
    exact ⟨h ++ [(s, e)], (Path.step .start hm).append hp⟩

/-- A property computed at the end of a computed run is a property of a reachable state. -/
theorem Sys.path_of_run_any (S : Sys σ ε) {s : σ} {es : List ε} {p : σ → Bool}
    (hr : (S.run s es).any p = true) : ∃ h s', Path S s h s' ∧ p s' = true := by
  obtain ⟨s', hs', hp⟩ := (Option.any_eq_true p _).mp hr
  obtain ⟨h, hpath⟩ := S.path_of_run hs'
  exact ⟨h, s', hpath, hp⟩

/-- The same with the history, which is computed too. -/
def Sys.trace (S : Sys σ ε) : σ → List ε → Option (List (σ × ε) × σ)
  | s, [] => some ([], s)
  | s, e :: es => (S.step s e).bind fun m => (S.trace m es).map fun r => (r.1 ++ [(s, e)], r.2)

theorem Sys.path_of_trace (S : Sys σ ε) {r : List (σ × ε) × σ} :
    ∀ {es : List ε} {s : σ}, S.trace s es = some r → Path S s r.1 r.2
  | [], s, hr => by
    obtain rfl := Option.some.inj hr
    exact .start
  | e :: es, s, hr => by
    obtain ⟨m, hm, hrest⟩ := Option.bind_eq_some_iff.mp hr
    obtain ⟨r', hr', rfl⟩ := Option.map_eq_some_iff.mp hrest
    exact (Path.step .start hm).append (S.path_of_trace hr')

/-- A property computed of a computed run is a property of a run. -/
theorem Sys.path_of_trace_any (S : Sys σ ε) {s : σ} {es : List ε} {p : List (σ × ε) × σ → Bool}
    (hr : (S.trace s es).any p = true) : ∃ h s', Path S s h s' ∧ p (h, s') = true := by
  obtain ⟨r, hr, hp⟩ := (Option.any_eq_true p _).mp hr
  exact ⟨r.1, r.2, S.path_of_trace hr, hp⟩

/-! ## Members by their place -/

section

variable {α : Type} {members : List α} {i j : Nat} {a b : α}

/-- One has moved. -/
theorem getElem?_set_cases (h : (members.set i a)[j]? = some b) : (j = i ∧ b = a) ∨ members[j]? = some b := by
  by_cases hij : i = j
  · subst hij
    rw [List.getElem?_set_self'] at h
    obtain ⟨_, -, rfl⟩ := Option.map_eq_some_iff.mp h
    exact Or.inl ⟨rfl, rfl⟩
  · rw [List.getElem?_set_ne hij] at h
    exact Or.inr h

/-- One has come. -/
theorem getElem?_concat_cases (h : (members ++ [a])[j]? = some b) :
    (j = members.length ∧ b = a) ∨ members[j]? = some b := by
  by_cases hj : j < members.length
  · rw [List.getElem?_append_left hj] at h
    exact Or.inr h
  · rw [List.getElem?_append_right (by omega)] at h
    obtain ⟨hlast, hb⟩ := List.getElem?_eq_some_iff.mp h
    have hone : j - members.length = 0 := by
      rw [List.length_singleton] at hlast
      omega
    refine Or.inl ⟨by omega, ?_⟩
    simp only [hone] at hb
    exact hb.symm

theorem lt_of_getElem? (h : members[i]? = some a) : i < members.length := (List.getElem?_eq_some_iff.mp h).1

theorem getElem?_set_self_of (h : members[i]? = some b) : (members.set i a)[i]? = some a := by
  rw [List.getElem?_set_self (lt_of_getElem? h)]

theorem getElem?_concat_of (h : members[i]? = some b) : (members ++ [a])[i]? = some b := by
  rw [List.getElem?_append_left (lt_of_getElem? h), h]

end

end Runs
