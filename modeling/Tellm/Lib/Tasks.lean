/-
  TASKS interleaved over a shared state, and the lock that some of them hold.

  An `async` program is a pool of tasks.  Between two suspension points a task runs alone, so its
  meaning is a sequence of atomic ACTS on the shared state; any task may take the next act, and a task
  may start at any time.  `Program` is the acts, `Pool` the shared state with the tasks in progress, and
  `Program.sys` the transition system of all interleavings (`Tellm.Lib.Runs`).

  A mutex held across several acts is a field of the shared state naming the holder, together with the
  set of task positions that hold it (`Lock`).  `Lock.Agrees.step` is the discharge-once argument: if
  every act keeps, takes or releases the lock consistently, then in every reachable pool the field names
  exactly the task that is at a holding position.

  Which task runs next and what it meets (a result of the operating system, a failure) is in the event, so
  one system has all schedules and all outcomes in its runs.  Tasks are known by a number that is not used
  while the task is in progress.

  A program whose acts do not care about others can be run alone (`Pool.solo`, `Finishes`), which gives a
  sequential function its place as a run of the interleaved system.
-/
import Tellm.Lib.Runs

namespace Tasks

open Runs

variable {σ τ χ : Type}

/-- The tasks' code.  `entry t`: a task may start at position `t`.  `act i t c s`: what the task `i` at
    position `t` does next in the shared state `s`, where `c` is whatever the task does not decide (the
    outcome of a write, a message that arrives): the state after, and the task's next position (`none`
    when it ends).  The act is `none` while the task has to wait. -/
structure Program (σ τ χ : Type) where
  entry : τ → Bool
  act : Nat → τ → χ → σ → Option (σ × Option τ)

/-- The shared state and the tasks in progress, by task id. -/
structure Pool (σ τ : Type) where
  shared : σ
  tasks : Std.ExtTreeMap Nat τ compare

/-- One step of a pool: a task starts, or a task acts. -/
inductive Move (τ χ : Type)
  | spawn (i : Nat) (t : τ)
  | act (i : Nat) (c : χ)

/-- The pool in which the shared state is `s` and the task `i` is at `o` (gone when `none`). -/
def Pool.put (p : Pool σ τ) (s : σ) (i : Nat) (o : Option τ) : Pool σ τ :=
  ⟨s, p.tasks.alter i fun _ => o⟩

@[simp] theorem Pool.shared_put (p : Pool σ τ) (s : σ) (i : Nat) (o : Option τ) :
    (p.put s i o).shared = s := rfl

@[simp] theorem Pool.tasks_put (p : Pool σ τ) (s : σ) (i j : Nat) (o : Option τ) :
    (p.put s i o).tasks[j]? = if i = j then o else p.tasks[j]? := by
  simp [Pool.put, Std.ExtTreeMap.getElem?_alter]

/-- All interleavings of the tasks' acts. -/
def Program.sys (P : Program σ τ χ) : Sys (Pool σ τ) (Move τ χ) where
  step p
    | .spawn i t =>
      if P.entry t && p.tasks[i]?.isNone then some (p.put p.shared i (some t)) else none
    | .act i c =>
      match p.tasks[i]? with
      | none => none
      | some t => (P.act i t c p.shared).map fun r => p.put r.1 i r.2

variable {P : Program σ τ χ}

theorem step_spawn {p p' : Pool σ τ} {i : Nat} {t : τ} (h : P.sys.step p (.spawn i t) = some p') :
    P.entry t = true ∧ p.tasks[i]? = none ∧ p' = p.put p.shared i (some t) := by
  simp only [Program.sys] at h
  split at h
  · rename_i hc
    rw [Bool.and_eq_true, Option.isNone_iff_eq_none] at hc
    exact ⟨hc.1, hc.2, (Option.some.inj h).symm⟩
  · cases h

theorem step_act {p p' : Pool σ τ} {i : Nat} {c : χ} (h : P.sys.step p (.act i c) = some p') :
    ∃ t r, p.tasks[i]? = some t ∧ P.act i t c p.shared = some r ∧ p' = p.put r.1 i r.2 := by
  simp only [Program.sys] at h
  split at h
  · cases h
  · rename_i t ht
    obtain ⟨r, hr, rfl⟩ := Option.map_eq_some_iff.mp h
    exact ⟨t, r, ht, hr, rfl⟩

/-- What a step of a pool is: every proof about all interleavings starts from this case split. -/
theorem step_cases {p p' : Pool σ τ} {m : Move τ χ} (h : P.sys.step p m = some p') :
    (∃ i t, m = .spawn i t ∧ P.entry t = true ∧ p.tasks[i]? = none ∧
      p' = p.put p.shared i (some t)) ∨
    (∃ i c t r, m = .act i c ∧ p.tasks[i]? = some t ∧ P.act i t c p.shared = some r ∧
      p' = p.put r.1 i r.2) := by
  cases m with
  | spawn i t =>
    obtain ⟨he, hn, hp⟩ := step_spawn h
    exact Or.inl ⟨i, t, rfl, he, hn, hp⟩
  | act i c =>
    obtain ⟨t, r, ht, hr, hp⟩ := step_act h
    exact Or.inr ⟨i, c, t, r, rfl, ht, hr, hp⟩

/-! ## What is in progress -/

/-- The pool with no task in it. -/
def Pool.idle (s : σ) : Pool σ τ := ⟨s, ∅⟩

/-- Some task is at a position that `f` selects. -/
def InProgress (p : Pool σ τ) (f : τ → Bool) : Prop :=
  ∃ (i : Nat) (t : τ), p.tasks[i]? = some t ∧ f t = true

/-- Some task other than `j` is. -/
def Others (p : Pool σ τ) (j : Nat) (f : τ → Bool) : Prop :=
  ∃ (i : Nat) (t : τ), i ≠ j ∧ p.tasks[i]? = some t ∧ f t = true

/-- Both can be computed from the list of the tasks. -/
instance (p : Pool σ τ) (f : τ → Bool) : Decidable (InProgress p f) :=
  decidable_of_iff (∃ x ∈ p.tasks.toList, f x.2 = true) <| by
    simp only [Prod.exists, Std.ExtTreeMap.mem_toList_iff_getElem?_eq_some, InProgress]

instance (p : Pool σ τ) (j : Nat) (f : τ → Bool) : Decidable (Others p j f) :=
  decidable_of_iff (∃ x ∈ p.tasks.toList, x.1 ≠ j ∧ f x.2 = true) <| by
    simp only [Prod.exists, Std.ExtTreeMap.mem_toList_iff_getElem?_eq_some, Others, and_left_comm]

theorem Others.inProgress {p : Pool σ τ} {j : Nat} {f : τ → Bool} (h : Others p j f) :
    InProgress p f := by
  obtain ⟨i, t, -, ht, hf⟩ := h
  exact ⟨i, t, ht, hf⟩

/-- A task and the others. -/
theorem inProgress_iff {p : Pool σ τ} {j : Nat} {f : τ → Bool} :
    InProgress p f ↔ Others p j f ∨ (p.tasks[j]?).any f = true := by
  constructor
  · rintro ⟨i, t, ht, hf⟩
    by_cases hij : i = j
    · subst hij
      exact Or.inr (by rw [ht]; exact hf)
    · exact Or.inl ⟨i, t, hij, ht, hf⟩
  · rintro (h | h)
    · exact h.inProgress
    · obtain ⟨t, ht, hf⟩ := (Option.any_eq_true _ _).mp h
      exact ⟨j, t, ht, hf⟩

/-- After an act only the acting task has moved. -/
theorem inProgress_put {p : Pool σ τ} {s : σ} {j : Nat} {o : Option τ} {f : τ → Bool} :
    InProgress (p.put s j o) f ↔ Others p j f ∨ o.any f = true := by
  rw [inProgress_iff, Pool.tasks_put, if_pos rfl]
  refine or_congr ⟨?_, ?_⟩ Iff.rfl
  · rintro ⟨i, t, hij, ht, hf⟩
    rw [Pool.tasks_put, if_neg fun h => hij h.symm] at ht
    exact ⟨i, t, hij, ht, hf⟩
  · rintro ⟨i, t, hij, ht, hf⟩
    refine ⟨i, t, hij, ?_, hf⟩
    rw [Pool.tasks_put, if_neg fun h => hij h.symm]
    exact ht

/-! ## A task alone -/

/-- The pool with at most one task in it, at `o`. -/
def Pool.solo (s : σ) (o : Option τ) : Pool σ τ := (Pool.idle s).put s 0 o

theorem Pool.solo_none (s : σ) : Pool.solo s none = (Pool.idle s : Pool σ τ) := by
  have htasks : ((∅ : Std.ExtTreeMap Nat τ compare).alter 0 fun _ => none) = ∅ :=
    Std.ExtTreeMap.ext_getElem? fun i => by simp [Std.ExtTreeMap.getElem?_alter]
  rw [Pool.solo, Pool.put, Pool.idle, htasks]

theorem Pool.put_solo (s s' : σ) (o o' : Option τ) :
    (Pool.solo s o).put s' 0 o' = (Pool.solo s' o' : Pool σ τ) := by
  have htasks : (((∅ : Std.ExtTreeMap Nat τ compare).alter 0 fun _ => o).alter 0 fun _ => o') =
      (∅ : Std.ExtTreeMap Nat τ compare).alter 0 fun _ => o' := by
    refine Std.ExtTreeMap.ext_getElem? fun i => ?_
    simp only [Std.ExtTreeMap.getElem?_alter, compare_eq_iff_eq]
    split <;> rfl
  rw [Pool.solo, Pool.put, Pool.put, Pool.idle, htasks]
  rfl

/-- A task alone acts. -/
theorem step_solo {s : σ} {t : τ} {c : χ} {r : σ × Option τ} (h : P.act 0 t c s = some r) :
    P.sys.step (Pool.solo s (some t)) (.act 0 c) = some (Pool.solo r.1 r.2) := by
  have htask : (Pool.solo s (some t)).tasks[0]? = some t := by
    rw [Pool.solo, Pool.tasks_put, if_pos rfl]
  simp only [Program.sys, htask]
  show (P.act 0 t c s).map _ = _
  rw [h, Option.map_some, Pool.put_solo]

/-- A task starts alone. -/
theorem step_spawn_solo {s : σ} {t : τ} (he : P.entry t = true) :
    P.sys.step (Pool.idle s) (.spawn 0 t) = some (Pool.solo s (some t)) := by
  have hnone : (Pool.idle s : Pool σ τ).tasks[0]? = none := Std.ExtTreeMap.getElem?_empty
  simp only [Program.sys, he, hnone]
  rfl

/-- `Finishes P s o s'`: a task alone at `o` in `s` has a run to its end, which leaves `s'`. -/
inductive Finishes (P : Program σ τ χ) : σ → Option τ → σ → Prop
  | done {s : σ} : Finishes P s none s
  | act {s s' : σ} {t : τ} {c : χ} {r : σ × Option τ} :
      P.act 0 t c s = some r → Finishes P r.1 r.2 s' → Finishes P s (some t) s'

/-- A task that finishes alone is a run of the pool. -/
theorem Finishes.path {P : Program σ τ χ} {s s' : σ} {o : Option τ} (h : Finishes P s o s') :
    ∃ hist, Path P.sys (Pool.solo s o) hist (Pool.idle s') := by
  induction h with
  | done => exact ⟨[], by rw [Pool.solo_none]; exact .start⟩
  | act hact _ ih =>
    obtain ⟨hist, hp⟩ := ih
    exact ⟨_, (Path.step .start (step_solo hact)).append hp⟩

/-- So is one that starts and then finishes alone. -/
theorem Finishes.path_of_entry {P : Program σ τ χ} {s s' : σ} {t : τ}
    (h : Finishes P s (some t) s') (he : P.entry t = true) :
    ∃ hist, Path P.sys (Pool.idle s) hist (Pool.idle s') := by
  obtain ⟨hist, hp⟩ := h.path
  exact ⟨_, (Path.step .start (step_spawn_solo he)).append hp⟩

/-! ## A mutex held across acts -/

/-- A mutex of the program: the field of the shared state that names its holder, and the positions at
    which a task holds it. -/
structure Lock (σ τ : Type) where
  holder : σ → Option Nat
  holds : τ → Bool

namespace Lock

variable (L : Lock σ τ)

/-- The field and the positions agree. -/
def Agrees (p : Pool σ τ) : Prop :=
  (∀ i t, p.tasks[i]? = some t → L.holds t = true → L.holder p.shared = some i) ∧
  (∀ i, L.holder p.shared = some i → ∃ t, p.tasks[i]? = some t ∧ L.holds t = true)

/-- One act respects the lock: it leaves it alone, takes it while it is free, or releases it. -/
def Respects (i : Nat) (t : τ) (s : σ) (r : σ × Option τ) : Prop :=
  (L.holder r.1 = L.holder s ∧ r.2.any L.holds = L.holds t) ∨
  (L.holder s = none ∧ L.holder r.1 = some i ∧ L.holds t = false ∧ r.2.any L.holds = true) ∨
  (L.holds t = true ∧ L.holder r.1 = none ∧ r.2.any L.holds = false)

variable {L}

/-- At most one task is at a holding position. -/
theorem Agrees.unique {p : Pool σ τ} (ha : L.Agrees p) {i j : Nat} {t u : τ}
    (hi : p.tasks[i]? = some t) (hj : p.tasks[j]? = some u) (ht : L.holds t = true)
    (hu : L.holds u = true) : i = j := by
  have h1 := ha.1 i t hi ht
  have h2 := ha.1 j u hj hu
  rw [h1] at h2
  exact Option.some.inj h2

theorem agrees_idle {s : σ} (hfree : L.holder s = none) : L.Agrees (Pool.idle s) := by
  constructor
  · intro i t ht
    rw [Pool.idle, Std.ExtTreeMap.getElem?_empty] at ht
    cases ht
  · intro i hi
    rw [Pool.idle, hfree] at hi
    cases hi

/-- While the lock is free no task is at a holding position. -/
theorem Agrees.not_holds {p : Pool σ τ} (ha : L.Agrees p) {i : Nat} {t : τ}
    (hfree : L.holder p.shared = none) (hi : p.tasks[i]? = some t) : L.holds t = false := by
  rw [Bool.eq_false_iff]
  intro ht
  rw [ha.1 i t hi ht] at hfree
  cases hfree

/-- A task that does not hold the lock acts respectfully: the lock still agrees. -/
theorem Agrees.put {p : Pool σ τ} {i : Nat} {t : τ} {r : σ × Option τ} (ha : L.Agrees p)
    (ht : p.tasks[i]? = some t) (hr : L.Respects i t p.shared r) : L.Agrees (p.put r.1 i r.2) := by
  -- the positions of the other tasks are those of `p`
  have hother : ∀ {j u}, i ≠ j → (p.put r.1 i r.2).tasks[j]? = some u → p.tasks[j]? = some u := by
    intro j u hij hu
    rwa [Pool.tasks_put, if_neg hij] at hu
  have hself : ∀ {u}, (p.put r.1 i r.2).tasks[i]? = some u → r.2 = some u := by
    intro u hu
    rwa [Pool.tasks_put, if_pos rfl] at hu
  rcases hr with ⟨hlock, hsame⟩ | ⟨hfree, htaken, hout, hin⟩ | ⟨hheld, hfreed, hout⟩
  · constructor
    · intro j u hu hhu
      rw [Pool.shared_put, hlock]
      by_cases hij : i = j
      · subst hij
        rw [hself hu, Option.any_some, hhu] at hsame
        exact ha.1 i t ht hsame.symm
      · exact ha.1 j u (hother hij hu) hhu
    · intro j hj
      rw [Pool.shared_put, hlock] at hj
      obtain ⟨u, hu, hhu⟩ := ha.2 j hj
      by_cases hij : i = j
      · subst hij
        rw [ht] at hu
        cases hu
        rw [hhu] at hsame
        obtain ⟨v, hv, hhv⟩ := (Option.any_eq_true _ _).mp hsame
        exact ⟨v, by rw [Pool.tasks_put, if_pos rfl]; exact hv, hhv⟩
      · exact ⟨u, by rw [Pool.tasks_put, if_neg hij]; exact hu, hhu⟩
  · constructor
    · intro j u hu hhu
      rw [Pool.shared_put, htaken]
      by_cases hij : i = j
      · rw [hij]
      · have hno := ha.not_holds hfree (hother hij hu)
        rw [hhu] at hno
        cases hno
    · intro j hj
      rw [Pool.shared_put, htaken] at hj
      cases hj
      obtain ⟨v, hv, hhv⟩ := (Option.any_eq_true _ _).mp hin
      exact ⟨v, by rw [Pool.tasks_put, if_pos rfl]; exact hv, hhv⟩
  · constructor
    · intro j u hu hhu
      by_cases hij : i = j
      · subst hij
        rw [hself hu, Option.any_some, hhu] at hout
        cases hout
      · exact absurd (ha.unique ht (hother hij hu) hheld hhu) hij
    · intro j hj
      rw [Pool.shared_put, hfreed] at hj
      cases hj

/-- A task that starts outside the lock leaves it alone. -/
theorem Agrees.spawn {p : Pool σ τ} {i : Nat} {t : τ} (ha : L.Agrees p) (hn : p.tasks[i]? = none)
    (ht : L.holds t = false) : L.Agrees (p.put p.shared i (some t)) := by
  constructor
  · intro j u hu hhu
    rw [Pool.tasks_put] at hu
    split at hu
    · cases hu
      rw [ht] at hhu
      cases hhu
    · exact ha.1 j u hu hhu
  · intro j hj
    obtain ⟨u, hu, hhu⟩ := ha.2 j hj
    refine ⟨u, ?_, hhu⟩
    rw [Pool.tasks_put, if_neg]
    · exact hu
    · rintro rfl
      rw [hn] at hu
      cases hu

/-- The lock of a program: tasks start outside it, and every act respects it. -/
structure Guards (L : Lock σ τ) (P : Program σ τ χ) : Prop where
  entry : ∀ t, P.entry t = true → L.holds t = false
  act : ∀ i t c s r, P.act i t c s = some r → L.Respects i t s r

/-- **The mutex rule**, one step: if acts take and release the lock as their guards say, the lock still agrees
    with the positions of the tasks after the step. -/
theorem Agrees.step {p p' : Pool σ τ} {m : Move τ χ} (ha : L.Agrees p) (hg : L.Guards P)
    (hs : P.sys.step p m = some p') : L.Agrees p' := by
  rcases step_cases hs with ⟨i, t, -, he, hn, rfl⟩ | ⟨i, c, t, r, -, ht, hr, rfl⟩
  · exact ha.spawn hn (hg.entry t he)
  · exact ha.put ht (hg.act i t c _ r hr)

end Lock

end Tasks
