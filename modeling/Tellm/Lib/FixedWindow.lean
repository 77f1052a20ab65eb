/-
  The FIXED-WINDOW LIMITER with a lockout: how many tries it lets through.

  A limiter of this kind counts failed tries in a window that starts with the first of them, and locks
  for a while once the count reaches a maximum.  It is simple because it forgets: a window that runs out
  is replaced by a fresh one, so a burst may straddle two windows, and three within two spans.  The worst
  case is what this file bounds, for a window and a lockout of the same length `span`:

  * at most `2·max − 2` tries in any half-open interval of length `span`;
  * at most `3·max − 2` in any half-open interval of length `2·span`.

  The argument is one invariant (`Fits`) on how many of the tries so far happened at or after `t`
  (`since ts t`), by the kind of window the limiter is in.  An unfinished window that started at `s` saw
  its first try AT `s`, so an interval that starts later misses it: that is the `− 1` behind both `− 2`s.
  A try that succeeds leaves no trace in the limiter; it counts towards the bounds as one more try
  (`Run.bounded_next`).

  Times are natural numbers and the tries are listed newest first, not later than `now`.  A run waits,
  passes the gate and fails, in any order; what a caller does between tries is its own affair.

  The bounds hold for every `t`, not only for times at which something happened, and for half-open
  intervals, so that adjacent intervals can be added up.
-/
import Mathlib

namespace FixedWindow

/-- The limiter's parameters. -/
structure Limits where
  span : Nat
  maxFailures : Nat
  two_le : 2 ≤ maxFailures

/-- A window: its start, the failures counted in it, and the end of the lockout it led to. -/
structure Window where
  startedAt : Nat
  count : Nat
  lockedUntil : Option Nat

/-- The gate at `now`: `none` while a lockout is in force, otherwise the limiter's state with an
    expired lockout forgotten. -/
def gate (w : Option Window) (now : Nat) : Option (Option Window) :=
  match w.bind Window.lockedUntil with
  | none => some w
  | some until_ => if now < until_ then none else some none

/-- The window that a try at `now` counts in: the running one, or a fresh one when there is none or it
    has run out. -/
def current (L : Limits) (w : Option Window) (now : Nat) : Window :=
  let fresh : Window := ⟨now, 0, none⟩
  let w := w.getD fresh
  if now - w.startedAt ≥ L.span then fresh else w

/-- One more failure at `now`; the last one allowed locks. -/
def fail (L : Limits) (w : Option Window) (now : Nat) : Window :=
  let w := current L w now
  { w with
    count := w.count + 1
    lockedUntil := if w.count + 1 ≥ L.maxFailures then some (now + L.span) else w.lockedUntil }

/-- The runs of a limiter: the times of the failed tries (newest first), the state, the clock. -/
inductive Run (L : Limits) : List Nat → Option Window → Nat → Prop
  | start : Run L [] none 0
  | wait {ts w now now'} : Run L ts w now → now ≤ now' → Run L ts w now'
  | fail {ts w w' now} : Run L ts w now → gate w now = some w' →
      Run L (now :: ts) (some (fail L w' now)) now

/-- How many tries happened at or after `t`. -/
def since (ts : List Nat) (t : Nat) : Nat := ts.countP fun x => t ≤ x

/-- How many happened in `[t, t + length)`. -/
def within (ts : List Nat) (t length : Nat) : Nat := ts.countP fun x => t ≤ x ∧ x < t + length

/-- The two bounds. -/
def Bounded (L : Limits) (ts : List Nat) : Prop :=
  ∀ t, within ts t L.span ≤ 2 * L.maxFailures - 2 ∧ within ts t (2 * L.span) ≤ 3 * L.maxFailures - 2

/-! ## Counting -/

theorem since_cons (x : Nat) (ts : List Nat) (t : Nat) :
    since (x :: ts) t = since ts t + if t ≤ x then 1 else 0 := by
  simp [since, List.countP_cons]

/-- One more try counts at most once. -/
theorem since_cons_le (x : Nat) (ts : List Nat) (t : Nat) : since (x :: ts) t ≤ since ts t + 1 := by
  rw [since_cons]
  split <;> omega

theorem since_eq_zero {ts : List Nat} {now t : Nat} (hle : ∀ x ∈ ts, x ≤ now) (ht : now < t) :
    since ts t = 0 := by
  rw [since, List.countP_eq_zero]
  intro x hx hxt
  have h1 := hle x hx
  have h2 : t ≤ x := of_decide_eq_true hxt
  omega

theorem within_le_since (ts : List Nat) (t length : Nat) : within ts t length ≤ since ts t :=
  List.countP_mono_left fun x _ hx => by
    rw [decide_eq_true_eq] at hx ⊢
    exact hx.1

/-- The try just made either lies outside the interval, or everything in the interval is among the
    tries at or after its start. -/
theorem within_cons_le {x : Nat} {ts : List Nat} {t length bound : Nat}
    (hold : within ts t length ≤ bound) (hnew : x < t + length → since (x :: ts) t ≤ bound) :
    within (x :: ts) t length ≤ bound := by
  by_cases hx : x < t + length
  · exact le_trans (within_le_since _ _ _) (hnew hx)
  · have hout : within (x :: ts) t length = within ts t length := by
      rw [within, List.countP_cons, within, if_neg]
      · rfl
      · rw [decide_eq_true_eq]
        exact fun h => hx h.2
    omega

/-! ## The invariant -/

/-- The tries so far fit the state, by its kind: no window (never started, or forgotten after a
    lockout), an unfinished window, a window that led to a lockout. -/
def FitsWindow (L : Limits) (ts : List Nat) (now : Nat) : Option Window → Prop
  | none =>
    (∀ t, now < t + L.span → since ts t = 0) ∧
    (∀ t, now < t + 2 * L.span → since ts t ≤ 2 * L.maxFailures - 2)
  | some ⟨s, c, none⟩ =>
    (s ≤ now ∧ 1 ≤ c ∧ c < L.maxFailures) ∧
    (∀ t, s < t → since ts t ≤ c - 1) ∧
    (∀ t, s < t + L.span → since ts t ≤ c + (L.maxFailures - 2)) ∧
    (∀ t, s < t + 2 * L.span → since ts t ≤ c + (2 * L.maxFailures - 2))
  | some ⟨s, _, some u⟩ =>
    s + L.span ≤ u ∧
    (∀ t, u < t + L.span → since ts t = 0) ∧
    (∀ t, s < t + L.span → since ts t ≤ 2 * L.maxFailures - 2) ∧
    (∀ t, s < t + 2 * L.span → since ts t ≤ 3 * L.maxFailures - 2)

/-- The tries so far fit the limits, the window, and the time now. -/
structure Fits (L : Limits) (ts : List Nat) (w : Option Window) (now : Nat) : Prop where
  le_now : ∀ x ∈ ts, x ≤ now
  window : FitsWindow L ts now w
  bounded : Bounded L ts

theorem Fits.wait {L : Limits} {ts : List Nat} {w : Option Window} {now now' : Nat}
    (h : Fits L ts w now) (hle : now ≤ now') : Fits L ts w now' := by
  refine ⟨fun x hx => le_trans (h.le_now x hx) hle, ?_, h.bounded⟩
  match w, h.window with
  | none, ⟨h1, h2⟩ => exact ⟨fun t ht => h1 t (by omega), fun t ht => h2 t (by omega)⟩
  | some ⟨_, _, none⟩, ⟨⟨hs, hc⟩, hrest⟩ => exact ⟨⟨by omega, hc⟩, hrest⟩
  | some ⟨_, _, some _⟩, hw => exact hw

/-- The gate forgets an expired lockout; what it forgets is too old to matter. -/
theorem Fits.pass {L : Limits} {ts : List Nat} {w w' : Option Window} {now : Nat}
    (h : Fits L ts w now) (hg : gate w now = some w') : Fits L ts w' now := by
  refine ⟨h.le_now, ?_, h.bounded⟩
  match w, h.window, hg with
  | none, hw, hg =>
    cases hg
    exact hw
  | some ⟨_, _, none⟩, hw, hg =>
    cases hg
    exact hw
  | some ⟨s, c, some u⟩, ⟨hsu, h1, h2, _⟩, hg =>
    obtain ⟨hu, hw'⟩ := Option.ite_none_left_eq_some.mp hg
    cases hw'
    exact ⟨fun t ht => h1 t (by omega), fun t ht => h2 t (by omega)⟩

/-- An open gate leaves no lockout in the state. -/
theorem lockedUntil_of_gate {w w' : Option Window} {now : Nat} (hg : gate w now = some w') :
    ∀ x, w' = some x → x.lockedUntil = none := by
  rintro x rfl
  unfold gate at hg
  split at hg
  · rename_i hnone
    cases hg
    exact hnone
  · split at hg <;> cases hg

/-- The tries at or after `t`, one more made at `now`, while the gate is open. -/
theorem Fits.since_next {L : Limits} {ts : List Nat} {w : Option Window} {now : Nat}
    (h : Fits L ts w now) (hopen : ∀ x, w = some x → x.lockedUntil = none) (t : Nat) :
    (now < t + L.span → since (now :: ts) t ≤ 2 * L.maxFailures - 2) ∧
    (now < t + 2 * L.span → since (now :: ts) t ≤ 3 * L.maxFailures - 2) := by
  have hmax := L.two_le
  have hstep := since_cons_le now ts t
  match w, h.window, hopen with
  | none, ⟨h1, h2⟩, _ =>
    constructor
    · intro ht
      have := h1 t ht
      omega
    · intro ht
      have := h2 t ht
      omega
  | some ⟨s, c, none⟩, ⟨hs, _, h2, h3⟩, _ =>
    constructor
    · intro ht
      have := h2 t (by omega)
      omega
    · intro ht
      have := h3 t (by omega)
      omega
  | some ⟨_, _, some _⟩, _, hopen => cases hopen _ rfl

/-- **One more try stays within the bounds**, whether it fails or succeeds. -/
theorem Fits.bounded_next {L : Limits} {ts : List Nat} {w w' : Option Window} {now : Nat}
    (h : Fits L ts w now) (hg : gate w now = some w') : Bounded L (now :: ts) := by
  intro t
  obtain ⟨h1, h2⟩ := (h.pass hg).since_next (lockedUntil_of_gate hg) t
  exact ⟨within_cons_le (h.bounded t).1 h1, within_cons_le (h.bounded t).2 h2⟩

/-- A failure in the running window. -/
theorem fail_running {L : Limits} {s c now : Nat} (hrun : now - s < L.span) :
    fail L (some ⟨s, c, none⟩) now =
      ⟨s, c + 1, if c + 1 ≥ L.maxFailures then some (now + L.span) else none⟩ := by
  simp only [fail, current, Option.getD_some, if_neg (by omega : ¬ now - s ≥ L.span)]

/-- A failure that opens a fresh window. -/
theorem fail_fresh {L : Limits} {w : Option Window} {now : Nat}
    (hfresh : w = none ∨ ∃ s c, w = some ⟨s, c, none⟩ ∧ L.span ≤ now - s) :
    fail L w now = ⟨now, 1, none⟩ := by
  have hmax := L.two_le
  have hone : ¬ (0 + 1 ≥ L.maxFailures) := by omega
  rcases hfresh with rfl | ⟨s, c, rfl, hs⟩
  · simp only [fail, current, Option.getD_none, ite_self, if_neg hone]
  · simp only [fail, current, Option.getD_some, if_pos (by omega : now - s ≥ L.span), if_neg hone]

theorem Fits.fail {L : Limits} {ts : List Nat} {w w' : Option Window} {now : Nat}
    (h : Fits L ts w now) (hg : gate w now = some w') :
    Fits L (now :: ts) (some (fail L w' now)) now := by
  have hmax := L.two_le
  have hle : ∀ x ∈ now :: ts, x ≤ now := by
    intro x hx
    rcases List.mem_cons.mp hx with rfl | hx
    · exact le_refl _
    · exact h.le_now x hx
  have hnone : ∀ t, now < t → since (now :: ts) t = 0 := fun t ht => since_eq_zero hle ht
  have hstep := since_cons_le now ts
  refine ⟨hle, ?_, h.bounded_next hg⟩
  -- no window, one that runs, one that has run out; a locked one does not pass the gate
  match w', (h.pass hg).window, lockedUntil_of_gate hg with
  | none, ⟨h1, h2⟩, _ =>
    rw [fail_fresh (Or.inl rfl)]
    refine ⟨⟨le_refl _, le_refl _, by omega⟩, ?_, ?_, ?_⟩
    · intro t ht
      exact (hnone t ht).le
    · intro t ht
      have h3 := h1 t ht
      have h4 := hstep t
      omega
    · intro t ht
      have h3 := h2 t ht
      have h4 := hstep t
      omega
  | some ⟨s, c, none⟩, ⟨⟨hs, hc1, hc2⟩, h1, h2, h3⟩, _ =>
    by_cases hrun : now - s < L.span
    · rw [fail_running hrun]
      by_cases hlock : c + 1 ≥ L.maxFailures
      · -- the last failure allowed: the window locks
        rw [if_pos hlock]
        refine ⟨by omega, fun t ht => hnone t (by omega), ?_, ?_⟩
        · intro t ht
          have h4 := h2 t ht
          have h5 := hstep t
          omega
        · intro t ht
          have h4 := h3 t ht
          have h5 := hstep t
          omega
      · rw [if_neg hlock]
        refine ⟨⟨hs, by omega, by omega⟩, ?_, ?_, ?_⟩
        · intro t ht
          have h4 := h1 t ht
          have h5 := hstep t
          omega
        · intro t ht
          have h4 := h2 t ht
          have h5 := hstep t
          omega
        · intro t ht
          have h4 := h3 t ht
          have h5 := hstep t
          omega
    · -- the window has run out: what it counted moves one window back
      rw [fail_fresh (Or.inr ⟨s, c, rfl, by omega⟩)]
      refine ⟨⟨le_refl _, le_refl _, by omega⟩, ?_, ?_, ?_⟩
      · intro t ht
        exact (hnone t ht).le
      · intro t ht
        have h4 := h1 t (by omega)
        have h5 := hstep t
        omega
      · intro t ht
        have h4 := h2 t (by omega)
        have h5 := hstep t
        omega
  | some ⟨_, _, some _⟩, _, hopen => cases hopen _ rfl

/-! ## Every run -/

theorem Run.fits {L : Limits} {ts : List Nat} {w : Option Window} {now : Nat}
    (h : Run L ts w now) : Fits L ts w now := by
  induction h with
  | start =>
    refine ⟨fun x hx => absurd hx List.not_mem_nil, ⟨fun _ _ => rfl, fun _ _ => ?_⟩, fun _ => ?_⟩
    · exact Nat.zero_le _
    · exact ⟨Nat.zero_le _, Nat.zero_le _⟩
  | wait _ hle ih => exact ih.wait hle
  | fail _ hg ih => exact ih.fail hg

/-- **The bounds survive one more try** of a run, even one that succeeds and leaves the limiter behind. -/
theorem Run.bounded_next {L : Limits} {ts : List Nat} {w w' : Option Window} {now : Nat}
    (h : Run L ts w now) (hg : gate w now = some w') : Bounded L (now :: ts) :=
  h.fits.bounded_next hg

/-- The window a try counts in still has room for it. -/
theorem Run.count_current_lt {L : Limits} {ts : List Nat} {w w' : Option Window} {now : Nat}
    (h : Run L ts w now) (hg : gate w now = some w') : (current L w' now).count < L.maxFailures := by
  have hmax := L.two_le
  match w', (h.fits.pass hg).window, lockedUntil_of_gate hg with
  | none, _, _ =>
    simp only [current, Option.getD_none, ite_self]
    omega
  | some ⟨s, c, none⟩, ⟨⟨_, _, hc⟩, _⟩, _ =>
    simp only [current, Option.getD_some]
    split
    · exact Nat.lt_of_lt_of_le Nat.zero_lt_two hmax
    · exact hc
  | some ⟨_, _, some _⟩, _, hopen => cases hopen _ rfl

end FixedWindow
