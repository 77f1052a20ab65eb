/-
  The BRUTE-FORCE BOUND of the pairing gate: how many guesses a chat gets.

  A guess counts when it is COMPARED with the room's code, that is when the attempt passes both guards
  of `attempt_pair` (`Compares`).  Three limits act on one chat: the five-minute window of failures, the
  five-minute lockout after the fifth, and the rotation of the code after ten minutes.  Each starts at a
  different time, and the bounds below hold for any schedule of the attempts.

  1. `attempts_apply`: only the chat's own attempts (and a deny) touch its record of failures.
  2. `limiter_run`: hence the record is a run of the fixed-window limiter (`Tellm.Lib.FixedWindow`), with
     the times of the compared attempts as its failed tries, until the chat is paired.
  3. `compared_of_issue`: between two codes, every comparison happens within the first one's ten minutes.
  4. `bruteForce_bounded`: 8 guesses in any five minutes, 13 at one code, none during a lockout.

  The counting is done away from the code.  `Tellm.Lib.FixedWindow` bounds the tries that a limiter of
  this kind lets through, for any window and any maximum; here it is shown that the record which
  `attempt_pair` keeps for a chat IS such a limiter's, window and lockout of the same length, as long as
  the chat is not paired.  A deny erases the record and an `/allow` ends the guessing, so the run must
  contain neither for this chat; and the clock must not go backwards, nor come so near to the end of `u64`
  that the saturating addition of ten minutes loses some of them (`Guessing`).  The other chats may do
  anything.

  An attempt that finds a lockout in force, or a chat that is allowed already, compares nothing and is not
  a guess.  The successful guess is one: it leaves no failure behind, but it was compared, so the bounds
  count it with the others.
-/
import Tellm.Pairing
import Tellm.Lib.FixedWindow

namespace Tellm

open Runs

namespace AccessControl

/-- An attempt is compared exactly when it returns `Paired`, `Rejected`, or the `LockedOut` of a
    failure that it has just recorded. -/
theorem compares_iff_result {self : AccessControl} {chatId : Int} {now : AccessTime}
    (submittedCode : String) :
    self.Compares chatId now ↔
      (self.attemptPair chatId submittedCode now).2 = .paired ∨
      (∃ n, (self.attemptPair chatId submittedCode now).2 = .rejected n) ∨
      (∃ until_, (self.attemptPair chatId submittedCode now).2 = .lockedOut until_ ∧
        (self.lockedUntil chatId now).2 = none) := by
  rcases attemptPair_cases self chatId submittedCode now with
    ⟨ha, h⟩ | ⟨hn, _, hl, h⟩ | ⟨hc, -, h⟩ | ⟨hc, -, h⟩
  · simp [h, Compares, ha]
  · simp [h, Compares, hl]
  · simp [h, hc]
  · refine ⟨fun _ => Or.inr ?_, fun _ => hc⟩
    rw [h, recordFailedAttempt]
    dsimp only
    split
    · exact Or.inr ⟨_, rfl, hc.2⟩
    · exact Or.inl ⟨_, rfl⟩

/-- The record of a chat's failures is its own: a call that neither denies the chat nor compares an
    attempt of it leaves it alone. -/
theorem attempts_apply {self : AccessControl} {op : AccessOp} {chatId : Int}
    (hdeny : op ≠ .denyChat chatId)
    (hcompares : ∀ submittedCode now, op = .attemptPair chatId submittedCode now →
      ¬ self.Compares chatId now) :
    (self.apply op).attempts[chatId]? = self.attempts[chatId]? := by
  cases op with
  | armRoom d now =>
    obtain ⟨-, -, h⟩ := armRoom_frame self d now
    show (self.armRoom d now).1.attempts[chatId]? = _
    rw [h]
  | checkChat d =>
    simp only [apply, checkChat]
    split <;> rfl
  | allowChat d => rfl
  | addOwner u => rfl
  | denyChat d =>
    have hne : d ≠ chatId := fun h => hdeny (by rw [h])
    simp [apply, denyChat, Std.ExtTreeMap.getElem?_erase, hne]
  | attemptPair d submittedCode now =>
    have hne : self.Compares d now → d ≠ chatId := by
      rintro hc rfl
      exact hcompares submittedCode now rfl hc
    -- an expired lockout is forgotten, which is an erase at the chat of the attempt
    have hgate : d ≠ chatId →
        (self.lockedUntil d now).1.attempts[chatId]? = self.attempts[chatId]? := by
      intro hd
      rcases lockedUntil_cases self d now with ⟨_, _, -, -, -, h⟩ | ⟨_, _, -, -, -, h⟩ | ⟨-, h⟩ <;>
        simp [h, Std.ExtTreeMap.getElem?_erase, hd]
    obtain ⟨-, -, hcompare⟩ := compareState_frame self d now
    rcases attemptPair_cases self d submittedCode now with
      ⟨-, h⟩ | ⟨-, _, -, h⟩ | ⟨hc, -, h⟩ | ⟨hc, -, h⟩
    · rw [apply, h]
    · rw [apply, h]
    · rw [apply, h]
      simp [pairedState, Std.ExtTreeMap.getElem?_erase, hne hc, hcompare, hgate (hne hc)]
    · rw [apply, h, recordFailedAttempt]
      dsimp only
      split <;> simp [Std.ExtTreeMap.getElem?_insert, hne hc, hcompare, hgate (hne hc)]

/-- Only a deny of the chat takes its access away. -/
theorem mem_apply_of_mem {self : AccessControl} {op : AccessOp} {chatId : Int}
    (hdeny : op ≠ .denyChat chatId) (h : chatId ∈ self.allowedChatIds) :
    chatId ∈ (self.apply op).allowedChatIds := by
  cases op with
  | armRoom d now =>
    obtain ⟨ha, -⟩ := armRoom_frame self d now
    show chatId ∈ (self.armRoom d now).1.allowedChatIds
    rwa [ha]
  | checkChat d =>
    simp only [apply, checkChat]
    split <;> exact h
  | allowChat d => exact mem_allowChat.mpr (Or.inr h)
  | addOwner u => exact h
  | denyChat d =>
    exact mem_denyChat.mpr ⟨fun hd => hdeny (by rw [hd]), h⟩
  | attemptPair d submittedCode now =>
    obtain ⟨-, hmem, -⟩ := attemptPair_live self d submittedCode now
    exact (hmem chatId).mpr (Or.inr h)

end AccessControl

/-! ## The compared attempts of a history -/

/-- The time of the entry, when it is an attempt of the chat that is compared. -/
def comparedAt (chatId : Int) (x : AccessControl × AccessOp) : Option Nat :=
  match x.2 with
  | .attemptPair d _ now =>
    if d = chatId ∧ x.1.Compares chatId now then some now.seconds else none
  | _ => none

/-- The times of the compared attempts of the chat, newest first. -/
def compared (chatId : Int) (h : AccessHistory) : List Nat := h.filterMap (comparedAt chatId)

/-- The entry is a compared attempt of the chat, at `now`, that returns `LockedOut`: its failure is
    the fifth of its window. -/
def FifthFailure (chatId : Int) (x : AccessControl × AccessOp) (now : AccessTime) : Prop :=
  ∃ submittedCode until_, x.2 = .attemptPair chatId submittedCode now ∧ x.1.Compares chatId now ∧
    (x.1.attemptPair chatId submittedCode now).2 = .lockedOut until_

theorem comparedAt_eq_some {chatId : Int} {x : AccessControl × AccessOp} {t : Nat} :
    comparedAt chatId x = some t ↔ ∃ submittedCode now,
      x.2 = .attemptPair chatId submittedCode now ∧ x.1.Compares chatId now ∧ now.seconds = t := by
  obtain ⟨s, op⟩ := x
  cases op with
  | attemptPair d submittedCode now =>
    simp only [comparedAt, Option.ite_none_right_eq_some, Option.some.injEq,
      AccessOp.attemptPair.injEq]
    constructor
    · rintro ⟨⟨rfl, hc⟩, rfl⟩
      exact ⟨submittedCode, now, ⟨rfl, rfl, rfl⟩, hc, rfl⟩
    · rintro ⟨_, _, ⟨rfl, rfl, rfl⟩, hc, rfl⟩
      exact ⟨⟨rfl, hc⟩, rfl⟩
  | _ => simp [comparedAt]

theorem compared_cons (chatId : Int) (x : AccessControl × AccessOp) (h : AccessHistory) :
    compared chatId (x :: h) = (comparedAt chatId x).toList ++ compared chatId h := by
  rw [compared, List.filterMap_cons, compared]
  cases comparedAt chatId x <;> rfl

/-- The assumptions on a history: the clock never runs backwards and stays clear of `u64::MAX`, and
    nobody allows or denies the chat by hand. -/
structure Guessing (chatId : Int) (h : AccessHistory) : Prop where
  clock : ClockMonotone h
  clear : ∀ x ∈ h, ∀ now, x.2.time = some now → now.seconds ≤ u64Max - 600
  not_allow : ∀ x ∈ h, x.2 ≠ .allowChat chatId
  not_deny : ∀ x ∈ h, x.2 ≠ .denyChat chatId

theorem Guessing.tail {chatId : Int} {x : AccessControl × AccessOp} {h : AccessHistory}
    (hg : Guessing chatId (x :: h)) : Guessing chatId h := by
  refine ⟨?_, fun y hy => hg.clear y (List.mem_cons_of_mem _ hy),
    fun y hy => hg.not_allow y (List.mem_cons_of_mem _ hy),
    fun y hy => hg.not_deny y (List.mem_cons_of_mem _ hy)⟩
  have hclock := hg.clock
  rw [ClockMonotone, List.filterMap_cons] at hclock
  split at hclock
  · exact hclock
  · exact (List.pairwise_cons.mp hclock).2

/-- The assumptions hold of the steps after any point. -/
theorem Guessing.newer {chatId : Int} {newer older : AccessHistory}
    (hg : Guessing chatId (newer ++ older)) : Guessing chatId newer := by
  refine ⟨?_, fun y hy => hg.clear y (List.mem_append_left _ hy),
    fun y hy => hg.not_allow y (List.mem_append_left _ hy),
    fun y hy => hg.not_deny y (List.mem_append_left _ hy)⟩
  have hclock := hg.clock
  rw [ClockMonotone, List.filterMap_append] at hclock
  exact (List.pairwise_append.mp hclock).1

/-- The clock reading of the newest step is the latest of all. -/
theorem Guessing.le_head {chatId : Int} {x y : AccessControl × AccessOp} {h : AccessHistory}
    {now earlier : AccessTime} (hg : Guessing chatId (x :: h)) (hx : x.2.time = some now)
    (hy : y ∈ h) (hyt : y.2.time = some earlier) : earlier.seconds ≤ now.seconds := by
  have hclock := hg.clock
  rw [ClockMonotone, List.filterMap_cons, hx] at hclock
  exact (List.pairwise_cons.mp hclock).1 earlier (List.mem_filterMap.mpr ⟨y, hy, hyt⟩)

/-! ## The record of failures is a fixed-window limiter -/

/-- The limiter's parameters: five failures, a window and a lockout of five minutes. -/
def pairingLimits : FixedWindow.Limits := ⟨300, 5, by decide⟩

/-- A record of failures as a window of the limiter. -/
def AttemptState.toWindow (attempt : AttemptState) : FixedWindow.Window :=
  ⟨attempt.windowStartedAt.seconds, attempt.count, attempt.lockedUntil.map (·.seconds)⟩

namespace AccessControl

/-- The chat's record of failures, as the limiter's state. -/
def window (self : AccessControl) (chatId : Int) : Option FixedWindow.Window :=
  (self.attempts[chatId]?).map AttemptState.toWindow

/-- The lockout check is the limiter's gate. -/
theorem gate_window {self : AccessControl} {chatId : Int} {now : AccessTime}
    (h : (self.lockedUntil chatId now).2 = none) :
    FixedWindow.gate (self.window chatId) now.seconds =
      some ((self.lockedUntil chatId now).1.window chatId) := by
  rcases lockedUntil_cases self chatId now with
    ⟨_, _, -, -, -, hl⟩ | ⟨attempt, until_, ha, hu, hle, hl⟩ | ⟨hnone, hl⟩
  · rw [hl] at h
    cases h
  · have hlt : ¬ now.seconds < until_.seconds := by omega
    simp [hl, window, ha, FixedWindow.gate, AttemptState.toWindow, hu, hlt]
  · rw [hl]
    cases ha : self.attempts[chatId]? with
    | none => simp [window, ha, FixedWindow.gate]
    | some attempt => simp [window, ha, FixedWindow.gate, AttemptState.toWindow, hnone attempt ha]

/-- The window a failure counts in is the limiter's. -/
theorem toWindow_window (self : AccessControl) (chatId : Int) (now : AccessTime) :
    (AttemptState.window self.attempts[chatId]? now).toWindow =
      FixedWindow.current pairingLimits (self.window chatId) now.seconds := by
  rw [window]
  cases self.attempts[chatId]? with
  | none => simp [AttemptState.window, FixedWindow.current, AttemptState.toWindow]
  | some attempt =>
    simp only [AttemptState.window, FixedWindow.current, Option.getD_some, Option.map_some,
      apply_ite AttemptState.toWindow]
    rfl

/-- Recording a failure is the limiter's, as long as neither counter saturates. -/
theorem window_recordFailedAttempt {self : AccessControl} {chatId : Int} {now : AccessTime}
    (hclear : now.seconds ≤ u64Max - 600)
    (hcount : (FixedWindow.current pairingLimits (self.window chatId) now.seconds).count < 5) :
    (self.recordFailedAttempt chatId now).1.window chatId =
      some (FixedWindow.fail pairingLimits (self.window chatId) now.seconds) := by
  have hsat : (now.saturatingAdd lockoutDuration).seconds = now.seconds + 300 := by
    simp only [AccessTime.saturatingAdd, lockoutDuration, u64Max] at hclear ⊢
    omega
  rw [FixedWindow.fail, ← toWindow_window, recordFailedAttempt]
  rw [← toWindow_window] at hcount
  generalize AttemptState.window self.attempts[chatId]? now = attempt at hcount ⊢
  have hmin : min (attempt.count + 1) 255 = attempt.count + 1 := by
    have : attempt.count < 5 := hcount
    omega
  dsimp only
  rw [hmin]
  have hmax : pairingLimits.maxFailures = maxPairingAttempts := rfl
  have hcounted : attempt.toWindow.count = attempt.count := rfl
  rw [hmax, hcounted]
  split
  · simp [window, AttemptState.toWindow, hsat, pairingLimits]
  · simp [window, AttemptState.toWindow]

end AccessControl

/-- **The simulation.**  In every run the limiter's bounds hold of the compared attempts; and as long
    as the chat is not paired, its record of failures is a run of the limiter. -/
theorem limiter_run {s₀ s : AccessControl} {h : AccessHistory} {chatId : Int}
    (h0 : s₀.attempts[chatId]? = none) (p : Path accessSys s₀ h s) :
    Guessing chatId h →
    FixedWindow.Bounded pairingLimits (compared chatId h) ∧
    (chatId ∉ s.allowedChatIds →
      ∀ now, (∀ x ∈ h, ∀ t, x.2.time = some t → t.seconds ≤ now) →
        FixedWindow.Run pairingLimits (compared chatId h) (s.window chatId) now) := by
  induction p with
  | start =>
    refine fun _ => ⟨fun _ => ⟨Nat.zero_le _, Nat.zero_le _⟩, fun _ now _ => ?_⟩
    rw [AccessControl.window, h0]
    exact .wait .start (Nat.zero_le now)
  | @step h s s' op p hs ih =>
    intro hg
    cases hs
    obtain ⟨hbounded, hrun⟩ := ih hg.tail
    have hdeny : op ≠ .denyChat chatId := hg.not_deny _ List.mem_cons_self
    rw [compared_cons]
    cases hx : comparedAt chatId (s, op) with
    | none =>
      -- not compared: neither the count nor the record changes
      have hattempts : (s.apply op).window chatId = s.window chatId := by
        rw [AccessControl.window, AccessControl.attempts_apply hdeny, AccessControl.window]
        rintro submittedCode now rfl hc
        rw [comparedAt_eq_some.mpr ⟨submittedCode, now, rfl, hc, rfl⟩] at hx
        cases hx
      refine ⟨hbounded, ?_⟩
      intro hn now hnow
      rw [hattempts]
      exact hrun (fun hm => hn (AccessControl.mem_apply_of_mem hdeny hm)) now
        fun x hx => hnow x (List.mem_cons_of_mem _ hx)
    | some t =>
      obtain ⟨submittedCode, now, hop, hc, rfl⟩ := comparedAt_eq_some.mp hx
      dsimp only at hop hc
      subst hop
      have hgate := AccessControl.gate_window hc.2
      have hrun := hrun hc.1 now.seconds fun x hx t ht => hg.le_head rfl hx ht
      refine ⟨hrun.bounded_next hgate, ?_⟩
      intro hn now' hnow'
      rcases AccessControl.attemptPair_cases s chatId submittedCode now with
        ⟨ha, -⟩ | ⟨-, _, hl, -⟩ | ⟨-, -, hr⟩ | ⟨-, -, hr⟩
      · exact absurd ha hc.1
      · rw [hc.2] at hl
        cases hl
      · refine absurd ?_ hn
        rw [AccessControl.apply, hr]
        simp [AccessControl.pairedState]
      · obtain ⟨-, -, hattempts⟩ := AccessControl.compareState_frame s chatId now
        have hwindow : (s.compareState chatId now).1.window chatId =
            (s.lockedUntil chatId now).1.window chatId := by
          rw [AccessControl.window, hattempts, AccessControl.window]
        have hcount := hrun.count_current_lt hgate
        rw [← hwindow] at hcount
        have hfail := AccessControl.window_recordFailedAttempt
          (hg.clear _ List.mem_cons_self now rfl) hcount
        rw [AccessControl.apply, hr, hfail, hwindow]
        exact (hrun.fail hgate).wait (hnow' _ List.mem_cons_self now rfl)

/-! ## One code -/

/-- Two observations of "the code most recently issued": what the history says, and the last entry
    that issues one. -/
theorem issuedAt_of_mostRecent {chatId : Int} {code : PairingCode} {issuedAt : AccessTime}
    {x : AccessControl × AccessOp} {older : AccessHistory} {last : PairingCode × AccessTime}
    (hx : x.1.issues x.2 chatId = some last) :
    ∀ {newer : AccessHistory}, (∀ y ∈ newer, y.1.issues y.2 chatId = none) →
      MostRecentCode chatId code issuedAt (newer ++ x :: older) → issuedAt = last.2
  | [], _, hrec => by
    rcases since_cons.mp hrec with ⟨hi, -⟩ | ⟨⟨hnone, -⟩, -⟩
    · rw [hx] at hi
      rw [Option.some.inj hi]
    · rw [hx] at hnone
      cases hnone
  | y :: newer, hnewer, hrec => by
    rcases since_cons.mp hrec with ⟨hi, -⟩ | ⟨-, hrec⟩
    · rw [hnewer y List.mem_cons_self] at hi
      cases hi
    · exact issuedAt_of_mostRecent hx (fun z hz => hnewer z (List.mem_cons_of_mem _ hz)) hrec

/-- An attempt that is compared and draws no code is compared before the armed code expires. -/
theorem compared_before_expiry {s : AccessControl} {chatId : Int} {submittedCode : String}
    {now : AccessTime} (hc : s.Compares chatId now)
    (hnone : s.issues (.attemptPair chatId submittedCode now) chatId = none) :
    ∃ pairing, s.pending[chatId]? = some pairing ∧ now.seconds < pairing.expiresAt.seconds := by
  obtain ⟨-, -, hpend⟩ := AccessControl.lockedUntil_frame s chatId now
  rcases AccessControl.ensureRoomCode_cases (s.lockedUntil chatId now).1 chatId now with
    ⟨pairing, hp, hlt, -⟩ | hens
  · rw [hpend] at hp
    exact ⟨pairing, hp, hlt⟩
  · have hnew : (s.compareState chatId now).2.2 = true := by
      rw [AccessControl.compareState, hens]
    rw [AccessControl.issues, if_pos ⟨rfl, hc, hnew⟩] at hnone
    cases hnone

/-- **One code, ten minutes.**  From the call that issues a code to the next one that does, every
    comparison happens less than ten minutes after the issue. -/
theorem compared_of_issue {s₀ s : AccessControl} {chatId : Int} (h0 : s₀.pending = ∅)
    {newer older : AccessHistory} {x : AccessControl × AccessOp} {code : PairingCode}
    {issuedAt : AccessTime} (p : Path accessSys s₀ (newer ++ x :: older) s)
    (hx : x.1.issues x.2 chatId = some (code, issuedAt))
    (hg : Guessing chatId (newer ++ x :: older))
    (hnewer : ∀ y ∈ newer, y.1.issues y.2 chatId = none) :
    ∀ t ∈ compared chatId (newer ++ [x]), issuedAt.seconds ≤ t ∧ t < issuedAt.seconds + 600 := by
  have htime := AccessControl.time_of_issues hx
  -- on the calls since the issue
  induction newer generalizing s with
  | nil =>
    intro t ht
    obtain ⟨y, hy, hyt⟩ := List.mem_filterMap.mp ht
    obtain rfl := List.mem_singleton.mp hy
    obtain ⟨submittedCode, now, hop, -, rfl⟩ := comparedAt_eq_some.mp hyt
    rw [hop] at htime
    cases htime
    exact ⟨le_refl _, by omega⟩
  | cons y newer ih =>
    obtain ⟨m, op⟩ := y
    intro t ht
    rw [List.cons_append, compared_cons, List.mem_append] at ht
    cases p with
    | step p hs =>
      rcases ht with ht | ht
      · obtain ⟨submittedCode, now, hop, hc, rfl⟩ :=
          comparedAt_eq_some.mp (Option.mem_toList.mp ht)
        dsimp only at hop hc
        subst hop
        refine ⟨hg.le_head rfl (List.mem_append_right _ List.mem_cons_self) htime, ?_⟩
        obtain ⟨pairing, hp, hlt⟩ := compared_before_expiry hc (hnewer _ List.mem_cons_self)
        obtain ⟨issuedAt', hrec, hexp⟩ := pending_mostRecent h0 p pairing hp
        -- the code that is compared is of the last issue, which is this one
        have hsame : issuedAt' = issuedAt := issuedAt_of_mostRecent hx
          (fun z hz => hnewer z (List.mem_cons_of_mem _ hz)) hrec
        rw [hexp, hsame] at hlt
        exact lt_of_lt_of_le hlt (Nat.min_le_left _ _)
      · exact ih p hg.tail (fun z hz => hnewer z (List.mem_cons_of_mem _ hz)) t ht

/-! ## A lockout -/

/-- A fifth failure locks the chat out for five minutes. -/
theorem lockedUntil_of_fifthFailure {s : AccessControl} {op : AccessOp} {chatId : Int}
    {now : AccessTime} (hfifth : FifthFailure chatId (s, op) now)
    (hclear : now.seconds ≤ u64Max - 600) :
    ∃ attempt until_, (s.apply op).attempts[chatId]? = some attempt ∧
      attempt.lockedUntil = some until_ ∧ until_.seconds = now.seconds + 300 := by
  obtain ⟨submittedCode, until_, rfl, hc, hlocked⟩ := hfifth
  have hsat : (now.saturatingAdd lockoutDuration).seconds = now.seconds + 300 := by
    simp only [AccessTime.saturatingAdd, lockoutDuration, u64Max] at hclear ⊢
    omega
  rcases AccessControl.attemptPair_cases s chatId submittedCode now with
    ⟨ha, -⟩ | ⟨-, _, hl, -⟩ | ⟨-, -, hr⟩ | ⟨-, -, hr⟩
  · exact absurd ha hc.1
  · rw [hc.2] at hl
    cases hl
  · rw [hr] at hlocked
    cases hlocked
  · dsimp only at hlocked
    rw [AccessControl.apply, hr]
    rw [hr] at hlocked
    unfold AccessControl.recordFailedAttempt at hlocked ⊢
    dsimp only at hlocked ⊢
    split at hlocked
    · rw [if_pos (by assumption)]
      exact ⟨_, _, Std.ExtTreeMap.getElem?_insert_self, rfl, hsat⟩
    · cases hlocked

/-- **During a lockout nothing is compared**: after a state locked until `u`, every comparison of the
    chat is at `u` or later. -/
theorem compared_after_lockout {m s : AccessControl} {chatId : Int} {u : Nat} {newer : AccessHistory}
    (hlocked : ∃ attempt until_, m.attempts[chatId]? = some attempt ∧
      attempt.lockedUntil = some until_ ∧ until_.seconds = u)
    (p : Path accessSys m newer s) : Guessing chatId newer →
    (∀ t ∈ compared chatId newer, u ≤ t) ∧
    ((∃ attempt until_, s.attempts[chatId]? = some attempt ∧
        attempt.lockedUntil = some until_ ∧ until_.seconds = u) ∨
      ∃ x ∈ newer, ∃ now, x.2.time = some now ∧ u ≤ now.seconds) := by
  induction p with
  | start => exact fun _ => ⟨fun t ht => absurd ht List.not_mem_nil, Or.inl hlocked⟩
  | @step newer s s' op p hs ih =>
    intro hg
    cases hs
    obtain ⟨hafter, hstill⟩ := ih hg.tail
    rw [compared_cons]
    cases hx : comparedAt chatId (s, op) with
    | none =>
      refine ⟨hafter, ?_⟩
      rcases hstill with hstill | ⟨x, hx, hlate⟩
      · rw [AccessControl.attempts_apply (hg.not_deny _ List.mem_cons_self)]
        · exact Or.inl hstill
        · rintro submittedCode now rfl hc
          rw [comparedAt_eq_some.mpr ⟨submittedCode, now, rfl, hc, rfl⟩] at hx
          cases hx
      · exact Or.inr ⟨x, List.mem_cons_of_mem _ hx, hlate⟩
    | some t =>
      obtain ⟨submittedCode, now, hop, hc, rfl⟩ := comparedAt_eq_some.mp hx
      dsimp only at hop hc
      subst hop
      -- it was let through, so the lockout was over
      have hover : u ≤ now.seconds := by
        rcases hstill with ⟨attempt, until_, ha, hu, rfl⟩ | ⟨x, hx, earlier, ht, hle⟩
        · by_contra hlt
          have hl := hc.2
          simp only [AccessControl.lockedUntil, ha, hu] at hl
          rw [if_pos (by omega)] at hl
          cases hl
        · exact le_trans hle (hg.le_head rfl hx ht)
      refine ⟨?_, Or.inr ⟨_, List.mem_cons_self, now, rfl, hover⟩⟩
      intro t ht
      rcases List.mem_cons.mp ht with rfl | ht
      · exact hover
      · exact hafter t ht

/-! ## The bound -/

/-- The three limits on the guesses of a chat in a history. -/
structure BruteForceBound (chatId : Int) (h : AccessHistory) : Prop where
  /-- At most 8 in `[t, t + 300)`. -/
  per_span : ∀ t, FixedWindow.within (compared chatId h) t 300 ≤ 8
  /-- At most 13 from the call `x` that issues a code until the next call that does. -/
  per_code : ∀ newer x older, h = newer ++ x :: older →
    (x.1.issues x.2 chatId).isSome = true → (∀ y ∈ newer, y.1.issues y.2 chatId = none) →
    (compared chatId (newer ++ [x])).length ≤ 13
  /-- None in the five minutes after a fifth failure. -/
  per_lockout : ∀ newer x older now, h = newer ++ x :: older → FifthFailure chatId x now →
    ∀ t ∈ compared chatId newer, now.seconds + 300 ≤ t

theorem compared_append (chatId : Int) (newer older : AccessHistory) :
    compared chatId (newer ++ older) = compared chatId newer ++ compared chatId older :=
  List.filterMap_append

/-- **The pairing gate bounds brute force.**  After every run of the methods with a clock that never
    runs backwards, in which nobody allows or denies the chat by hand, whatever the other chats do. -/
theorem bruteForce_bounded (config : Config) (codeGenerator : Stream' String) (chatId : Int)
    {h : AccessHistory} {s : AccessControl}
    (p : Path accessSys (.new (.fromConfig config) codeGenerator) h s) (hg : Guessing chatId h) :
    BruteForceBound chatId h := by
  have hattempts : (AccessControl.new (.fromConfig config) codeGenerator).attempts[chatId]? = none :=
    Std.ExtTreeMap.getElem?_empty
  obtain ⟨hbounded, -⟩ := limiter_run hattempts p hg
  refine ⟨fun t => (hbounded t).1, ?_, ?_⟩
  · rintro newer x older rfl hissues hnewer
    obtain ⟨⟨code, issuedAt⟩, hx⟩ := Option.isSome_iff_exists.mp hissues
    have hten := compared_of_issue rfl p hx hg hnewer
    -- all that is compared since the issue is within ten minutes of it
    have hall : (compared chatId (newer ++ [x])).length =
        FixedWindow.within (compared chatId (newer ++ [x])) issuedAt.seconds 600 :=
      (List.countP_eq_length.mpr fun t ht => decide_eq_true (hten t ht)).symm
    have hsub : FixedWindow.within (compared chatId (newer ++ [x])) issuedAt.seconds 600 ≤
        FixedWindow.within (compared chatId (newer ++ x :: older)) issuedAt.seconds 600 := by
      rw [List.append_cons newer x older, compared_append _ _ older]
      exact (List.sublist_append_left _ _).countP_le
    exact hall.le.trans (hsub.trans (hbounded issuedAt.seconds).2)
  · rintro newer ⟨m, op⟩ older now rfl hfifth
    obtain ⟨m', -, hs, p⟩ := p.cut
    cases hs
    have hclear : now.seconds ≤ u64Max - 600 := by
      obtain ⟨submittedCode, -, hop, -⟩ := hfifth
      refine hg.clear (m, op) (List.mem_append_right _ List.mem_cons_self) now ?_
      rw [hop]
      rfl
    exact (compared_after_lockout (lockedUntil_of_fifthFailure hfifth hclear) p
      hg.newer).1

instance (h : AccessHistory) : Decidable (ClockMonotone h) := inferInstanceAs (Decidable (List.Pairwise _ _))

/-- The code of chat 7 is armed at 100 and guessed at then.  Eight more guesses come just before and after the
    end of the window, the last of them within five minutes of the first; then the chat is locked out, and a
    guess during the lockout is not compared. -/
def guesses : List AccessOp :=
  .armRoom 7 ⟨100, by decide⟩ :: ([100, 397, 398, 399, 400, 401, 402, 403, 404, 500] : List (Fin 1000)).map
    fun t : Fin 1000 => .attemptPair 7 "000000" ⟨t, (Nat.le_of_lt t.isLt).trans (by decide)⟩

theorem bruteForce_bounded_lockout :
    ∃ h s, Path accessSys (.new (.fromConfig ⟨"claude", ∅, {}⟩) (Stream'.const "123456")) h s ∧
      compared 7 h = [404, 403, 402, 401, 400, 399, 398, 397, 100] ∧
      (s.lockedUntil 7 ⟨500, by decide⟩).2.map (·.seconds) = some 704 ∧ BruteForceBound 7 h := by
  have hrun : ((accessSys.trace (.new (.fromConfig ⟨"claude", ∅, {}⟩) (Stream'.const "123456"))
      guesses).any fun r =>
        decide (compared 7 r.1 = [404, 403, 402, 401, 400, 399, 398, 397, 100]) &&
        decide ((r.2.lockedUntil 7 ⟨500, by decide⟩).2.map (·.seconds) = some 704) &&
        decide (ClockMonotone r.1) && r.1.all fun x => x.2.time.all (fun now => now.seconds ≤ u64Max - 600) &&
          x.2 != .allowChat 7 && x.2 != .denyChat 7) = true := by
    decide +kernel
  obtain ⟨h, s, hp, hend⟩ := Sys.path_of_trace_any _ hrun
  simp only [Bool.and_eq_true, decide_eq_true_iff, List.all_eq_true, bne_iff_ne] at hend
  obtain ⟨⟨⟨hcompared, hlocked⟩, hclock⟩, hall⟩ := hend
  refine ⟨h, s, hp, hcompared, hlocked, bruteForce_bounded _ _ 7 hp ⟨hclock, fun x hx now hnow => ?_,
    fun x hx => (hall x hx).1.2, fun x hx => (hall x hx).2⟩⟩
  have hclear := (hall x hx).1.1
  rw [hnow, Option.all_some] at hclear
  exact of_decide_eq_true hclear

end Tellm
