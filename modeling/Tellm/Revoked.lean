/-
  REVOKED: a deny while the chat's worker is in the middle of a turn (`runtime.rs`).

  "Revocation is a live safety boundary": `handle_deny_chat` takes the access away before anything else, "so
  an in-flight provider result cannot commit or send in the gap".  The worker asks before each of the two, but
  a deny may come between the asking and the doing, and then the one thing asked for still happens.

  1. **`Check`**: the places where the worker asks, first for its flag and then for the access.
  2. **`worker`**: the worker's loop with a whole model turn, cut wherever another task may come in, and what
     the others do: a deny in its two steps, an allow, the reactivation after a deny that could not be saved.
  3. **Budgets**: what a stage may still do while the chat is denied, and that each step stays within it.
  4. **`mediated`**: nothing is committed or sent that was not asked for by the worker's step before.
  5. **`revoked`**: after a deny, and until an allow, at most one thing is committed or begins to be sent, and
     only if it had been asked for when the deny came; a provider is called at most once.

  What a command replies and the typing indicator are left out: neither asks for anything.  A reply that is
  being sent goes on to its last part unless the worker is aborted.

  The checks are cut from what they guard, each a step of its own, so a deny can fall between.  The flag
  is set by the cancellation and read without a lock; the access is read under the access lock.  A worker
  whose flag is set leaves at the next check; one that is aborted is dropped where it is suspended.

  A budget is a number for each stage: how many commits, beginnings of sends, and calls of a provider may
  still come from it while the chat is denied.  The rule of `Tellm.Lib.Budget` turns "no step spends more
  than it takes off" into a bound for every run after the deny.

  An allow gives the access back, so the bound is for the time between a deny and the next allow.
-/
import Tellm.Lib.Budget

namespace Tellm

open Runs

namespace Revoked

/-! ## A worker and its turn -/

/-- What the worker sends of its own accord. -/
inductive Message
  /-- The notice of a history reset. -/
  | notice
  | response
  /-- `provider_error_reply`. -/
  | errorReply
  /-- "tellm error: …". -/
  | failure
  deriving DecidableEq

/-- Where the worker asks whether it may go on. -/
inductive Check
  /-- At the head of the loop, and after `recv`. -/
  | top
  | received
  /-- In `handle_model_message` once the input is there. -/
  | input
  /-- In `build_chat_request`, which only asks for the access. -/
  | build
  | notice
  /-- Before the commit. -/
  | result
  /-- Before what is sent. -/
  | response
  | errorReply
  | failure
  deriving DecidableEq

/-- Where the worker stands: before a check, in one, or in what a check has let through. -/
inductive Stage
  /-- The flag is read next, and after that the access. -/
  | check (check : Check)
  | ask (check : Check)
  /-- In `timeout(receiver.recv())`. -/
  | waiting
  /-- `handle_allowed_message` routes the message. -/
  | routing
  /-- In `handle_command`. -/
  | command
  /-- In `content_parts_from_message`. -/
  | content
  /-- In `build_chat_request`, with the access granted. -/
  | preparing
  | dispatching
  /-- The provider has been called. -/
  | awaiting
  | committing
  | restoring
  /-- About to send, and sending. -/
  | send (message : Message)
  | sending (message : Message)
  /-- Out of the loop, or dropped by an abort. -/
  | left
  deriving DecidableEq

/-- What follows an answer that it may. -/
def Check.passed : Check → Stage
  | .top => .waiting
  | .received => .routing
  | .input => .ask .build
  | .build => .preparing
  | .notice => .send .notice
  | .result => .committing
  | .response => .send .response
  | .errorReply => .send .errorReply
  | .failure => .send .failure

/-- What follows an answer that it may not. -/
def Check.refused : Check → Stage
  | .top | .received => .left
  | .build => .check .failure
  | .notice => .dispatching
  | .input | .result | .response | .errorReply | .failure => .check .top

/-- What follows a message that has been sent, or could not be. -/
def Message.sent : Message → Bool → Stage
  | .notice, _ => .dispatching
  | .response, false => .check .failure
  | .response, true | .errorReply, _ | .failure, _ => .check .top

/-- Where a text goes. -/
inductive Routed
  | command
  | ignored
  | model
  | failed
  deriving DecidableEq

/-- A step of the worker, with how it turns out. -/
inductive Act
  | readFlag
  | readAccess
  /-- A message, the end of the channel or the time-out. -/
  | recv (message : Bool)
  | route (routed : Routed)
  | commandDone (ok : Bool)
  /-- The input parts, none of them, or an error. -/
  | contentDone (parts : Option Bool)
  /-- The request, with or without a notice, or an error. -/
  | prepared (notice : Option Bool)
  | dispatch
  | answered (ok : Bool)
  | commit (committed : Bool)
  | restore (restored : Bool)
  | beginSend
  | sendDone (ok : Bool)
  /-- The abort takes effect. -/
  | dropped
  deriving DecidableEq

/-- The worker, its flags, and whether its chat is allowed. -/
structure Chat where
  stage : Stage := .check .top
  allowed : Bool := true
  cancelled : Bool := false
  aborted : Bool := false
  deriving DecidableEq

/-- What the worker does next. -/
def Chat.act (s : Chat) : Act → Option Stage
  | .readFlag =>
    match s.stage with
    | .check check => some (if s.cancelled then check.refused else .ask check)
    | _ => none
  | .readAccess =>
    match s.stage with
    | .ask check => some (if s.allowed then check.passed else check.refused)
    | _ => none
  | .recv message =>
    match s.stage with
    | .waiting => some (if message then .check .received else .left)
    | _ => none
  | .route routed =>
    match s.stage, routed with
    | .routing, .command => some .command
    | .routing, .ignored => some (.check .top)
    | .routing, .model => some .content
    | .routing, .failed => some (.check .failure)
    | _, _ => none
  | .commandDone ok =>
    match s.stage with
    | .command => some (if ok then .check .top else .check .failure)
    | _ => none
  | .contentDone parts =>
    match s.stage, parts with
    | .content, some true => some (.check .input)
    | .content, some false => some (.check .top)
    | .content, none => some (.check .failure)
    | _, _ => none
  | .prepared notice =>
    match s.stage, notice with
    | .preparing, some true => some (.check .notice)
    | .preparing, some false => some .dispatching
    | .preparing, none => some (.check .failure)
    | _, _ => none
  | .dispatch =>
    match s.stage with
    | .dispatching => some .awaiting
    | _ => none
  | .answered ok =>
    match s.stage with
    | .awaiting => some (if ok then .check .result else .restoring)
    | _ => none
  | .commit committed =>
    match s.stage with
    | .committing => some (if committed then .check .response else .check .top)
    | _ => none
  | .restore restored =>
    match s.stage with
    | .restoring => some (if restored then .check .errorReply else .check .top)
    | _ => none
  | .beginSend =>
    match s.stage with
    | .send message => some (.sending message)
    | _ => none
  | .sendDone ok =>
    match s.stage with
    | .sending message => some (message.sent ok)
    | _ => none
  | .dropped => if s.aborted then some .left else none

/-- A step of the worker, or of who denies, allows, or cancels. -/
inductive Event
  | worker (act : Act)
  /-- `handle_deny_chat` takes the access away, then calls `cancel_chat_worker`. -/
  | deny
  | cancel (abort : Bool)
  /-- `allow_chat`, also after a deny that could not be saved. -/
  | allow
  | reactivate
  deriving DecidableEq

/-- A chat with its worker as a system. -/
def worker : Sys Chat Event where
  step s
    | .worker act => (s.act act).map fun stage => { s with stage := stage }
    | .deny => some { s with allowed := false }
    | .cancel abort => some { s with cancelled := true, aborted := s.aborted || abort }
    | .allow => some { s with allowed := true }
    | .reactivate => some { s with cancelled := false }

/-- The steps so far, newest first. -/
abbrev Turns := List (Chat × Event)

/-! ## What may still happen -/

/-- Something is committed, or begins to be sent. -/
def gives (x : Chat × Event) : Bool :=
  match x.2 with
  | .worker (.commit _) | .worker .beginSend => true
  | _ => false

/-- A provider is called. -/
def calls (x : Chat × Event) : Bool :=
  match x.2 with
  | .worker .dispatch => true
  | _ => false

/-- It has been asked for already, and only has to be done. -/
def Stage.granted : Stage → Bool
  | .committing | .send _ => true
  | _ => false

/-- The request has been built, and nothing is asked any more before the call, or in vain. -/
def Stage.prepares : Stage → Bool
  | .preparing | .dispatching | .check .notice | .ask .notice | .send .notice | .sending .notice => true
  | _ => false

variable {s s' : Chat} {act : Act} {next : Stage}

theorem refused_granted (check : Check) : check.refused.granted = false := by
  cases check <;> rfl

theorem refused_prepares (check : Check) : check.refused.prepares = (Stage.ask check).prepares := by
  cases check <;> rfl

theorem check_prepares (check : Check) : (Stage.check check).prepares = (Stage.ask check).prepares := by
  cases check <;> rfl

theorem sent_granted (message : Message) (ok : Bool) : (message.sent ok).granted = false := by
  cases message <;> cases ok <;> rfl

theorem sent_prepares (message : Message) (ok : Bool) :
    (message.sent ok).prepares = (Stage.sending message).prepares := by
  cases message <;> cases ok <;> rfl

theorem send_prepares (message : Message) :
    (Stage.send message).prepares = (Stage.sending message).prepares := by
  cases message <;> rfl

/-- What a step of the worker can do. -/
inductive Moves (s : Chat) : Act → Stage → Prop
  | asks {check : Check} : s.stage = .check check → Moves s .readFlag (.ask check)
  | cancelled {check : Check} : s.stage = .check check → Moves s .readFlag check.refused
  | passed {check : Check} : s.stage = .ask check → s.allowed = true → Moves s .readAccess check.passed
  | refused {check : Check} : s.stage = .ask check → s.allowed = false → Moves s .readAccess check.refused
  | dispatch : s.stage = .dispatching → Moves s .dispatch .awaiting
  | commit {committed : Bool} : s.stage = .committing →
      Moves s (.commit committed) (if committed then .check .response else .check .top)
  | beginSend {message : Message} : s.stage = .send message → Moves s .beginSend (.sending message)
  | sendDone {message : Message} {ok : Bool} : s.stage = .sending message →
      Moves s (.sendDone ok) (message.sent ok)
  | dropped : s.aborted = true → Moves s .dropped .left
  /-- The rest of the loop gives nothing, and goes where nothing has been granted. -/
  | quiet {act : Act} {next : Stage} : gives (s, .worker act) = false → calls (s, .worker act) = false →
      next.granted = false → next.prepares.toNat ≤ s.stage.prepares.toNat → Moves s act next

theorem moves_of_act (hact : s.act act = some next) : Moves s act next := by
  unfold Chat.act at hact
  cases act with
  | readFlag =>
    simp only [] at hact
    split at hact
    · rename_i check hstage
      cases hact
      split
      · exact .cancelled hstage
      · exact .asks hstage
    · cases hact
  | readAccess =>
    simp only [] at hact
    split at hact
    · rename_i check hstage
      cases hact
      split
      · rename_i hallowed
        exact .passed hstage hallowed
      · rename_i hdenied
        exact .refused hstage (Bool.eq_false_of_not_eq_true hdenied)
    · cases hact
  | dispatch =>
    simp only [] at hact
    split at hact
    · rename_i hstage
      cases hact
      exact .dispatch hstage
    · cases hact
  | commit committed =>
    simp only [] at hact
    split at hact
    · rename_i hstage
      cases hact
      exact .commit hstage
    · cases hact
  | beginSend =>
    simp only [] at hact
    split at hact
    · rename_i message hstage
      cases hact
      exact .beginSend hstage
    · cases hact
  | sendDone ok =>
    simp only [] at hact
    split at hact
    · rename_i message hstage
      cases hact
      exact .sendDone hstage
    · cases hact
  | dropped =>
    obtain ⟨haborted, hleft⟩ := Option.ite_none_right_eq_some.mp hact
    cases hleft
    exact .dropped haborted
  | _ =>
    simp only [] at hact
    split at hact
    all_goals
      first
      | (rename_i hstage
         cases hact
         refine .quiet rfl rfl ?_ ?_
         · first
           | rfl
           | (split <;> rfl)
         · rw [hstage]
           first
           | exact Nat.le_of_ble_eq_true rfl
           | (split <;> exact Nat.le_of_ble_eq_true rfl))
      | cases hact

/-- **While the chat is denied** a step of the worker stays within what its stage may still do. -/
theorem spends_of_moves (hdenied : s.allowed = false) (hmoves : Moves s act next) :
    (gives (s, .worker act)).toNat + next.granted.toNat ≤ s.stage.granted.toNat ∧
      (calls (s, .worker act)).toNat + next.prepares.toNat ≤ s.stage.prepares.toNat := by
  cases hmoves with
  | asks hstage =>
    rw [hstage, check_prepares]
    exact ⟨le_rfl, (Nat.zero_add _).le⟩
  | cancelled hstage =>
    rw [hstage, refused_granted, refused_prepares, check_prepares]
    exact ⟨le_rfl, (Nat.zero_add _).le⟩
  | passed hstage hallowed => exact absurd (hdenied.symm.trans hallowed) Bool.false_ne_true
  | refused hstage =>
    rw [hstage, refused_granted, refused_prepares]
    exact ⟨le_rfl, (Nat.zero_add _).le⟩
  | dispatch hstage =>
    rw [hstage]
    exact ⟨le_rfl, le_rfl⟩
  | @commit committed hstage =>
    rw [hstage]
    cases committed <;> exact ⟨le_rfl, le_rfl⟩
  | beginSend hstage =>
    rw [hstage, send_prepares]
    exact ⟨le_rfl, (Nat.zero_add _).le⟩
  | sendDone hstage =>
    rw [hstage, sent_granted, sent_prepares]
    exact ⟨le_rfl, (Nat.zero_add _).le⟩
  | dropped => exact ⟨Nat.zero_le _, Nat.zero_le _⟩
  | quiet hgives hcalls hgranted hprepares =>
    rw [hgives, hcalls, hgranted]
    exact ⟨Nat.zero_le _, (Nat.zero_add _).le.trans hprepares⟩

/-- An event that is not an allow leaves the chat denied and spends no more than it takes off. -/
theorem spends_of_step {e : Event} (hdenied : s.allowed = false) (he : e ≠ .allow)
    (hs : worker.step s e = some s') :
    s'.allowed = false ∧ (gives (s, e)).toNat + s'.stage.granted.toNat ≤ s.stage.granted.toNat ∧
      (calls (s, e)).toNat + s'.stage.prepares.toNat ≤ s.stage.prepares.toNat := by
  cases e with
  | worker act =>
    obtain ⟨next, hact, rfl⟩ := Option.map_eq_some_iff.mp hs
    exact ⟨hdenied, spends_of_moves hdenied (moves_of_act hact)⟩
  | deny =>
    cases hs
    exact ⟨rfl, (Nat.zero_add _).le, (Nat.zero_add _).le⟩
  | cancel abort =>
    cases hs
    exact ⟨hdenied, (Nat.zero_add _).le, (Nat.zero_add _).le⟩
  | allow => exact absurd rfl he
  | reactivate =>
    cases hs
    exact ⟨hdenied, (Nat.zero_add _).le, (Nat.zero_add _).le⟩

/-! ## What has been asked for -/

/-- A step of another task. -/
def elsewhere (x : Chat × Event) : Prop :=
  ∀ act, x.2 ≠ .worker act

/-- The access was read, and was there, and the answer led to the stage. -/
def Grants (stage : Stage) (x : Chat × Event) : Prop :=
  x.2 = .worker .readAccess ∧ x.1.allowed = true ∧
    ∃ check, x.1.stage = .ask check ∧ check.passed = stage

/-- The stage has been asked for, and the worker has done nothing since. -/
def Asked (stage : Stage) (h : Turns) : Prop :=
  Since elsewhere (Grants stage) h

/-- A stage that may give something is only entered through an answer that it may. -/
theorem grants_of_moves (hmoves : Moves s act next) (hgranted : next.granted = true) :
    Grants next (s, .worker act) := by
  cases hmoves with
  | passed hstage hallowed => exact ⟨rfl, hallowed, _, hstage, rfl⟩
  | cancelled => exact absurd ((refused_granted _).symm.trans hgranted) Bool.false_ne_true
  | refused => exact absurd ((refused_granted _).symm.trans hgranted) Bool.false_ne_true
  | sendDone => exact absurd ((sent_granted _ _).symm.trans hgranted) Bool.false_ne_true
  | @commit committed => cases committed <;> cases hgranted
  | quiet _ _ hnext => exact absurd (hnext.symm.trans hgranted) Bool.false_ne_true
  | _ => cases hgranted

/-- What is given is what the stage may give. -/
theorem granted_of_gives {e : Event} (hs : worker.step s e = some s') (hgives : gives (s, e) = true) :
    s.stage.granted = true := by
  cases e with
  | worker act =>
    obtain ⟨next, hact, -⟩ := Option.map_eq_some_iff.mp hs
    cases moves_of_act hact with
    | commit hstage => rw [hstage]; rfl
    | beginSend hstage => rw [hstage]; rfl
    | quiet hnothing => exact absurd (hnothing.symm.trans hgives) Bool.false_ne_true
    | _ => cases hgives
  | _ => cases hgives

/-- In every run a stage that may give something has been asked for. -/
theorem asked_of_granted {allowed : Bool} {h : Turns} (p : Path worker { allowed := allowed } h s) :
    s.stage.granted = true → Asked s.stage h := by
  induction p with
  | start => exact fun hgranted => by cases hgranted
  | @step h s s' e _ hs ih =>
    intro hgranted
    cases e with
    | worker act =>
      obtain ⟨next, hact, rfl⟩ := Option.map_eq_some_iff.mp hs
      exact since_cons.mpr (.inl (grants_of_moves (moves_of_act hact) hgranted))
    | _ =>
      cases hs
      exact since_cons.mpr (.inr ⟨fun _ he => (by cases he), ih hgranted⟩)

/-- **Nothing is given unasked**: at each commit and each send the worker's last step was to read the access,
    and it was there. -/
theorem mediated {allowed : Bool} {newer older : Turns} {m : Chat} {e : Event}
    (p : Path worker { allowed := allowed } (newer ++ (m, e) :: older) s) (hgives : gives (m, e) = true) :
    Asked m.stage older := by
  obtain ⟨m', hold, hs, -⟩ := p.cut
  exact asked_of_granted hold (granted_of_gives hs hgives)

/-! ## After a deny -/

/-- **A deny is a boundary**: from it on, and until the chat is allowed again, the worker commits or begins to
    send at most the one thing it had asked for when the deny came, and calls a provider at most once, for a
    request that was already being built.  Sends are the turn's own: replies to commands and the typing
    indicator, which ask for nothing, are not counted. -/
theorem revoked {allowed : Bool} {h newer older : Turns} {m : Chat}
    (p : Path worker { allowed := allowed } h s) (hcut : h = newer ++ (m, .deny) :: older)
    (hnever : ∀ x ∈ newer, x.2 ≠ .allow) :
    newer.countP gives ≤ m.stage.granted.toNat ∧ newer.countP calls ≤ m.stage.prepares.toNat ∧
      (0 < newer.countP gives → Asked m.stage older) := by
  subst hcut
  obtain ⟨m', hold, hdeny, hnew⟩ := p.cut
  cases hdeny
  have hgives : newer.countP gives ≤ m.stage.granted.toNat :=
    Nat.le_of_add_right_le (hnew.countP_le gives (fun s => s.stage.granted.toNat)
      (I := fun s => s.allowed = false) (G := fun _ e => e ≠ .allow) rfl
      (fun _ _ _ hdenied he hs => (spends_of_step hdenied he hs).imp_right And.left) hnever).2
  have hcalls : newer.countP calls ≤ m.stage.prepares.toNat :=
    Nat.le_of_add_right_le (hnew.countP_le calls (fun s => s.stage.prepares.toNat)
      (I := fun s => s.allowed = false) (G := fun _ e => e ≠ .allow) rfl
      (fun _ _ _ hdenied he hs => (spends_of_step hdenied he hs).imp_right And.right) hnever).2
  refine ⟨hgives, hcalls, fun hsome => asked_of_granted hold ?_⟩
  have hle := Bool.toNat_le m.stage.granted
  exact Bool.toNat_eq_one.mp (by omega)

/-- A turn up to the answer that it may commit. -/
def turn : List Event :=
  [.worker .readFlag, .worker .readAccess, .worker (.recv true), .worker .readFlag, .worker .readAccess,
    .worker (.route .model), .worker (.contentDone (some true)), .worker .readFlag, .worker .readAccess,
    .worker .readAccess, .worker (.prepared (some false)), .worker .dispatch, .worker (.answered true),
    .worker .readFlag, .worker .readAccess]

/-- The end of it, with the deny before the commit. -/
def late : Turns :=
  [({ stage := .committing, allowed := false, cancelled := true, aborted := true }, .worker (.commit true)),
    ({ stage := .committing, allowed := false }, .cancel true)]

/-- The turn is committed although the chat is denied, since it had been asked for. -/
theorem revoked_late : ∃ older s,
    Path worker { allowed := true } (late ++ ({ stage := .committing }, .deny) :: older) s ∧
      late.countP gives = 1 ∧ late.countP gives ≤ Stage.committing.granted.toNat ∧
      late.countP calls ≤ Stage.committing.prepares.toNat ∧
      (0 < late.countP gives → Asked .committing older) := by
  have hrun : ((worker.trace { allowed := true } turn).any
      fun r => r.2 == { stage := .committing }) = true := by decide
  obtain ⟨older, m, hold, hm⟩ := Sys.path_of_trace_any _ hrun
  obtain rfl : m = { stage := .committing } := eq_of_beq hm
  have p : Path worker { allowed := true } (late ++ ({ stage := .committing }, .deny) :: older)
      { stage := .check .response, allowed := false, cancelled := true, aborted := true } :=
    ((hold.step rfl).step rfl).step rfl
  exact ⟨older, _, p, rfl, revoked p rfl (by decide)⟩

end Revoked

end Tellm
